import CMakeHelm.Proofs.Text.Utf8
import CMakeHelm.Text.Octets

namespace CMakeHelm.Text

variable {c : Char} {cs ds : List Char}

theorem toNat_charOfByte (b : UInt8) : (Char.ofNat b.toNat).toNat = b.toNat := by
  have hvalid : b.toNat.isValidChar := .inl (by have := b.toNat_lt; omega)
  rw [Char.ofNat, dif_pos hvalid]
  rfl

theorem octets_append (cs ds : List Char) : octets (cs ++ ds) = octets cs ++ octets ds := by
  rw [octets, encode_append, ofBytes, List.map_append, ← ofBytes, ← ofBytes, octets, octets]

theorem octets_cons_of_lt (h : c.toNat < 0x80) (cs : List Char) : octets (c :: cs) = c :: octets cs := by
  have hbyte : (UInt8.ofNat c.toNat).toNat = c.toNat := by
    rw [UInt8.toNat_ofNat']
    omega
  rw [octets, encode_cons, encodeChar_of_lt h, List.singleton_append, ofBytes, List.map_cons, hbyte, Char.ofNat_toNat,
    ← ofBytes, octets]

theorem octets_of_forall_lt (h : ∀ c ∈ cs, c.toNat < 0x80) : octets cs = cs := by
  induction cs with
  | nil => rfl
  | cons c cs ih =>
      rw [octets_cons_of_lt (h c List.mem_cons_self), ih fun d hd => h d (List.mem_cons_of_mem c hd)]

theorem bytesOf_ofBytes (bs : Bytes) : bytesOf (ofBytes bs) = bs := by
  have hbyte (b : UInt8) : UInt8.ofNat (Char.ofNat b.toNat).toNat = b := by
    rw [toNat_charOfByte, UInt8.ofNat_toNat]
  rw [bytesOf, ofBytes, List.map_map]
  exact (List.map_congr_left fun b _ => hbyte b).trans (List.map_id _)

theorem bytesOf_octets (cs : List Char) : bytesOf (octets cs) = encode cs := bytesOf_ofBytes (encode cs)

theorem textOf_octets (cs : List Char) : textOf (octets cs) = cs := by
  rw [textOf, bytesOf_octets, decodeLossy_encode]

theorem text?_octets (cs : List Char) : text? (octets cs) = some cs := by
  rw [text?, bytesOf_octets, decode?_encode]

theorem octets_ne_nil (h : cs ≠ []) : octets cs ≠ [] := by
  intro hnil
  have htext := textOf_octets cs
  rw [hnil, textOf, bytesOf, List.map_nil, decodeLossy, scalars, List.map_nil] at htext
  exact h htext.symm

theorem mem_of_mem_octets (hc : c.toNat < 0x80) (h : c ∈ octets cs) : c ∈ cs := by
  obtain ⟨b, hb, rfl⟩ := List.mem_map.1 h
  rw [toNat_charOfByte] at hc
  exact mem_of_mem_encode hc hb

theorem octets_infix (h : cs <:+: ds) : octets cs <:+: octets ds := by
  obtain ⟨before, after, rfl⟩ := h
  exact ⟨octets before, octets after, by rw [octets_append, octets_append]⟩

end CMakeHelm.Text
