import CMakeHelm.Text.Utf8

namespace CMakeHelm.Text

variable {c : Char} {cs ds : List Char} {bytes rest : Bytes} {b : UInt8}

theorem encode_append (cs ds : List Char) : encode (cs ++ ds) = encode cs ++ encode ds := List.flatMap_append

theorem encode_cons (c : Char) (cs : List Char) : encode (c :: cs) = encodeChar c ++ encode cs := List.flatMap_cons

theorem encodeChar_of_lt (h : c.toNat < 0x80) : encodeChar c = [UInt8.ofNat c.toNat] := by
  simp only [encodeChar, if_pos h]

theorem scalars_of_lead {l : Lead} (h : lead? b = some l) (rest : Bytes) :
    scalars (b :: rest) =
      (finish l.low l.high l.more l.bits rest).1 :: scalars (finish l.low l.high l.more l.bits rest).2 := by
  rw [scalars, h]

theorem finish_tail {low high x : Nat} (hx : x < 64) (hlow : low ≤ 0x80 + x) (hhigh : 0x80 + x ≤ high) (more bits : Nat)
    (rest : Bytes) :
    finish low high (more + 1) bits (UInt8.ofNat (0x80 + x) :: rest) = finish 0x80 0xBF more (bits * 64 + x) rest := by
  have hbyte : (UInt8.ofNat (0x80 + x)).toNat = 0x80 + x := by
    rw [UInt8.toNat_ofNat']
    omega
  rw [finish, hbyte, if_pos ⟨hlow, hhigh⟩, Nat.add_sub_cancel_left]

theorem lead?_ofNat {n : Nat} (h : n < 256) :
    lead? (UInt8.ofNat n) =
      if n < 0x80 then some ⟨n, 0, 0x80, 0xBF⟩
      else if n < 0xC2 then none
      else if n < 0xE0 then some ⟨n - 0xC0, 1, 0x80, 0xBF⟩
      else if n = 0xE0 then some ⟨0, 2, 0xA0, 0xBF⟩
      else if n = 0xED then some ⟨0xD, 2, 0x80, 0x9F⟩
      else if n < 0xF0 then some ⟨n - 0xE0, 2, 0x80, 0xBF⟩
      else if n = 0xF0 then some ⟨0, 3, 0x90, 0xBF⟩
      else if n < 0xF4 then some ⟨n - 0xF0, 3, 0x80, 0xBF⟩
      else if n = 0xF4 then some ⟨4, 3, 0x80, 0x8F⟩
      else none := by
  have hbyte : (UInt8.ofNat n).toNat = n := by
    rw [UInt8.toNat_ofNat']
    omega
  rw [lead?, hbyte]

theorem exists_lead_three {n : Nat} (hlow : 0x800 ≤ n) (hhigh : n < 0x10000) (hvalid : n < 0xD800 ∨ 0xDFFF < n) :
    ∃ low high, lead? (UInt8.ofNat (0xE0 + n / 4096)) = some ⟨n / 4096, 2, low, high⟩ ∧
      low ≤ 0x80 + n / 64 % 64 ∧ 0x80 + n / 64 % 64 ≤ high := by
  rw [lead?_ofNat (by omega), if_neg (by omega), if_neg (by omega), if_neg (by omega)]
  split
  · have hbits : n / 4096 = 0 := by omega
    exact ⟨0xA0, 0xBF, by rw [hbits], by omega, by omega⟩
  split
  · have hbits : n / 4096 = 0xD := by omega
    exact ⟨0x80, 0x9F, by rw [hbits], by omega, by omega⟩
  · rw [if_pos (by omega), Nat.add_sub_cancel_left]
    exact ⟨0x80, 0xBF, rfl, by omega, by omega⟩

theorem exists_lead_four {n : Nat} (hlow : 0x10000 ≤ n) (hhigh : n < 0x110000) :
    ∃ low high, lead? (UInt8.ofNat (0xF0 + n / 262144)) = some ⟨n / 262144, 3, low, high⟩ ∧
      low ≤ 0x80 + n / 4096 % 64 ∧ 0x80 + n / 4096 % 64 ≤ high := by
  rw [lead?_ofNat (by omega), if_neg (by omega), if_neg (by omega), if_neg (by omega), if_neg (by omega),
    if_neg (by omega), if_neg (by omega)]
  split
  · have hbits : n / 262144 = 0 := by omega
    exact ⟨0x90, 0xBF, by rw [hbits], by omega, by omega⟩
  split
  · rw [Nat.add_sub_cancel_left]
    exact ⟨0x80, 0xBF, rfl, by omega, by omega⟩
  · have hbits : n / 262144 = 4 := by omega
    rw [if_pos (by omega)]
    exact ⟨0x80, 0x8F, by rw [hbits], by omega, by omega⟩

theorem scalars_encodeChar (c : Char) (rest : Bytes) : scalars (encodeChar c ++ rest) = some c :: scalars rest := by
  have hvalid : c.toNat < 0xD800 ∨ 0xDFFF < c.toNat ∧ c.toNat < 0x110000 := c.valid
  have hchar : Char.ofNat c.toNat = c := Char.ofNat_toNat c
  simp only [encodeChar, Nat.shiftRight_eq_div_pow, Nat.reduceMul, Nat.reducePow, Nat.div_one]
  generalize hn : c.toNat = n at *
  split
  · have hlead : lead? (UInt8.ofNat n) = some ⟨n, 0, 0x80, 0xBF⟩ := by rw [lead?_ofNat (by omega), if_pos ‹_›]
    rw [List.singleton_append, scalars_of_lead hlead, finish, hchar]
  split
  · have hlead : lead? (UInt8.ofNat (0xC0 + n / 64)) = some ⟨n / 64, 1, 0x80, 0xBF⟩ := by
      rw [lead?_ofNat (by omega), if_neg (by omega), if_neg (by omega), if_pos (by omega), Nat.add_sub_cancel_left]
    have hbits : n / 64 * 64 + n % 64 = n := by omega
    rw [List.cons_append, scalars_of_lead hlead]
    simp only [List.cons_append, List.nil_append]
    rw [finish_tail (by omega) (by omega) (by omega), finish, hbits, hchar]
  split
  · obtain ⟨low, high, hlead, hlow, hhigh⟩ := exists_lead_three (n := n) (by omega) (by omega) (by omega)
    have hbits : (n / 4096 * 64 + n / 64 % 64) * 64 + n % 64 = n := by omega
    rw [List.cons_append, scalars_of_lead hlead]
    simp only [List.cons_append, List.nil_append]
    rw [finish_tail (by omega) hlow hhigh, finish_tail (by omega) (by omega) (by omega), finish, hbits, hchar]
  · obtain ⟨low, high, hlead, hlow, hhigh⟩ := exists_lead_four (n := n) (by omega) (by omega)
    have hbits : ((n / 262144 * 64 + n / 4096 % 64) * 64 + n / 64 % 64) * 64 + n % 64 = n := by omega
    rw [List.cons_append, scalars_of_lead hlead]
    simp only [List.cons_append, List.nil_append]
    rw [finish_tail (by omega) hlow hhigh, finish_tail (by omega) (by omega) (by omega),
      finish_tail (by omega) (by omega) (by omega), finish, hbits, hchar]

theorem scalars_encode_append (cs : List Char) (rest : Bytes) :
    scalars (encode cs ++ rest) = cs.map some ++ scalars rest := by
  induction cs with
  | nil => rfl
  | cons c cs ih => rw [encode_cons, List.append_assoc, scalars_encodeChar, ih, List.map_cons, List.cons_append]

theorem scalars_encode (cs : List Char) : scalars (encode cs) = cs.map some := by
  simpa [scalars] using scalars_encode_append cs []

theorem decodeLossy_encode (cs : List Char) : decodeLossy (encode cs) = cs := by
  rw [decodeLossy, scalars_encode, List.map_map]
  exact List.map_id cs

theorem decode?_encode (cs : List Char) : decode? (encode cs) = some cs := by
  rw [decode?, scalars_encode]
  induction cs with
  | nil => rfl
  | cons c cs ih => simp [List.mapM_cons, ih]

theorem le_of_mem_encodeChar (h : 0x80 ≤ c.toNat) (hb : b ∈ encodeChar c) : 0x80 ≤ b.toNat := by
  have hvalid : c.toNat < 0xD800 ∨ 0xDFFF < c.toNat ∧ c.toNat < 0x110000 := c.valid
  simp only [encodeChar, Nat.shiftRight_eq_div_pow, Nat.reduceMul, Nat.reducePow, Nat.div_one] at hb
  have hbyte {n : Nat} (hlow : 0x80 ≤ n) (hhigh : n < 256) (he : b = UInt8.ofNat n) : 0x80 ≤ b.toNat := by
    rw [he, UInt8.toNat_ofNat']
    omega
  rw [if_neg (by omega)] at hb
  split at hb
  · simp only [List.mem_cons, List.not_mem_nil, or_false] at hb
    rcases hb with hb | hb <;> exact hbyte (by omega) (by omega) hb
  split at hb
  · simp only [List.mem_cons, List.not_mem_nil, or_false] at hb
    rcases hb with hb | hb | hb <;> exact hbyte (by omega) (by omega) hb
  · simp only [List.mem_cons, List.not_mem_nil, or_false] at hb
    rcases hb with hb | hb | hb | hb <;> exact hbyte (by omega) (by omega) hb

theorem mem_of_mem_encode (hb : b.toNat < 0x80) (h : b ∈ encode cs) : Char.ofNat b.toNat ∈ cs := by
  obtain ⟨c, hc, hmem⟩ := List.mem_flatMap.1 h
  by_cases hascii : c.toNat < 0x80
  · rw [encodeChar_of_lt hascii, List.mem_singleton] at hmem
    have hchar : Char.ofNat b.toNat = c := by
      rw [hmem, UInt8.toNat_ofNat', Nat.mod_eq_of_lt (by omega), Char.ofNat_toNat]
    exact hchar ▸ hc
  · exact absurd (le_of_mem_encodeChar (by omega) hmem) (by omega)

end CMakeHelm.Text
