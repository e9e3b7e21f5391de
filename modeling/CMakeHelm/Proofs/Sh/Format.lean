import CMakeHelm.Sh.Format

namespace CMakeHelm.Sh.Format

variable {rules : Rules} {cs rest piece : Octets} {p q : Printing}

/-- With fuel for the whole format, `p` becomes `q`. -/
def Prints (rules : Rules) (format : Octets) (p q : Printing) : Prop :=
  ∀ n, format.length < n → pass rules n format p = q

namespace Prints

theorem nil : Prints rules [] p p := by
  intro n hn
  cases n with
  | zero => simp at hn
  | succ n => rw [pass]; simp

theorem literal (hcs : ∀ c ∈ cs, c ≠ '\\' ∧ c ≠ '%') (h : Prints rules rest (p.say cs) q) :
    Prints rules (cs ++ rest) p q := by
  induction cs generalizing p with
  | nil => simpa [Printing.say] using h
  | cons c cs ih =>
      intro n hn
      obtain ⟨hbackslash, hpercent⟩ := hcs c List.mem_cons_self
      cases n with
      | zero => simp at hn
      | succ n =>
          have hsay : (p.say [c]).say cs = p.say (c :: cs) := by simp [Printing.say]
          rw [List.cons_append, pass]
          · exact ih (fun d hd => hcs d (List.mem_cons_of_mem c hd)) (hsay ▸ h) n (by simpa using hn)
          · rintro rfl
            exact hbackslash rfl
          · rintro rest' rfl
            exact absurd rfl hpercent
          · rintro rfl
            exact hpercent rfl

theorem escape (he : Format.escape rules cs = (piece, rest)) (hrest : rest.length ≤ cs.length)
    (hc : cs.head? ≠ some 'c') (h : Prints rules rest (p.say piece) q) : Prints rules ('\\' :: cs) p q := by
  intro n hn
  cases n with
  | zero => simp at hn
  | succ n =>
      have hcut : ¬ (rules = .tool ∧ cs.head? = some 'c') := fun hand => hc hand.2
      rw [pass, if_neg hcut, he]
      exact h n (by simp only [List.length_cons] at hn; omega)

theorem string (hp : p.ended = false) (h : Prints rules rest (p.next.2.say p.next.1) q) :
    Prints rules ('%' :: 's' :: rest) p q := by
  intro n hn
  have hdirective : directive rules ('s' :: rest) p = (rest, p.next.2.say p.next.1) := by
    cases rules <;> simp [directive, flags, measures, decimal, padded]
  have hended : (p.next.2.say p.next.1).ended = false := by
    rw [Printing.say, Printing.next]
    split <;> exact hp
  cases n with
  | zero => simp at hn
  | succ n =>
      rw [pass]
      · simp only [hdirective, hended, Bool.false_eq_true, if_false]
        exact h n (by simp only [List.length_cons] at hn; omega)
      · simp

end Prints

theorem printf_of_prints {format : Octets} {args : List Octets} (h : Prints rules format { args } q)
    (hargs : q.args = []) : printf rules format args = q := by
  have hpass := h (format.length + 1) (Nat.lt_succ_self _)
  simp [printf, passes, hpass, hargs]

end CMakeHelm.Sh.Format
