import CMakeHelm.Proofs.Text.Pieces
import CMakeHelm.Text.Lines
import Mathlib.Data.List.Induction

namespace CMakeHelm.Text

variable {cs line : List Char}

theorem chomp_of_not_mem (h : '\r' ∉ line) : chomp line = line := by
  induction line with
  | nil => rfl
  | cons c line ih =>
      rw [List.mem_cons, not_or] at h
      rw [chomp, ih h.2]
      rintro rfl
      exact absurd rfl h.1

theorem split_newline (cs ds : List Char) :
    split (· == '\n') (cs ++ '\n' :: ds) = split (· == '\n') cs ++ split (· == '\n') ds :=
  split_append_cons rfl cs ds

theorem linesOfPieces_append {pieces next : List (List Char)} (hpieces : pieces ≠ []) (hnext : next ≠ []) :
    linesOfPieces (pieces ++ next) = linesOfPieces (pieces ++ [[]]) ++ linesOfPieces next := by
  obtain ⟨first, others, rfl⟩ := List.exists_cons_of_ne_nil hnext
  induction pieces with
  | nil => exact absurd rfl hpieces
  | cons piece pieces ih =>
      cases pieces with
      | nil => simp [linesOfPieces]
      | cons piece' pieces =>
          rw [List.cons_append, List.cons_append, linesOfPieces, ← List.cons_append, ih (by simp)]
          simp [linesOfPieces]

def IsEnded (cs : List Char) : Prop := cs = [] ∨ ∃ front, cs = front ++ ['\n']

theorem lines_append (h : IsEnded cs) (more : List Char) : lines (cs ++ more) = lines cs ++ lines more := by
  rcases h with rfl | ⟨front, rfl⟩
  · rfl
  · rw [lines, List.append_assoc, List.singleton_append, split_newline, lines, split_newline]
    exact linesOfPieces_append (split_ne_nil _ _) (split_ne_nil _ _)

theorem lines_append_newline (h : '\n' ∉ line) (hr : '\r' ∉ line) (cs : List Char) :
    lines (line ++ '\n' :: cs) = line :: lines cs := by
  have hnot : ∀ c ∈ line, (c == '\n') = false := fun c hc => beq_false_of_ne fun he => h (he ▸ hc)
  have hone : lines (line ++ ['\n']) = [chomp line] := by
    rw [lines, split_newline, split_of_forall_not hnot]
    rfl
  rw [List.append_cons, lines_append (.inr ⟨line, rfl⟩), hone, chomp_of_not_mem hr, List.singleton_append]

end CMakeHelm.Text
