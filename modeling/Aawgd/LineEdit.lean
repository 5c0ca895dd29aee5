import Mathlib.Data.List.Infix

/-! Editing a line at its start, and searching it: an anchored substitution and a
substring match. -/
namespace LineEdit
variable {α : Type*} [DecidableEq α]

/-- `s/^old/new/` on one line. -/
def substituteStart (old new line : List α) : List α :=
  if old <+: line then new ++ line.drop old.length else line

/-- Some part of the line is the pattern. -/
def Matches (pattern line : List α) : Prop := pattern <:+: line

instance (pattern line : List α) : Decidable (Matches pattern line) :=
  inferInstanceAs (Decidable (_ <:+: _))

@[simp] theorem substituteStart_append (old new rest : List α) :
    substituteStart old new (old ++ rest) = new ++ rest := by
  rw [substituteStart, if_pos (List.prefix_append old rest), List.drop_left]

theorem substituteStart_other {old line : List α} (h : ¬ old <+: line) (new : List α) :
    substituteStart old new line = line := if_neg h

omit [DecidableEq α] in
theorem not_prefix_cons {a b : α} (h : a ≠ b) (old line : List α) : ¬ a :: old <+: b :: line :=
  fun hp => h (List.cons_prefix_cons.mp hp).1

omit [DecidableEq α] in
/-- A pattern is not found at a first element that is not its own. -/
theorem matches_cons {a b : α} (h : a ≠ b) (pattern line : List α) :
    Matches (a :: pattern) (b :: line) ↔ Matches (a :: pattern) line := by
  rw [Matches, List.infix_cons_iff]
  exact or_iff_right (not_prefix_cons h pattern line)

end LineEdit
