import Mathlib.Data.List.Basic

/-! Resources taken and given back: what is still held after a list of entries, when
nothing is given back that is not held. -/
namespace Ledger

inductive Entry (ι : Type*) where
  | acquire (i : ι)
  | release (i : ι)
  deriving DecidableEq

variable {ι : Type*} [DecidableEq ι]

/-- What is held afterwards; no value when something is released that is not held. -/
def settle (held : List ι) : List (Entry ι) → Option (List ι)
  | [] => some held
  | .acquire i :: es => settle (i :: held) es
  | .release i :: es => if i ∈ held then settle (held.erase i) es else none

@[simp] theorem settle_nil (held : List ι) : settle held [] = some held := rfl

@[simp] theorem settle_acquire (held : List ι) (i : ι) (es : List (Entry ι)) :
    settle held (.acquire i :: es) = settle (i :: held) es := rfl

theorem settle_release {held : List ι} {i : ι} (h : i ∈ held) (es : List (Entry ι)) :
    settle held (.release i :: es) = settle (held.erase i) es := if_pos h

@[simp] theorem settle_release_head (i : ι) (held : List ι) (es : List (Entry ι)) :
    settle (i :: held) (.release i :: es) = settle held es := by
  rw [settle_release List.mem_cons_self, List.erase_cons_head]

@[simp] theorem settle_release_second (i j : ι) (held : List ι) (es : List (Entry ι)) :
    settle (j :: i :: held) (.release i :: es) = settle (j :: held) es := by
  rw [settle_release (List.mem_cons_of_mem j List.mem_cons_self), List.erase_cons]
  split
  next h => rw [eq_of_beq h]
  next => rw [List.erase_cons_head]

theorem settle_append (held : List ι) (es es' : List (Entry ι)) :
    settle held (es ++ es') = (settle held es).bind fun held' => settle held' es' := by
  induction es generalizing held with
  | nil => rfl
  | cons e es ih =>
    cases e with
    | acquire i => exact ih (i :: held)
    | release i =>
      simp only [List.cons_append, settle]
      split
      · exact ih (held.erase i)
      · rfl

/-- What else is held does not matter and stays. -/
theorem settle_frame {held held' : List ι} {es : List (Entry ι)}
    (h : settle held es = some held') (more : List ι) :
    settle (held ++ more) es = some (held' ++ more) := by
  induction es generalizing held with
  | nil =>
    cases h
    rfl
  | cons e es ih =>
    cases e with
    | acquire i => exact ih h
    | release i =>
      by_cases hi : i ∈ held
      · rw [settle_release hi] at h
        rw [settle_release (List.mem_append_left more hi), List.erase_append_left more hi]
        exact ih h
      · simp [settle, hi] at h

/-- One list of entries after another, each seen from nothing held. -/
theorem settle_trans {es es' : List (Entry ι)} {held held' : List ι}
    (h : settle [] es = some held) (h' : settle [] es' = some held') :
    settle [] (es ++ es') = some (held' ++ held) := by
  rw [settle_append, h]
  exact settle_frame h' held

end Ledger
