import Mathlib.Data.List.Nodup

/-! An iterator into a doubly linked list closed by a sentinel: what stands before it
and from it on. At the end it stands on the sentinel, whose next node is the first. -/

structure ListCursor (α : Type*) where
  before : List α
  after : List α
  deriving DecidableEq

namespace ListCursor
variable {α : Type*}

def toList (c : ListCursor α) : List α := c.before ++ c.after

def start (l : List α) : ListCursor α := ⟨[], l⟩

/-- `++it`. -/
def next : ListCursor α → ListCursor α
  | ⟨before, []⟩ => ⟨[], before⟩
  | ⟨before, a :: after⟩ => ⟨before ++ [a], after⟩

/-- `it = list.erase(it)`. -/
def erase (c : ListCursor α) : ListCursor α := ⟨c.before, c.after.tail⟩

/-- `list.push_back(a)`, which leaves the iterator on its node or on the sentinel. -/
def pushBack : ListCursor α → α → ListCursor α
  | ⟨before, []⟩, a => ⟨before ++ [a], []⟩
  | ⟨before, b :: after⟩, a => ⟨before, b :: after ++ [a]⟩

@[simp] theorem toList_start (l : List α) : (start l).toList = l := rfl

@[simp] theorem toList_next (c : ListCursor α) : c.next.toList = c.toList := by
  cases c with
  | mk before after => cases after <;> simp [next, toList]

@[simp] theorem toList_pushBack (c : ListCursor α) (a : α) :
    (c.pushBack a).toList = c.toList ++ [a] := by
  cases c with
  | mk before after => cases after <;> simp [pushBack, toList]

theorem after_next {c : ListCursor α} {a : α} {rest : List α} (h : c.after = a :: rest) :
    c.next.after = rest := by
  cases c with
  | mk before after =>
    subst h
    rfl

theorem head?_pushBack {c : ListCursor α} {a b : α} (h : c.after.head? = some a) :
    (c.pushBack b).after.head? = some a := by
  cases c with
  | mk before after =>
    cases after with
    | nil => cases h
    | cons d after => exact h

theorem erase_sublist (c : ListCursor α) : c.erase.toList.Sublist c.toList :=
  (List.Sublist.refl c.before).append (List.tail_sublist c.after)

theorem mem_of_mem_erase {c : ListCursor α} {a : α} (h : a ∈ c.erase.toList) : a ∈ c.toList :=
  c.erase_sublist.subset h

section at_element
variable {c : ListCursor α} {a : α}

theorem toList_of_head? (h : c.after.head? = some a) :
    c.toList = c.before ++ a :: c.after.tail := by
  rw [toList, List.cons_head?_tail h]

theorem not_mem_erase (h : c.after.head? = some a) (hn : c.toList.Nodup) : a ∉ c.erase.toList := by
  rw [toList_of_head? h] at hn
  exact (List.nodup_middle.mp hn).notMem

/-- The last element stays the last when another one is erased. -/
theorem getLast?_erase (h : c.after.head? = some a) {b : α} (hb : b ≠ a)
    (hlast : c.toList.getLast? = some b) : c.erase.toList.getLast? = some b := by
  rw [toList_of_head? h] at hlast
  cases htail : c.after.tail with
  | nil =>
    rw [htail, List.getLast?_concat] at hlast
    cases hlast
    exact absurd rfl hb
  | cons d rest =>
    rw [htail, List.getLast?_append_cons, List.getLast?_cons_cons] at hlast
    rw [toList, erase, htail, List.getLast?_append_cons, hlast]

end at_element

end ListCursor
