import Aawgd.ListCursor

/-! Uevents and one pass of the monitor's loop over the registered handlers. -/
namespace Aawgd

abbrev Bytes := List UInt8

def bytes (s : String) : Bytes := s.toList.map fun c => UInt8.ofNat c.toNat

/-- The parsed environment of a uevent. -/
abbrev UeventEnv := List (Bytes × Bytes)

section dispatch
variable {η σ : Type*} (handler : η → σ → Bool × η × σ)

/-- The loop of `UeventMonitor::monitorLoop` over its handlers, from the iterator on.
A handler may change its own state and the world, and returns whether it is done.
The erased element's successor is passed over by the loop's own `++it`. -/
def dispatchFrom (c : ListCursor η) (s : σ) : List η × σ :=
  match c with
  | ⟨before, []⟩ => (before, s)
  | ⟨before, h :: after⟩ =>
    match handler h s with
    | (true, _, s') => dispatchFrom (ListCursor.next ⟨before, after⟩) s'
    | (false, h', s') => dispatchFrom (ListCursor.next ⟨before, h' :: after⟩) s'
  termination_by (c.before.length + c.after.length, c.after.length)
  decreasing_by
    · cases after <;> simp [ListCursor.next, Prod.lex_def]; omega
    · simp [ListCursor.next, Prod.lex_def]; omega

def dispatch (l : List η) (s : σ) : List η × σ := dispatchFrom handler (ListCursor.start l) s

end dispatch

end Aawgd
