import Aawgd.ThrowingProgram
import Mathlib.Logic.Function.Basic

/-! What every complete trace of a program comes to, and threads that run programs on one
cell: if each of them by itself puts the cell back, they do so in any order of their calls. -/
namespace CallProgram
variable {C : Type} {R : C → Type} {ε α β γ : Type}

/-- Q holds of every complete trace of legal events and of its result. -/
def Ensures (legal : Event C R → Prop) (p : CallProgram C R α)
    (Q : List (Event C R) → α → Prop) : Prop :=
  ∀ tr a, Traces p tr (some a) → (∀ ev ∈ tr, legal ev) → Q tr a

section rules
variable {legal : Event C R → Prop} {p : CallProgram C R α}

theorem Ensures.mono {Q Q' : List (Event C R) → α → Prop} (h : p.Ensures legal Q)
    (hQ : ∀ tr a, Q tr a → Q' tr a) : p.Ensures legal Q' :=
  fun tr a htr hlegal => hQ tr a (h tr a htr hlegal)

theorem Ensures.of_legal {legal' : Event C R → Prop} {Q : List (Event C R) → α → Prop}
    (h : p.Ensures legal Q) (hl : ∀ ev, legal' ev → legal ev) : p.Ensures legal' Q :=
  fun tr a htr hlegal => h tr a htr fun ev hev => hl ev (hlegal ev hev)

theorem ensures_ret {a : α} {Q : List (Event C R) → α → Prop} :
    (ret a : CallProgram C R α).Ensures legal Q ↔ Q [] a := by
  refine ⟨fun h => h [] a (.ret a) (by simp), fun h tr b htr _ => ?_⟩
  obtain ⟨rfl, hb⟩ := traces_done htr
  rw [hb b rfl]
  exact h

theorem ensures_call {c : C} {k : R c → CallProgram C R α} {Q : List (Event C R) → α → Prop} :
    (call c k).Ensures legal Q ↔
      ∀ r, legal ⟨c, r⟩ → (k r).Ensures legal fun tr a => Q (⟨c, r⟩ :: tr) a := by
  constructor
  · intro h r hr tr a htr hlegal
    exact h _ a (.call c k r htr) (List.forall_mem_cons.mpr ⟨hr, hlegal⟩)
  · intro h tr a htr hlegal
    cases htr with
    | call c k r tail =>
      obtain ⟨hr, hrest⟩ := List.forall_mem_cons.mp hlegal
      exact h r hr _ a tail hrest

theorem Ensures.bind {f : α → CallProgram C R β} {Q : List (Event C R) → α → Prop}
    {Q' : List (Event C R) → β → Prop} (hp : p.Ensures legal Q)
    (hf : ∀ tr a, Q tr a → (f a).Ensures legal fun tr' b => Q' (tr ++ tr') b) :
    (p >>= f).Ensures legal Q' := by
  intro tr b h hlegal
  obtain ⟨a, tr₁, tr₂, rfl, h₁, h₂⟩ := traces_bind_some h
  obtain ⟨hlegal₁, hlegal₂⟩ := List.forall_mem_append.mp hlegal
  exact hf tr₁ a (hp tr₁ a h₁ hlegal₁) tr₂ b h₂ hlegal₂

/-- A sequence that may throw: its first part throws, or is followed by the second. -/
theorem Ensures.throwing {p : ExceptT ε (CallProgram C R) α}
    {f : α → ExceptT ε (CallProgram C R) β} {Q : List (Event C R) → Except ε α → Prop}
    {Q' : List (Event C R) → Except ε β → Prop} (hp : Ensures legal p.run Q)
    (herror : ∀ tr e, Q tr (.error e) → Q' tr (.error e))
    (hok : ∀ tr a, Q tr (.ok a) → Ensures legal (f a).run fun tr' b => Q' (tr ++ tr') b) :
    Ensures legal (p >>= f).run Q' := by
  rw [ThrowingProgram.run_bind]
  refine hp.bind fun tr r hr => ?_
  cases r with
  | ok a => exact hok tr a hr
  | error e => exact ensures_ret.mpr (by simpa using herror tr e hr)

end rules

/-! A cell that some of the events store a value in -/

section cell
variable {V : Type} (writes : Event C R → Option V)

/-- The value in the cell after the events. -/
def stored (v : V) : List (Event C R) → V
  | [] => v
  | ev :: tr => stored ((writes ev).getD v) tr

@[simp] theorem stored_nil (v : V) : stored writes v ([] : List (Event C R)) = v := rfl

@[simp] theorem stored_cons (v : V) (ev : Event C R) (tr : List (Event C R)) :
    stored writes v (ev :: tr) = stored writes ((writes ev).getD v) tr := rfl

@[simp] theorem stored_append (v : V) (tr tr' : List (Event C R)) :
    stored writes v (tr ++ tr') = stored writes (stored writes v tr) tr' := by
  induction tr generalizing v with
  | nil => rfl
  | cons ev tr ih => exact ih _

theorem stored_of_silent (v : V) {tr : List (Event C R)} (h : ∀ ev ∈ tr, writes ev = none) :
    stored writes v tr = v := by
  induction tr with
  | nil => rfl
  | cons ev tr ih =>
    obtain ⟨hev, htr⟩ := List.forall_mem_cons.mp h
    rw [stored_cons, hev]
    exact ih htr

/-- Events leave the cell alone or their last write decides. -/
theorem stored_cases (tr : List (Event C R)) :
    (∀ v, stored writes v tr = v) ∨ ∃ w, ∀ v, stored writes v tr = w := by
  induction tr with
  | nil => exact .inl fun _ => rfl
  | cons ev tr ih =>
    obtain hid | ⟨w, hw⟩ := ih
    · cases hev : writes ev with
      | none => exact .inl fun v => by rw [stored_cons, hev, Option.getD_none, hid]
      | some w => exact .inr ⟨w, fun v => by rw [stored_cons, hev, Option.getD_some, hid]⟩
    · exact .inr ⟨w, fun v => by rw [stored_cons, hw]⟩

variable (legal : Event C R → Prop) (rest : V)

/-- A cell at rest is at rest again when the program is done. -/
def Leaves (p : CallProgram C R α) : Prop :=
  p.Ensures legal fun tr _ => stored writes rest tr = rest

/-- The cell is at rest when the program is done, whatever was in it. -/
def Restores (p : CallProgram C R α) : Prop :=
  p.Ensures legal fun tr _ => ∀ v, stored writes v tr = rest

variable {writes legal rest} {p : CallProgram C R α}

theorem Restores.leaves (h : Restores writes legal rest p) : Leaves writes legal rest p :=
  h.mono fun _ _ hv => hv rest

theorem Leaves.bind {f : α → CallProgram C R β} (hp : Leaves writes legal rest p)
    (hf : ∀ a, Leaves writes legal rest (f a)) : Leaves writes legal rest (p >>= f) :=
  Ensures.bind hp fun tr a htr => (hf a).mono fun tr' _ htr' => by
    rw [stored_append, htr, htr']

theorem Restores.after {f : α → CallProgram C R β} (hf : ∀ a, Restores writes legal rest (f a)) :
    Restores writes legal rest (p >>= f) := by
  have hp : p.Ensures legal fun _ _ => True := fun _ _ _ _ => trivial
  exact hp.bind fun tr a _ => (hf a).mono fun tr' _ htr' v => by rw [stored_append, htr']

theorem Restores.bind {f : α → CallProgram C R β} (hp : Restores writes legal rest p)
    (hf : ∀ a, Leaves writes legal rest (f a)) : Restores writes legal rest (p >>= f) :=
  Ensures.bind hp fun tr a htr => (hf a).mono fun tr' _ htr' v => by
    rw [stored_append, htr, htr']

/-- A sequence whose first part does not throw restores what its second part restores. -/
theorem Restores.throwing {p : ExceptT ε (CallProgram C R) α}
    {f : α → ExceptT ε (CallProgram C R) β} (hp : Ensures legal p.run fun _ r => r.isOk = true)
    (hf : ∀ a, Restores writes legal rest (f a).run) : Restores writes legal rest (p >>= f).run :=
  hp.throwing (fun _ _ h => nomatch h) fun tr a _ => (hf a).mono fun tr' _ htr' v => by
    rw [stored_append, htr']

theorem leaves_ret (a : α) : Leaves writes legal rest (ret a : CallProgram C R α) :=
  ensures_ret.mpr rfl

theorem leaves_forM {f : γ → CallProgram C R PUnit} {xs : List γ}
    (hf : ∀ x, Leaves writes legal rest (f x)) : Leaves writes legal rest (xs.forM f) := by
  induction xs with
  | nil => exact leaves_ret _
  | cons x xs ih => exact (hf x).bind fun _ => ih

theorem leaves_of_only {q : C → Prop} (hp : p.Only q)
    (hq : ∀ ev, q ev.1 → legal ev → writes ev = none) : Leaves writes legal rest p := by
  intro tr a h hlegal
  exact stored_of_silent writes rest fun ev hev => hq ev (hp.traces h ev hev) (hlegal ev hev)

/-- After a legal call the rest of the program leaves the cell in order as well. -/
theorem Leaves.answered {c : C} {k : R c → CallProgram C R α}
    (h : Leaves writes legal rest (.call c k)) {r : R c} (hr : legal ⟨c, r⟩) :
    Leaves writes legal rest (k r) := by
  intro tr a htr hlegal
  have hcall : stored writes rest (⟨c, r⟩ :: tr) = rest := ensures_call.mp h r hr tr a htr hlegal
  obtain hid | ⟨w, hw⟩ := stored_cases writes tr
  · exact hid rest
  · rw [stored_cons, hw] at hcall
    exact (hw rest).trans hcall

/-- A call that disturbs the cell leaves the rest of the program to put it back. -/
theorem Leaves.restores {c : C} {k : R c → CallProgram C R α}
    (h : Leaves writes legal rest (.call c k)) {r : R c} (hr : legal ⟨c, r⟩) {w : V}
    (hw : writes ⟨c, r⟩ = some w) (hne : w ≠ rest) : Restores writes legal rest (k r) := by
  intro tr a htr hlegal v
  have hcall : stored writes rest (⟨c, r⟩ :: tr) = rest := ensures_call.mp h r hr tr a htr hlegal
  rw [stored_cons, hw, Option.getD_some] at hcall
  obtain hid | ⟨u, hu⟩ := stored_cases writes tr
  · exact absurd ((hid w).symm.trans hcall) hne
  · exact (hu v).trans ((hu w).symm.trans hcall)

theorem Restores.answered {c : C} {k : R c → CallProgram C R α}
    (h : Restores writes legal rest (.call c k)) {r : R c} (hr : legal ⟨c, r⟩)
    (hw : writes ⟨c, r⟩ = none) : Restores writes legal rest (k r) := by
  intro tr a htr hlegal v
  have hcall : stored writes v (⟨c, r⟩ :: tr) = rest := ensures_call.mp h r hr tr a htr hlegal v
  rwa [stored_cons, hw, Option.getD_none] at hcall

theorem not_restores_ret [Nontrivial V] (a : α) :
    ¬ Restores writes legal rest (ret a : CallProgram C R α) := by
  intro h
  obtain ⟨v, hv⟩ := exists_ne rest
  exact hv (h [] a (.ret a) (by simp) v)

end cell

/-! Threads -/

/-- What is left of a program when its next call gets an answer. -/
def answered? [DecidableEq C] : CallProgram C R α → Event C R → Option (CallProgram C R α)
  | .ret _, _ => none
  | .call c k, ev => if h : ev.1 = c then some (k (h ▸ ev.2)) else none

theorem answered?_some [DecidableEq C] {p q : CallProgram C R α} {ev : Event C R} :
    p.answered? ev = some q ↔ ∃ k, p = .call ev.1 k ∧ k ev.2 = q := by
  cases p with
  | ret a => simp [answered?]
  | call c k =>
    obtain ⟨c', r⟩ := ev
    by_cases hc : c' = c
    · subst hc
      simp [answered?]
    · simp [answered?, hc, Ne.symm hc]

section threads
variable {ι V : Type}

/-- Every thread would leave the cell at rest, and it is at rest or some thread has to put
it back. -/
structure Tended (writes : Event C R → Option V) (legal : Event C R → Prop) (rest : V)
    (threads : ι → CallProgram C R α) (v : V) : Prop where
  leaves : ∀ i, Leaves writes legal rest (threads i)
  due : v = rest ∨ ∃ i, Restores writes legal rest (threads i)

variable {writes : Event C R → Option V} {legal : Event C R → Prop} {rest : V}
  {threads : ι → CallProgram C R α} {v : V}

theorem Tended.answered [DecidableEq ι] (h : Tended writes legal rest threads v) {i : ι}
    {ev : Event C R} {k : R ev.1 → CallProgram C R α} (hi : threads i = .call ev.1 k)
    (hlegal : legal ev) :
    Tended writes legal rest (Function.update threads i (k ev.2)) ((writes ev).getD v) := by
  have hcall := hi ▸ h.leaves i
  refine ⟨fun j => ?_, ?_⟩
  · by_cases hj : j = i
    · subst hj
      rw [Function.update_self]
      exact hcall.answered hlegal
    · rw [Function.update_of_ne hj]
      exact h.leaves j
  · cases hw : writes ev with
    | some w =>
      by_cases hrest : w = rest
      · exact .inl hrest
      · refine .inr ⟨i, ?_⟩
        rw [Function.update_self]
        exact hcall.restores hlegal hw hrest
    | none =>
      obtain hv | ⟨j, hj⟩ := h.due
      · exact .inl hv
      · refine .inr ⟨j, ?_⟩
        by_cases hji : j = i
        · subst hji
          rw [Function.update_self]
          exact (hi ▸ hj).answered hlegal hw
        · rwa [Function.update_of_ne hji]

/-- A thread that has nothing left to do gets a new program. -/
theorem Tended.spawn [DecidableEq ι] [Nontrivial V] (h : Tended writes legal rest threads v)
    {i : ι} {a : α} (hi : threads i = .ret a) {p : CallProgram C R α}
    (hp : Leaves writes legal rest p) :
    Tended writes legal rest (Function.update threads i p) v := by
  refine ⟨fun j => ?_, h.due.imp_right fun ⟨j, hj⟩ => ⟨j, ?_⟩⟩
  · by_cases hj : j = i
    · subst hj
      rwa [Function.update_self]
    · rw [Function.update_of_ne hj]
      exact h.leaves j
  · have hji : j ≠ i := by
      rintro rfl
      exact not_restores_ret a (hi ▸ hj)
    rwa [Function.update_of_ne hji]

/-- When all threads are done the cell is at rest. -/
theorem Tended.done [Nontrivial V] (h : Tended writes legal rest threads v)
    (hdone : ∀ i, ∃ a, threads i = .ret a) : v = rest := by
  obtain hv | ⟨i, hi⟩ := h.due
  · exact hv
  · obtain ⟨a, ha⟩ := hdone i
    exact absurd (ha ▸ hi) (not_restores_ret a)

end threads

end CallProgram
