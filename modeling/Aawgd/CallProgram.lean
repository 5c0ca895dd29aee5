import Mathlib.Data.List.Basic

/-! Programs that call an environment, as decision trees over its answers. One
program has two readings: a run against a stateful environment, and the set of
all traces it can produce whatever the environment answers. -/

/-- A finished value, or a call and what is done with each possible answer. -/
inductive CallProgram (C : Type) (R : C → Type) (α : Type) where
  | ret (a : α)
  | call (c : C) (k : R c → CallProgram C R α)

namespace CallProgram
variable {C : Type} {R : C → Type} {α β σ : Type}

/-- A call together with the answer it got. -/
abbrev Event (C : Type) (R : C → Type) := (c : C) × R c

protected def bind : CallProgram C R α → (α → CallProgram C R β) → CallProgram C R β
  | .ret a, f => f a
  | .call c k, f => .call c fun r => (k r).bind f

instance : Monad (CallProgram C R) where
  pure := .ret
  bind := CallProgram.bind

/-- The program of a single call. -/
def perform (c : C) : CallProgram C R (R c) := .call c .ret

@[simp] theorem pure_eq (a : α) : (pure a : CallProgram C R α) = .ret a := rfl
@[simp] theorem ret_bind (a : α) (f : α → CallProgram C R β) : (.ret a >>= f) = f a := rfl
@[simp] theorem call_bind (c : C) (k : R c → CallProgram C R α) (f : α → CallProgram C R β) :
    (.call c k >>= f) = .call c fun r => k r >>= f := rfl
@[simp] theorem perform_bind (c : C) (f : R c → CallProgram C R β) :
    (perform c >>= f) = .call c f := rfl

/-- `while` with a bound on the number of rounds: the body gives the next loop
state, or nothing when it breaks. The result tells whether the loop was left. -/
def loop (body : β → CallProgram C R (Option β)) : Nat → β → CallProgram C R Bool
  | 0, _ => .ret false
  | n+1, b => body b >>= fun
    | none => .ret true
    | some b' => loop body n b'

/-! Runs against an environment that answers every call and keeps a state. -/

structure Outcome (C : Type) (R : C → Type) (σ α : Type) where
  value : α
  state : σ
  trace : List (Event C R)

def run (env : σ → (c : C) → R c × σ) : CallProgram C R α → σ → Outcome C R σ α
  | .ret a, s => ⟨a, s, []⟩
  | .call c k, s =>
    let o := run env (k (env s c).1) (env s c).2
    ⟨o.value, o.state, ⟨c, (env s c).1⟩ :: o.trace⟩

@[simp] theorem run_ret (env : σ → (c : C) → R c × σ) (a : α) (s : σ) :
    run env (.ret a) s = ⟨a, s, []⟩ := rfl

@[simp] theorem run_call (env : σ → (c : C) → R c × σ) (c : C)
    (k : R c → CallProgram C R α) (s : σ) :
    run env (.call c k) s = ⟨(run env (k (env s c).1) (env s c).2).value,
      (run env (k (env s c).1) (env s c).2).state,
      ⟨c, (env s c).1⟩ :: (run env (k (env s c).1) (env s c).2).trace⟩ := rfl

theorem run_bind (env : σ → (c : C) → R c × σ) (p : CallProgram C R α)
    (f : α → CallProgram C R β) (s : σ) :
    run env (p >>= f) s = ⟨(run env (f (run env p s).value) (run env p s).state).value,
      (run env (f (run env p s).value) (run env p s).state).state,
      (run env p s).trace ++ (run env (f (run env p s).value) (run env p s).state).trace⟩ := by
  induction p generalizing s with
  | ret a => rfl
  | call c k ih => simp [ih]

/-! All traces. An outcome `none` is an execution watched only up to some call. -/

inductive Traces : CallProgram C R α → List (Event C R) → Option α → Prop
  | stop (p : CallProgram C R α) : Traces p [] none
  | ret (a : α) : Traces (.ret a) [] (some a)
  | call (c : C) (k : R c → CallProgram C R α) (r : R c) {tr : List (Event C R)} {o : Option α}
      (tail : Traces (k r) tr o) : Traces (.call c k) (⟨c, r⟩ :: tr) o

theorem traces_ret {a : α} {tr : List (Event C R)} {o : Option α} :
    Traces (.ret a) tr o ↔ tr = [] ∧ (o = none ∨ o = some a) := by
  constructor
  · intro h
    cases h <;> simp
  · rintro ⟨rfl, rfl | rfl⟩
    · exact .stop _
    · exact .ret a

/-- A program that is done returns its value, if it gets to. -/
theorem traces_done {a : α} {tr : List (Event C R)} {o : Option α} (h : Traces (.ret a) tr o) :
    tr = [] ∧ ∀ v, o = some v → v = a := by
  obtain ⟨htr, ho⟩ := traces_ret.mp h
  refine ⟨htr, fun v hv => ?_⟩
  obtain rfl | rfl := ho
  · cases hv
  · exact (Option.some.inj hv).symm

theorem traces_call {c : C} {k : R c → CallProgram C R α} {tr : List (Event C R)}
    {o : Option α} : Traces (.call c k) tr o ↔
      (tr = [] ∧ o = none) ∨ ∃ r tr', tr = ⟨c, r⟩ :: tr' ∧ Traces (k r) tr' o := by
  constructor
  · intro h
    cases h with
    | stop => exact .inl ⟨rfl, rfl⟩
    | call c k r tail => exact .inr ⟨r, _, rfl, tail⟩
  · rintro (⟨rfl, rfl⟩ | ⟨r, tr', rfl, h⟩)
    · exact .stop _
    · exact .call c k r h

/-- A trace of a sequence stops in the first part or crosses into the second. -/
theorem traces_bind {p : CallProgram C R α} {f : α → CallProgram C R β}
    {tr : List (Event C R)} {o : Option β} (h : Traces (p >>= f) tr o) :
    (o = none ∧ Traces p tr none) ∨
      ∃ a tr₁ tr₂, tr = tr₁ ++ tr₂ ∧ Traces p tr₁ (some a) ∧ Traces (f a) tr₂ o := by
  induction p generalizing tr with
  | ret a => exact .inr ⟨a, [], tr, rfl, .ret a, h⟩
  | call c k ih =>
    obtain ⟨rfl, rfl⟩ | ⟨r, tr', rfl, h'⟩ := traces_call.mp h
    · exact .inl ⟨rfl, .stop _⟩
    · obtain ⟨rfl, ht⟩ | ⟨a, tr₁, tr₂, rfl, h₁, h₂⟩ := ih r h'
      · exact .inl ⟨rfl, .call c k r ht⟩
      · exact .inr ⟨a, ⟨c, r⟩ :: tr₁, tr₂, rfl, .call c k r h₁, h₂⟩

theorem traces_bind_some {p : CallProgram C R α} {f : α → CallProgram C R β}
    {tr : List (Event C R)} {b : β} (h : Traces (p >>= f) tr (some b)) :
    ∃ a tr₁ tr₂, tr = tr₁ ++ tr₂ ∧ Traces p tr₁ (some a) ∧ Traces (f a) tr₂ (some b) := by
  cases traces_bind h with
  | inl h₀ => exact absurd h₀.1 (by simp)
  | inr h₁ => exact h₁

theorem Traces.bind {p : CallProgram C R α} {f : α → CallProgram C R β} {a : α}
    {tr₁ tr₂ : List (Event C R)} {o : Option β} (h₁ : Traces p tr₁ (some a))
    (h₂ : Traces (f a) tr₂ o) : Traces (p >>= f) (tr₁ ++ tr₂) o := by
  induction p generalizing tr₁ with
  | ret b =>
    cases h₁
    exact h₂
  | call c k ih =>
    cases h₁ with
    | call c k r tail => exact .call c _ r (ih r tail)

theorem Traces.bind_stop {p : CallProgram C R α} (f : α → CallProgram C R β)
    {tr : List (Event C R)} {o : Option α} (h : Traces p tr o) : Traces (p >>= f) tr none := by
  induction h with
  | stop | ret => exact .stop _
  | call c k r tail ih => exact .call c _ r ih

/-- Loop rule: what holds of the empty trace and of every last round, and is kept
by putting a full round in front, holds of every trace of the loop. -/
theorem traces_loop {body : β → CallProgram C R (Option β)} {P : List (Event C R) → Prop}
    (hnil : P [])
    (hlast : ∀ b tr o, Traces (body b) tr o → (∀ b', o ≠ some (some b')) → P tr)
    (hround : ∀ b b' tr₁ tr₂, Traces (body b) tr₁ (some (some b')) → P tr₂ → P (tr₁ ++ tr₂))
    {n : Nat} {b : β} {tr : List (Event C R)} {o : Option Bool}
    (h : Traces (loop body n b) tr o) : P tr := by
  induction n generalizing b tr with
  | zero =>
    obtain ⟨rfl, -⟩ := traces_ret.mp h
    exact hnil
  | succ n ih =>
    obtain ⟨-, ht⟩ | ⟨a, tr₁, tr₂, rfl, h₁, h₂⟩ := traces_bind h
    · exact hlast b tr none ht (by simp)
    · cases a with
      | none =>
        obtain ⟨rfl, -⟩ := traces_ret.mp h₂
        simpa using hlast b tr₁ _ h₁ (by simp)
      | some b' => exact hround b b' tr₁ tr₂ h₁ (ih h₂)

/-- All calls the program can make, whatever is answered, satisfy q. -/
def Only (q : C → Prop) : CallProgram C R α → Prop
  | .ret _ => True
  | .call c k => q c ∧ ∀ r, (k r).Only q

theorem Only.bind {q : C → Prop} {p : CallProgram C R α} {f : α → CallProgram C R β}
    (hp : p.Only q) (hf : ∀ a, (f a).Only q) : (p >>= f).Only q := by
  induction p with
  | ret a => exact hf a
  | call c k ih => exact ⟨hp.1, fun r => ih r (hp.2 r)⟩

theorem Only.forM {q : C → Prop} {f : β → CallProgram C R PUnit} {xs : List β}
    (hf : ∀ x ∈ xs, (f x).Only q) : (xs.forM f).Only q := by
  induction xs with
  | nil => trivial
  | cons x xs ih =>
    have hrest := ih fun x' hx' => hf x' (List.mem_cons_of_mem x hx')
    exact (hf x List.mem_cons_self).bind fun _ => hrest

theorem only_loop {q : C → Prop} {body : β → CallProgram C R (Option β)}
    (hbody : ∀ b, (body b).Only q) (n : Nat) (b : β) : (loop body n b).Only q := by
  induction n generalizing b with
  | zero => trivial
  | succ n ih =>
    refine (hbody b).bind fun next => ?_
    cases next with
    | none => trivial
    | some b' => exact ih b'

theorem Only.mono {q q' : C → Prop} {p : CallProgram C R α} (hp : p.Only q)
    (h : ∀ c, q c → q' c) : p.Only q' := by
  induction p with
  | ret a => trivial
  | call c k ih => exact ⟨h c hp.1, fun r => ih r (hp.2 r)⟩

theorem Only.traces {q : C → Prop} {p : CallProgram C R α} {tr : List (Event C R)}
    {o : Option α} (hp : p.Only q) (h : Traces p tr o) : ∀ ev ∈ tr, q ev.1 := by
  induction h with
  | stop | ret => simp
  | call c k r tail ih =>
    intro ev hev
    cases List.mem_cons.mp hev with
    | inl he => exact he ▸ hp.1
    | inr ht => exact ih (hp.2 r) ev ht

/-- The program makes at most n calls, whatever is answered. -/
def Calls : Nat → CallProgram C R α → Prop
  | _, .ret _ => True
  | 0, .call _ _ => False
  | n + 1, .call _ k => ∀ r, Calls n (k r)

@[simp] theorem calls_ret (n : Nat) (a : α) : (ret a : CallProgram C R α).Calls n := by
  cases n <;> trivial

theorem Calls.mono {n m : Nat} {p : CallProgram C R α} (hp : p.Calls n) (h : n ≤ m) :
    p.Calls m := by
  induction p generalizing n m with
  | ret a => simp
  | call c k ih =>
    cases n with
    | zero => cases hp
    | succ n =>
      obtain ⟨m, rfl⟩ := Nat.exists_eq_add_of_lt (Nat.lt_of_succ_le h)
      exact fun r => ih r (hp r) (by omega)

theorem Calls.bind {n m : Nat} {p : CallProgram C R α} {f : α → CallProgram C R β}
    (hp : p.Calls n) (hf : ∀ a, (f a).Calls m) : (p >>= f).Calls (n + m) := by
  induction p generalizing n with
  | ret a => exact (hf a).mono (by omega)
  | call c k ih =>
    cases n with
    | zero => cases hp
    | succ n =>
      rw [Nat.succ_add]
      exact fun r => ih r (hp r)

/-- A loop that was left is left after the same calls when more rounds are granted. -/
theorem traces_loop_more {body : β → CallProgram C R (Option β)} {n m : Nat} (hnm : n ≤ m) {b : β}
    {tr : List (Event C R)} (h : Traces (loop body n b) tr (some true)) :
    Traces (loop body m b) tr (some true) := by
  induction n generalizing m b tr with
  | zero => cases h
  | succ n ih =>
    obtain ⟨m, rfl⟩ := Nat.exists_eq_add_of_lt hnm
    obtain ⟨next, tr₁, tr₂, rfl, h₁, h₂⟩ := traces_bind_some h
    refine Traces.bind h₁ ?_
    cases next with
    | none => exact h₂
    | some b' => exact ih (by omega) h₂

/-! What is left of a program after a trace. -/

inductive Reaches : CallProgram C R α → List (Event C R) → CallProgram C R α → Prop
  | here (p : CallProgram C R α) : Reaches p [] p
  | call (c : C) (k : R c → CallProgram C R α) (r : R c) {tr : List (Event C R)}
      {q : CallProgram C R α} (tail : Reaches (k r) tr q) : Reaches (.call c k) (⟨c, r⟩ :: tr) q

theorem Reaches.snoc {p : CallProgram C R α} {tr : List (Event C R)} {c : C}
    {k : R c → CallProgram C R α} (h : Reaches p tr (.call c k)) (r : R c) :
    Reaches p (tr ++ [⟨c, r⟩]) (k r) := by
  generalize hq : CallProgram.call c k = q at h
  induction h with
  | here p =>
    subst hq
    exact .call c k r (.here _)
  | call c' k' r' tail ih => exact .call c' k' r' (ih hq)

theorem Reaches.traces {p q : CallProgram C R α} {tr tr' : List (Event C R)} {o : Option α}
    (h : Reaches p tr q) (ht : Traces q tr' o) : Traces p (tr ++ tr') o := by
  induction h with
  | here p => exact ht
  | call c k r tail ih => exact .call c k r (ih ht)

/-- What is left where the program has returned is its value. -/
theorem Reaches.eq_ret {p q : CallProgram C R α} {tr : List (Event C R)} {a : α}
    (h : Reaches p tr q) (ht : Traces p tr (some a)) : q = .ret a := by
  induction h with
  | here p =>
    cases ht
    rfl
  | call c k r tail ih =>
    cases ht with
    | call _ _ _ rest => exact ih rest

theorem Reaches.only {s : C → Prop} {p q : CallProgram C R α} {tr : List (Event C R)}
    (h : Reaches p tr q) (hp : p.Only s) : q.Only s := by
  induction h with
  | here p => exact hp
  | call c k r tail ih => exact ih (hp.2 r)

theorem Reaches.calls {n : Nat} {p q : CallProgram C R α} {tr : List (Event C R)}
    (h : Reaches p tr q) (hp : p.Calls n) : q.Calls n := by
  induction h generalizing n with
  | here p => exact hp
  | call c k r tail ih =>
    cases n with
    | zero => cases hp
    | succ n => exact (ih (hp r)).mono (Nat.le_succ n)

/-! Answers that are not looked at. -/

/-- What the program does after a call in q is the same whatever is answered. -/
def Ignores (q : C → Prop) : CallProgram C R α → Prop
  | .ret _ => True
  | .call c k => (q c → ∀ r r', k r = k r') ∧ ∀ r, (k r).Ignores q

theorem Ignores.bind {q : C → Prop} {p : CallProgram C R α} {f : α → CallProgram C R β}
    (hp : p.Ignores q) (hf : ∀ a, (f a).Ignores q) : (p >>= f).Ignores q := by
  induction p with
  | ret a => exact hf a
  | call c k ih =>
    exact ⟨fun hq r r' => congrArg (fun p => p >>= f) (hp.1 hq r r'), fun r => ih r (hp.2 r)⟩

/-- Two environments that differ in these answers alone: the result is the same, and so is
whatever is seen of the run without them. -/
theorem Ignores.run_eq {τ γ : Type} {q : C → Prop} {env : σ → (c : C) → R c × σ}
    {env' : τ → (c : C) → R c × τ} {view : Event C R → List γ} {S : σ → τ → Prop}
    (hview : ∀ c, q c → ∀ r r', view ⟨c, r⟩ = view ⟨c, r'⟩)
    (hnext : ∀ s t c, S s t → S (env s c).2 (env' t c).2)
    (hsame : ∀ s t c, S s t → ¬ q c → (env s c).1 = (env' t c).1)
    {p : CallProgram C R α} (hp : p.Ignores q) {s : σ} {t : τ} (h : S s t) :
    (run env p s).value = (run env' p t).value ∧ S (run env p s).state (run env' p t).state ∧
      (run env p s).trace.flatMap view = (run env' p t).trace.flatMap view := by
  induction p generalizing s t with
  | ret a => exact ⟨rfl, h, rfl⟩
  | call c k ih =>
    have hcont : k (env' t c).1 = k (env s c).1 := by
      by_cases hq : q c
      · exact hp.1 hq _ _
      · rw [hsame s t c h hq]
    have hseen : view ⟨c, (env s c).1⟩ = view ⟨c, (env' t c).1⟩ := by
      by_cases hq : q c
      · exact hview c hq _ _
      · rw [hsame s t c h hq]
    obtain ⟨hvalue, hstate, hrest⟩ := ih (env s c).1 (hp.2 _) (hnext s t c h)
    rw [run_call, run_call, hcont]
    refine ⟨hvalue, hstate, ?_⟩
    rw [List.flatMap_cons, List.flatMap_cons, hseen, hrest]

/-! A program seen through another signature, its calls renamed and the answers taken back. -/

def relabel {D : Type} {S : D → Type} (f : C → D) (g : (c : C) → S (f c) → R c) :
    CallProgram C R α → CallProgram D S α
  | .ret a => .ret a
  | .call c k => .call (f c) fun r => (k (g c r)).relabel f g

/-! Refinement: what one program does another does too, with its result mapped. -/

theorem Traces.cut {p : CallProgram C R α} {tr : List (Event C R)} {o : Option α}
    (h : Traces p tr o) : Traces p tr none := by
  induction h with
  | stop | ret => exact .stop _
  | call c k r tail ih => exact .call c k r ih

def Refines (f : α → β) (p : CallProgram C R α) (q : CallProgram C R β) : Prop :=
  ∀ tr o, Traces p tr o → Traces q tr (o.map f)

theorem Refines.ret (f : α → β) (a : α) : Refines f (.ret a : CallProgram C R α) (.ret (f a)) := by
  intro tr o h
  cases h with
  | stop => exact .stop _
  | ret => exact .ret _

theorem Refines.call {f : α → β} {c : C} {k : R c → CallProgram C R α}
    {k' : R c → CallProgram C R β} (h : ∀ r, Refines f (k r) (k' r)) :
    Refines f (.call c k) (.call c k') := by
  intro tr o ht
  cases ht with
  | stop => exact .stop _
  | call c k r tail => exact .call c k' r (h r _ _ tail)

theorem Refines.bind {α' β' : Type} {f : α → α'} {g : β → β'} {p : CallProgram C R α}
    {q : CallProgram C R α'} {k : α → CallProgram C R β} {k' : α' → CallProgram C R β'}
    (hp : Refines f p q) (hk : ∀ a, Refines g (k a) (k' (f a))) :
    Refines g (p >>= k) (q >>= k') := by
  intro tr o h
  obtain ⟨rfl, h₁⟩ | ⟨a, tr₁, tr₂, rfl, h₁, h₂⟩ := traces_bind h
  · exact (hp tr none h₁).bind_stop k'
  · exact (hp tr₁ _ h₁).bind (hk a tr₂ o h₂)

/-- A run against an environment is one of the traces. -/
theorem run_traces (env : σ → (c : C) → R c × σ) (p : CallProgram C R α) (s : σ) :
    Traces p (run env p s).trace (some (run env p s).value) := by
  induction p generalizing s with
  | ret a => exact .ret a
  | call c k ih => exact .call c k _ (ih _ _)

end CallProgram
