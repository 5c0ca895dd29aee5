import Aawgd.CallProgram

/-! Programs that call an environment and may throw: how a sequence of them runs, and how
an execution ends when failed calls are not caught. -/
namespace ThrowingProgram
open CallProgram
variable {C : Type} {R : C → Type} {ε α β γ : Type}

theorem bind_ret (p : CallProgram C R α) : (p >>= .ret) = p := by
  induction p with
  | ret a => rfl
  | call c k ih => exact congrArg (call c) (funext ih)

theorem bind_bind (p : CallProgram C R α) (f : α → CallProgram C R β)
    (g : β → CallProgram C R γ) : (p >>= f >>= g) = p >>= fun a => f a >>= g := by
  induction p with
  | ret a => rfl
  | call c k ih => exact congrArg (call c) (funext ih)

instance : LawfulMonad (CallProgram C R) := LawfulMonad.mk' _
  bind_ret
  (fun a f => ret_bind a f)
  bind_bind

abbrev Throwing (C : Type) (R : C → Type) (ε α : Type) := ExceptT ε (CallProgram C R) α

theorem run_bind (p : Throwing C R ε α) (f : α → Throwing C R ε β) :
    (p >>= f).run = p.run >>= fun r =>
      match r with
      | .ok a => (f a).run
      | .error e => .ret (.error e) := by
  refine congrArg (bind p.run) (funext fun r => ?_)
  cases r <;> rfl

/-- A sequence is watched up to a call of its first part, or that part throws, or it crosses
into the second. -/
theorem throwing_bind {p : Throwing C R ε α} {f : α → Throwing C R ε β}
    {tr : List (Event C R)} {o : Option (Except ε β)} (h : Traces (p >>= f).run tr o) :
    (o = none ∧ Traces p.run tr none) ∨
    (∃ e, (o = none ∨ o = some (.error e)) ∧ Traces p.run tr (some (.error e))) ∨
    ∃ a tr₁ tr₂, tr = tr₁ ++ tr₂ ∧ Traces p.run tr₁ (some (.ok a)) ∧ Traces (f a).run tr₂ o := by
  rw [run_bind] at h
  obtain hstop | ⟨r, tr₁, tr₂, rfl, h₁, h₂⟩ := traces_bind h
  · exact .inl hstop
  · cases r with
    | ok a => exact .inr (.inr ⟨a, tr₁, tr₂, rfl, h₁, h₂⟩)
    | error e =>
      obtain ⟨rfl, ho⟩ := traces_ret.mp h₂
      rw [List.append_nil]
      exact .inr (.inl ⟨e, ho, h₁⟩)

/-! Calls -/

theorem only_bind {q : C → Prop} {p : Throwing C R ε α} {f : α → Throwing C R ε β}
    (hp : p.run.Only q) (hf : ∀ a, (f a).run.Only q) : (p >>= f).run.Only q := by
  rw [run_bind]
  refine hp.bind fun r => ?_
  cases r with
  | ok a => exact hf a
  | error e => trivial

theorem only_forM {q : C → Prop} {f : γ → Throwing C R ε Unit} {xs : List γ}
    (hf : ∀ x ∈ xs, (f x).run.Only q) : (xs.forM f).run.Only q := by
  induction xs with
  | nil => trivial
  | cons x xs ih =>
    have hrest := ih fun x' hx' => hf x' (List.mem_cons_of_mem x hx')
    exact only_bind (hf x List.mem_cons_self) fun _ => hrest

/-! What holds of every trace -/

def Always (P : List (Event C R) → Prop) (p : Throwing C R ε α) : Prop :=
  ∀ tr o, Traces p.run tr o → P tr

/-- What is kept when traces are put together holds of a sequence when it holds of its parts. -/
theorem Always.bind {P : List (Event C R) → Prop} (hP : ∀ tr tr', P tr → P tr' → P (tr ++ tr'))
    {p : Throwing C R ε α} {f : α → Throwing C R ε β} (hp : Always P p)
    (hf : ∀ a, Always P (f a)) : Always P (p >>= f) := by
  intro tr o h
  obtain ⟨-, h₁⟩ | ⟨e, -, h₁⟩ | ⟨a, tr₁, tr₂, rfl, h₁, h₂⟩ := throwing_bind h
  · exact hp tr _ h₁
  · exact hp tr _ h₁
  · exact hP tr₁ tr₂ (hp tr₁ _ h₁) (hf a tr₂ o h₂)

/-! Failures -/

/-- How an execution comes to its end where some events are failures that nobody catches:
with the first of them, or without any. -/
inductive Ends (fatal : Event C R → Option ε) : List (Event C R) → Option (Except ε α) → Prop
  | threw {before : List (Event C R)} {ev : Event C R} {e : ε} {o : Option (Except ε α)}
      (clean : ∀ x ∈ before, fatal x = none) (last : fatal ev = some e)
      (out : o = none ∨ o = some (.error e)) : Ends fatal (before ++ [ev]) o
  | went {tr : List (Event C R)} {o : Option (Except ε α)} (clean : ∀ x ∈ tr, fatal x = none)
      (out : ∀ e, o ≠ some (.error e)) : Ends fatal tr o

variable {fatal : Event C R → Option ε}

theorem Ends.prepend {tr₁ tr₂ : List (Event C R)} {o : Option (Except ε α)}
    (h₁ : ∀ x ∈ tr₁, fatal x = none) (h₂ : Ends fatal tr₂ o) : Ends fatal (tr₁ ++ tr₂) o := by
  cases h₂ with
  | threw clean last out =>
    rw [← List.append_assoc]
    refine .threw (fun x hx => ?_) last out
    exact (List.mem_append.mp hx).elim (h₁ x) (clean x)
  | went clean out =>
    exact .went (fun x hx => (List.mem_append.mp hx).elim (h₁ x) (clean x)) out

theorem Ends.ok {tr : List (Event C R)} {a : α} (h : Ends fatal tr (some (.ok a))) :
    ∀ x ∈ tr, fatal x = none := by
  cases h with
  | threw clean last out => simp at out
  | went clean out => exact clean

theorem Ends.error {tr : List (Event C R)} {e : ε} (h : Ends (α := α) fatal tr (some (.error e))) :
    ∃ before ev, tr = before ++ [ev] ∧ fatal ev = some e ∧ ∀ x ∈ before, fatal x = none := by
  cases h with
  | threw clean last out =>
    simp only [reduceCtorEq, Option.some.injEq, Except.error.injEq, false_or] at out
    exact ⟨_, _, rfl, out ▸ last, clean⟩
  | went clean out => exact absurd rfl (out e)

/-- A failure ends the program, and nothing else makes it throw. -/
def FailsLast (fatal : Event C R → Option ε) (p : Throwing C R ε α) : Prop :=
  ∀ tr o, Traces p.run tr o → Ends fatal tr o

/-- A single call whose answer is thrown or returned. -/
theorem failsLast_call {c : C} {k : R c → Except ε α}
    (herror : ∀ r e, k r = .error e → fatal ⟨c, r⟩ = some e)
    (hok : ∀ r a, k r = .ok a → fatal ⟨c, r⟩ = none) :
    FailsLast fatal (ExceptT.mk (.call c fun r => .ret (k r))) := by
  intro tr o h
  obtain ⟨rfl, rfl⟩ | ⟨r, tr', rfl, h'⟩ := traces_call.mp h
  · exact .went (by simp) (by simp)
  · obtain ⟨rfl, ho⟩ := traces_ret.mp h'
    cases hr : k r with
    | error e =>
      rw [hr] at ho
      exact List.nil_append [_] ▸ .threw (by simp) (herror r e hr) ho
    | ok a =>
      rw [hr] at ho
      refine .went (by simpa using hok r a hr) fun e => ?_
      obtain rfl | rfl := ho <;> simp

/-- A part that cannot throw, and in which nothing fails. -/
theorem failsLast_lift {p : CallProgram C R α}
    (hp : ∀ tr o, Traces p tr o → ∀ ev ∈ tr, fatal ev = none) :
    FailsLast fatal (ExceptT.lift p) := by
  intro tr o h
  rw [ExceptT.run_lift, map_eq_pure_bind] at h
  obtain ⟨rfl, h₁⟩ | ⟨a, tr₁, tr₂, rfl, h₁, h₂⟩ := traces_bind h
  · exact .went (hp tr _ h₁) (by simp)
  · obtain ⟨rfl, rfl | rfl⟩ := traces_ret.mp h₂
    · exact .went (by simpa using hp tr₁ _ h₁) (by simp)
    · exact .went (by simpa using hp tr₁ _ h₁) (by simp)

theorem FailsLast.pure (a : α) : FailsLast fatal (pure a : Throwing C R ε α) := by
  intro tr o h
  obtain ⟨rfl, rfl | rfl⟩ := traces_ret.mp h
  · exact .went (by simp) (by simp)
  · exact .went (by simp) (by simp)

theorem FailsLast.bind {p : Throwing C R ε α} {f : α → Throwing C R ε β}
    (hp : FailsLast fatal p) (hf : ∀ a, FailsLast fatal (f a)) : FailsLast fatal (p >>= f) := by
  intro tr o h
  obtain ⟨rfl, h₁⟩ | ⟨e, ho, h₁⟩ | ⟨a, tr₁, tr₂, rfl, h₁, h₂⟩ := throwing_bind h
  · cases hp tr none h₁ with
    | threw clean last out => exact .threw clean last (.inl rfl)
    | went clean out => exact .went clean (by simp)
  · obtain ⟨before, ev, rfl, hlast, hclean⟩ := (hp tr _ h₁).error
    exact .threw hclean hlast ho
  · exact .prepend (hp tr₁ _ h₁).ok (hf a tr₂ o h₂)

theorem FailsLast.forM {f : γ → Throwing C R ε Unit} {xs : List γ}
    (hf : ∀ x, FailsLast fatal (f x)) : FailsLast fatal (xs.forM f) := by
  induction xs with
  | nil => exact .pure ()
  | cons x xs ih => exact (hf x).bind fun _ => ih

/-! What a program shows of itself -/

/-- Seen through a view of its calls it shows this list: all of it when it returns, a first
part of it when it throws or is watched only so far. -/
def Shows (view : C → Option γ) (shown : List γ) (p : Throwing C R ε α) : Prop :=
  ∀ tr o, Traces p.run tr o → (tr.filterMap fun ev => view ev.1) <+: shown ∧
    ∀ a, o = some (.ok a) → (tr.filterMap fun ev => view ev.1) = shown

variable {view : C → Option γ}

theorem Shows.bind {shown₁ shown₂ : List γ} {p : Throwing C R ε α} {f : α → Throwing C R ε β}
    (hp : Shows view shown₁ p) (hf : ∀ a, Shows view shown₂ (f a)) :
    Shows view (shown₁ ++ shown₂) (p >>= f) := by
  intro tr o h
  obtain ⟨rfl, h₁⟩ | ⟨e, ho, h₁⟩ | ⟨a, tr₁, tr₂, rfl, h₁, h₂⟩ := throwing_bind h
  · exact ⟨(hp tr none h₁).1.trans (List.prefix_append _ _), by simp⟩
  · refine ⟨(hp tr _ h₁).1.trans (List.prefix_append _ _), fun b hb => ?_⟩
    obtain rfl | rfl := ho
    · cases hb
    · cases hb
  · rw [List.filterMap_append, (hp tr₁ _ h₁).2 a rfl]
    refine ⟨(List.prefix_append_right_inj shown₁).mpr (hf a tr₂ o h₂).1, fun b hb => ?_⟩
    rw [(hf a tr₂ o h₂).2 b hb]

theorem Shows.forM {shown : β → List γ} {f : β → Throwing C R ε Unit} {xs : List β}
    (hf : ∀ x, Shows view (shown x) (f x)) : Shows view (xs.flatMap shown) (xs.forM f) := by
  induction xs with
  | nil =>
    intro tr o h
    obtain ⟨rfl, -⟩ := traces_ret.mp h
    exact ⟨List.prefix_refl [], fun _ _ => rfl⟩
  | cons x xs ih => exact (hf x).bind fun _ => ih

/-- A single call whose answer is thrown or returned. -/
theorem shows_call {c : C} {k : R c → Except ε α} {x : γ} (h : view c = some x) :
    Shows view [x] (ExceptT.mk (.call c fun r => .ret (k r))) := by
  intro tr o ht
  obtain ⟨rfl, rfl⟩ | ⟨r, tr', rfl, h'⟩ := traces_call.mp ht
  · exact ⟨List.nil_prefix, by simp⟩
  · obtain ⟨rfl, -⟩ := traces_ret.mp h'
    have hseen : ([⟨c, r⟩] : List (Event C R)).filterMap (fun ev => view ev.1) = [x] :=
      List.filterMap_cons_some h
    exact ⟨hseen ▸ List.prefix_refl _, fun _ _ => hseen⟩

/-- Calls that are not seen. -/
theorem shows_nothing {q : C → Prop} {p : Throwing C R ε α} (hp : p.run.Only q)
    (h : ∀ c, q c → view c = none) : Shows view [] p := by
  intro tr o ht
  have hnone : (tr.filterMap fun ev => view ev.1) = [] :=
    List.filterMap_eq_nil_iff.mpr fun ev hev => h ev.1 (hp.traces ht ev hev)
  exact ⟨hnone ▸ List.nil_prefix, fun _ _ => hnone⟩

end ThrowingProgram
