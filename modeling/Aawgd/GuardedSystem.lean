import Mathlib.Data.List.Infix

/-! Guarded transition systems: an action may happen where its guard holds and
then has one effect. Runs are lists of actions; conditions are put on the state
before each step. Nothing here is about a particular system. -/

/-- A start state, when an action may happen, and what it does. -/
structure GuardedSystem (σ α : Type*) where
  init : σ
  guard : σ → α → Prop
  effect : σ → α → σ

namespace GuardedSystem
variable {σ α : Type*} (S : GuardedSystem σ α)

/-- The system of a partial step function: an action may happen where it has a result. -/
def ofStep (init : σ) (step : σ → α → Option σ) : GuardedSystem σ α where
  init := init
  guard s a := (step s a).isSome
  effect s a := (step s a).getD s

def after (s : σ) : List α → σ
  | [] => s
  | a :: as => after (S.effect s a) as

/-- Every action of the list is enabled where it happens. -/
def Legal (s : σ) : List α → Prop
  | [] => True
  | a :: as => S.guard s a ∧ Legal (S.effect s a) as

/-- Every step of the list meets a condition on the state before it. -/
def Meets (ok : σ → α → Prop) (s : σ) : List α → Prop
  | [] => True
  | a :: as => ok s a ∧ Meets ok (S.effect s a) as

instance decidableLegal [∀ s a, Decidable (S.guard s a)] :
    (s : σ) → (as : List α) → Decidable (S.Legal s as)
  | _, [] => .isTrue trivial
  | s, a :: as => @instDecidableAnd _ _ _ (decidableLegal (S.effect s a) as)

instance decidableMeets (ok : σ → α → Prop) [∀ s a, Decidable (ok s a)] :
    (s : σ) → (as : List α) → Decidable (S.Meets ok s as)
  | _, [] => .isTrue trivial
  | s, a :: as => @instDecidableAnd _ _ _ (decidableMeets ok (S.effect s a) as)

instance decidableGuardOfStep (init : σ) (step : σ → α → Option σ) (s : σ) (a : α) :
    Decidable ((ofStep init step).guard s a) :=
  inferInstanceAs (Decidable ((step s a).isSome = true))

theorem ofStep_effect {init : σ} {step : σ → α → Option σ} {s : σ} {a : α}
    (h : (ofStep init step).guard s a) : step s a = some ((ofStep init step).effect s a) := by
  obtain ⟨s', hs⟩ := Option.isSome_iff_exists.mp h
  simp [ofStep, hs]

theorem ofStep_some {init : σ} {step : σ → α → Option σ} {s s' : σ} {a : α}
    (h : step s a = some s') :
    (ofStep init step).guard s a ∧ (ofStep init step).effect s a = s' := by
  simp [ofStep, h]

variable {S}

theorem after_append (s : σ) (as bs : List α) :
    S.after s (as ++ bs) = S.after (S.after s as) bs := by
  induction as generalizing s with
  | nil => rfl
  | cons a as ih => exact ih (S.effect s a)

theorem legal_append (s : σ) (as bs : List α) :
    S.Legal s (as ++ bs) ↔ S.Legal s as ∧ S.Legal (S.after s as) bs := by
  induction as generalizing s with
  | nil => simp [Legal, after]
  | cons a as ih => simp [Legal, after, ih, and_assoc]

theorem meets_append {ok : σ → α → Prop} (s : σ) (as bs : List α) :
    S.Meets ok s (as ++ bs) ↔ S.Meets ok s as ∧ S.Meets ok (S.after s as) bs := by
  induction as generalizing s with
  | nil => simp [Meets, after]
  | cons a as ih => simp [Meets, after, ih, and_assoc]

/-- The rule for invariants of guarded runs. -/
theorem invariant {Inv : σ → Prop} {ok : σ → α → Prop}
    (hstep : ∀ s a, Inv s → S.guard s a → ok s a → Inv (S.effect s a))
    {s : σ} {as : List α} (h : Inv s) (hl : S.Legal s as) (hm : S.Meets ok s as) :
    Inv (S.after s as) := by
  induction as generalizing s with
  | nil => exact h
  | cons a as ih => exact ih (hstep s a h hl.1 hm.1) hl.2 hm.2

theorem meets_true (s : σ) (as : List α) : S.Meets (fun _ _ => True) s as := by
  induction as generalizing s with
  | nil => trivial
  | cons a as ih => exact ⟨trivial, ih (S.effect s a)⟩

/-- The rule for invariants of all runs. -/
theorem invariant_all {Inv : σ → Prop}
    (hstep : ∀ s a, Inv s → S.guard s a → Inv (S.effect s a))
    {s : σ} {as : List α} (h : Inv s) (hl : S.Legal s as) : Inv (S.after s as) :=
  invariant (fun s a hs hg (_ : True) => hstep s a hs hg) h hl (meets_true s as)

/-! What a run puts out, step by step -/

variable (S) in
def outputs {ε : Type*} (out : σ → α → List ε) (s : σ) : List α → List ε
  | [] => []
  | a :: as => out s a ++ outputs out (S.effect s a) as

theorem outputs_append {ε : Type*} (out : σ → α → List ε) (s : σ) (as bs : List α) :
    S.outputs out s (as ++ bs) = S.outputs out s as ++ S.outputs out (S.after s as) bs := by
  induction as generalizing s with
  | nil => rfl
  | cons a as ih =>
    simp only [List.cons_append, outputs, after, ih, List.append_assoc]

variable (S) in
/-- Some run puts this out and leads there. -/
def Performs {ε : Type*} (out : σ → α → List ε) (s : σ) (es : List ε) (s' : σ) : Prop :=
  ∃ as, S.Legal s as ∧ S.outputs out s as = es ∧ S.after s as = s'

theorem Performs.refl {ε : Type*} {out : σ → α → List ε} (s : σ) : S.Performs out s [] s :=
  ⟨[], trivial, rfl, rfl⟩

theorem Performs.trans {ε : Type*} {out : σ → α → List ε} {s s' s'' : σ} {es es' : List ε}
    (h : S.Performs out s es s') (h' : S.Performs out s' es' s'') :
    S.Performs out s (es ++ es') s'' := by
  obtain ⟨as, hlegal, rfl, rfl⟩ := h
  obtain ⟨bs, hlegal', rfl, rfl⟩ := h'
  exact ⟨as ++ bs, (legal_append s as bs).mpr ⟨hlegal, hlegal'⟩, outputs_append out s as bs,
    after_append s as bs⟩

variable (S) in
/-- The system with its output so far kept beside the state. -/
def logged {ε : Type*} (out : σ → α → List ε) : GuardedSystem (List ε × σ) α where
  init := ([], S.init)
  guard p a := S.guard p.2 a
  effect p a := (p.1 ++ out p.2 a, S.effect p.2 a)

section logged
variable {ε : Type*} {out : σ → α → List ε}

theorem after_logged (tr : List ε) (s : σ) (as : List α) :
    (S.logged out).after (tr, s) as = (tr ++ S.outputs out s as, S.after s as) := by
  induction as generalizing tr s with
  | nil => simp [after, outputs]
  | cons a as ih =>
    have hnext := ih (tr ++ out s a) (S.effect s a)
    rw [List.append_assoc] at hnext
    exact hnext

theorem legal_logged (tr : List ε) (s : σ) (as : List α) :
    (S.logged out).Legal (tr, s) as ↔ S.Legal s as := by
  induction as generalizing tr s with
  | nil => rfl
  | cons a as ih => exact and_congr_right fun _ => ih (tr ++ out s a) (S.effect s a)

theorem meets_logged {ok : σ → α → Prop} (tr : List ε) (s : σ) (as : List α) :
    (S.logged out).Meets (fun p a => ok p.2 a) (tr, s) as ↔ S.Meets ok s as := by
  induction as generalizing tr s with
  | nil => rfl
  | cons a as ih => exact and_congr_right fun _ => ih (tr ++ out s a) (S.effect s a)

/-- The rule for invariants that speak of the output so far. -/
theorem invariant_outputs {Inv : List ε → σ → Prop}
    (hstep : ∀ tr s a, Inv tr s → S.guard s a → Inv (tr ++ out s a) (S.effect s a))
    {s : σ} {as : List α} {tr : List ε} (h : Inv tr s) (hl : S.Legal s as) :
    Inv (tr ++ S.outputs out s as) (S.after s as) := by
  let Kept (p : List ε × σ) : Prop := Inv p.1 p.2
  have hkept : Kept ((S.logged out).after (tr, s) as) :=
    invariant_all (fun p a hp hg => hstep p.1 p.2 a hp hg) h ((legal_logged tr s as).mpr hl)
  rw [after_logged] at hkept
  exact hkept

end logged

/-- When a step keeps a property exactly if it meets the condition, a run has the
property throughout exactly if every step meets the condition. -/
theorem along_iff_meets {Inv P : σ → Prop} {ok : σ → α → Prop}
    (hexact : ∀ s a, Inv s → P s → S.guard s a → (P (S.effect s a) ↔ ok s a))
    (hstep : ∀ s a, Inv s → P s → S.guard s a → ok s a → Inv (S.effect s a))
    {s : σ} {as : List α} (h : Inv s) (hp : P s) (hl : S.Legal s as) :
    (∀ pre, pre <+: as → P (S.after s pre)) ↔ S.Meets ok s as := by
  induction as generalizing s with
  | nil =>
    refine ⟨fun _ => trivial, fun _ pre hpre => ?_⟩
    rw [List.prefix_nil.mp hpre]
    exact hp
  | cons a as ih =>
    constructor
    · intro hall
      have hp' : P (S.effect s a) := hall [a] ⟨as, rfl⟩
      have hok := (hexact s a h hp hl.1).mp hp'
      refine ⟨hok, (ih (hstep s a h hp hl.1 hok) hp' hl.2).mp fun pre hpre => ?_⟩
      exact hall (a :: pre) ((List.prefix_cons_inj a).mpr hpre)
    · rintro ⟨hok, hm⟩ pre hpre
      have hp' := (hexact s a h hp hl.1).mpr hok
      cases pre with
      | nil => exact hp
      | cons b pre =>
        obtain ⟨rfl, hpre'⟩ := List.cons_prefix_cons.mp hpre
        exact (ih (hstep s b h hp hl.1 hok) hp' hl.2).mpr hm pre hpre'

theorem meets_iff_prefix {ok : σ → α → Prop} (s : σ) (as : List α) :
    S.Meets ok s as ↔ ∀ pre a, pre ++ [a] <+: as → ok (S.after s pre) a := by
  constructor
  · rintro hm pre a ⟨rest, rfl⟩
    rw [meets_append, meets_append] at hm
    exact hm.1.2.1
  · intro hall
    induction as generalizing s with
    | nil => trivial
    | cons a as ih =>
      refine ⟨hall [] a ⟨as, rfl⟩, ih _ fun pre b hpre => ?_⟩
      exact hall (a :: pre) b ((List.prefix_cons_inj a).mpr hpre)

/-- Forward simulation: a run of one system is matched by a run of another when each of
its steps is matched by some steps. -/
theorem simulates {τ β : Type*} {T : GuardedSystem τ β} {R : σ → τ → Prop}
    (hstep : ∀ s t a, R s t → S.guard s a → ∃ bs, T.Legal t bs ∧ R (S.effect s a) (T.after t bs))
    {s : σ} {t : τ} {as : List α} (h : R s t) (hl : S.Legal s as) :
    ∃ bs, T.Legal t bs ∧ R (S.after s as) (T.after t bs) := by
  induction as generalizing s t with
  | nil => exact ⟨[], trivial, h⟩
  | cons a as ih =>
    obtain ⟨bs, hbs, hr⟩ := hstep s t a h hl.1
    obtain ⟨rest, hrest, hend⟩ := ih hr hl.2
    refine ⟨bs ++ rest, (legal_append t bs rest).mpr ⟨hbs, hrest⟩, ?_⟩
    rw [after_append]
    exact hend

/-- A run is no longer than what its start is worth when every step lowers the worth. -/
theorem length_le {Worth : ℕ → σ → Prop}
    (hstep : ∀ n s a, Worth n s → S.guard s a → ∃ m, m < n ∧ Worth m (S.effect s a))
    {n : ℕ} {s : σ} {as : List α} (h : Worth n s) (hl : S.Legal s as) : as.length ≤ n := by
  induction as generalizing n s with
  | nil => exact Nat.zero_le n
  | cons a as ih =>
    obtain ⟨m, hlt, hm⟩ := hstep n s a h hl.1
    have hrest := ih hm hl.2
    rw [List.length_cons]
    omega

/-- Repeating an action reaches a goal when it is enabled until then and makes a measure
smaller. -/
theorem repeat_until (Inv goal : σ → Prop) (a : α) (size : σ → ℕ)
    (hstep : ∀ s, Inv s → ¬ goal s →
      S.guard s a ∧ Inv (S.effect s a) ∧ size (S.effect s a) < size s) {s : σ} (h : Inv s) :
    ∃ n, S.Legal s (List.replicate n a) ∧ Inv (S.after s (List.replicate n a)) ∧
      goal (S.after s (List.replicate n a)) := by
  induction hsize : size s using Nat.strong_induction_on generalizing s with
  | _ m ih =>
    by_cases hgoal : goal s
    · exact ⟨0, trivial, h, hgoal⟩
    · obtain ⟨hguard, hinv, hlt⟩ := hstep s h hgoal
      obtain ⟨n, hlegal, hrest⟩ := ih _ (hsize ▸ hlt) hinv rfl
      exact ⟨n + 1, ⟨hguard, hlegal⟩, hrest⟩

end GuardedSystem
