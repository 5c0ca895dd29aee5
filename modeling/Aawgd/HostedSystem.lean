import Aawgd.GuardedSystem

/-! A system that runs another one inside: in some of its states the host has a guest that goes
on beside it, one at a time, and the host leaves these states only when its guest has ended.
Nothing here is about a particular system. -/
namespace GuardedSystem

/-- In which states there is a guest and which one, when a guest has ended, and when it still
lets anything happen at all. -/
structure Hosting (σ α τ β : Type*) where
  host : GuardedSystem σ α
  busy : σ → Bool
  guest : σ → GuardedSystem τ β
  ended : τ → Bool
  alive : τ → Bool
  idle : busy host.init = false

namespace Hosting
variable {σ α τ β : Type*} (H : Hosting σ α τ β)

/-- The guest beside a state that the host comes to. -/
def beside (s : σ) (t : Option τ) : Option τ :=
  if H.busy s = true then some (t.getD (H.guest s).init) else none

def system : GuardedSystem (σ × Option τ) (α ⊕ β) where
  init := (H.host.init, none)
  guard p
    | .inl a => (∀ t ∈ p.2, H.alive t = true) ∧ H.host.guard p.1 a ∧
        (H.busy (H.host.effect p.1 a) = false → ∀ t ∈ p.2, H.ended t = true)
    | .inr b => ∃ t ∈ p.2, H.alive t = true ∧ (H.guest p.1).guard t b
  effect p
    | .inl a => (H.host.effect p.1 a, H.beside (H.host.effect p.1 a) p.2)
    | .inr b => (p.1, p.2.map fun t => (H.guest p.1).effect t b)

instance decidableHostedGuard [∀ s a, Decidable (H.host.guard s a)]
    [∀ s t b, Decidable ((H.guest s).guard t b)] (p : σ × Option τ) :
    (a : α ⊕ β) → Decidable (H.system.guard p a)
  | .inl _ => inferInstanceAs (Decidable (_ ∧ _ ∧ _))
  | .inr b => inferInstanceAs (Decidable (∃ t ∈ p.2, H.alive t = true ∧ (H.guest p.1).guard t b))

def hostPart (run : List (α ⊕ β)) : List α := run.filterMap Sum.getLeft?

def guestPart (run : List (α ⊕ β)) : List β := run.filterMap Sum.getRight?

variable {H}

/-- A run is a run of the host. -/
theorem host_run {p : σ × Option τ} {run : List (α ⊕ β)} (h : H.system.Legal p run) :
    H.host.Legal p.1 (hostPart run) ∧
      H.host.after p.1 (hostPart run) = (H.system.after p run).1 := by
  induction run generalizing p with
  | nil => exact ⟨trivial, rfl⟩
  | cons a run ih =>
    obtain ⟨hguard, hrest⟩ := h
    obtain ⟨hlegal, hafter⟩ := ih hrest
    cases a with
    | inl a => exact ⟨⟨hguard.2.1, hlegal⟩, hafter⟩
    | inr b => exact ⟨hlegal, hafter⟩

/-- There is a guest where the host has one, and it is in its own run, which began within the
past. -/
structure Attends (H : Hosting σ α τ β) (past : List β) (p : σ × Option τ) : Prop where
  present : p.2.isSome = H.busy p.1
  run : ∀ t, p.2 = some t → ∃ as, as <:+ past ∧ (H.guest p.1).Legal (H.guest p.1).init as ∧
    (H.guest p.1).after (H.guest p.1).init as = t

theorem Attends.host {past : List β} {p : σ × Option τ} {a : α} (h : H.Attends past p)
    (hkeep : H.busy p.1 = true → H.busy (H.host.effect p.1 a) = true →
      H.guest (H.host.effect p.1 a) = H.guest p.1) :
    H.Attends past (H.system.effect p (.inl a)) := by
  obtain ⟨s, guest⟩ := p
  obtain ⟨hpresent, hrun⟩ := h
  change H.Attends past (H.host.effect s a, H.beside (H.host.effect s a) guest)
  cases hbusy : H.busy (H.host.effect s a) with
  | false => exact ⟨by simp [beside, hbusy], by simp [beside, hbusy]⟩
  | true =>
    refine ⟨by simp [beside, hbusy], fun t ht => ?_⟩
    simp only [beside, hbusy, if_true, Option.some.injEq] at ht
    cases guest with
    | none => exact ⟨[], List.nil_suffix, trivial, ht⟩
    | some t' =>
      cases ht
      rw [hkeep hpresent.symm hbusy]
      exact hrun t' rfl

theorem Attends.guest {past : List β} {p : σ × Option τ} {b : β} (h : H.Attends past p)
    (hguard : H.system.guard p (.inr b)) :
    H.Attends (past ++ [b]) (H.system.effect p (.inr b)) := by
  obtain ⟨s, guest⟩ := p
  obtain ⟨t, ht, -, hb⟩ := hguard
  obtain rfl : guest = some t := ht
  obtain ⟨as, hsuffix, hlegal, hafter⟩ := h.run t rfl
  refine ⟨h.present, fun t' ht' => ⟨as ++ [b], ?_, ?_, ?_⟩⟩
  · obtain ⟨before, rfl⟩ := hsuffix
    exact ⟨before, (List.append_assoc before as [b]).symm⟩
  · exact (legal_append _ as [b]).mpr ⟨hlegal, hafter.symm ▸ hb, trivial⟩
  · rw [after_append]
    exact hafter.symm ▸ Option.some.inj ht'

theorem outputs_guest (p : σ × Option τ) (run : List (α ⊕ β)) :
    H.system.outputs (fun _ a => a.getRight?.toList) p run = guestPart run := by
  induction run generalizing p with
  | nil => rfl
  | cons a run ih =>
    rw [outputs, ih]
    cases a <;> rfl

/-- What the guest does is a run of the guest, provided the host keeps its guest as long as it
has one. -/
theorem guest_run {Inv : σ → Prop} (hinit : Inv H.host.init)
    (hstep : ∀ s a, Inv s → H.host.guard s a → Inv (H.host.effect s a))
    (hkeep : ∀ s a, Inv s → H.host.guard s a → H.busy s = true →
      H.busy (H.host.effect s a) = true → H.guest (H.host.effect s a) = H.guest s)
    {run : List (α ⊕ β)} (h : H.system.Legal H.system.init run) :
    H.Attends (guestPart run) (H.system.after H.system.init run) := by
  let Kept (past : List β) (p : σ × Option τ) : Prop := Inv p.1 ∧ H.Attends past p
  have hkept : ∀ past p a, Kept past p → H.system.guard p a →
      Kept (past ++ a.getRight?.toList) (H.system.effect p a) := by
    intro past p a ⟨hinv, hattends⟩ hguard
    cases a with
    | inl a =>
      refine ⟨hstep p.1 a hinv hguard.2.1, ?_⟩
      rw [Sum.getRight?_inl, Option.toList_none, List.append_nil]
      exact hattends.host (hkeep p.1 a hinv hguard.2.1)
    | inr b => exact ⟨hinv, hattends.guest hguard⟩
  have hstart : Kept [] H.system.init := ⟨hinit, H.idle.symm, by simp [system]⟩
  have hrun := (invariant_outputs hkept hstart h).2
  rw [outputs_guest] at hrun
  exact hrun

end Hosting

end GuardedSystem
