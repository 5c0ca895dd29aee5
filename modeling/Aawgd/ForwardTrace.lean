import Aawgd.Forward

/-! What holds of the trace of a forward thread in any environment: every block
is what was read since the write before it, and no write follows a failed one. -/
namespace Aawgd
open ByteStream CallProgram

/-- No byte is taken after an event of the given kind. -/
def LastOf (q : Event Call Answer → Bool) : Trace → Prop
  | [] => True
  | ev :: tr => (q ev = true → accepted tr = []) ∧ LastOf q tr

instance decidableLastOf (q : Event Call Answer → Bool) : (tr : Trace) → Decidable (LastOf q tr)
  | [] => .isTrue trivial
  | _ :: tr => @instDecidableAnd _ _ _ (decidableLastOf q tr)

def isFailed : Event Call Answer → Bool
  | ⟨.write _ _, .error⟩ => true
  | _ => false

/-- What holds of the trace of a forward thread in any environment. -/
structure Sound (d : ProxyDirection) (tr : Trace) : Prop where
  carried : Carried [] tr
  failedLast : LastOf isFailed tr
  frames : d = .tcpToUsb → ∀ b ∈ blocks tr, b.length = frameLength b ∧ b.length ≤ maxFrame
  nonempty : ∀ b ∈ blocks tr, b ≠ []

theorem isFailed_eq_false {ev : Event Call Answer} (h : isWrite ev.1 = false) :
    isFailed ev = false := by
  obtain ⟨c, r⟩ := ev
  cases c <;> simp_all [isWrite, isFailed]

theorem lastOf_append {q : Event Call Answer → Bool} {tr₁ tr₂ : Trace}
    (h : ∀ ev ∈ tr₁, q ev = false) : LastOf q (tr₁ ++ tr₂) ↔ LastOf q tr₂ := by
  induction tr₁ with
  | nil => rfl
  | cons ev tr₁ ih =>
    have hev := h ev (by simp)
    simp [LastOf, hev, ih fun e he => h e (by simp [he])]

theorem lastOf_of_accepted_nil {q : Event Call Answer → Bool} {tr : Trace}
    (h : accepted tr = []) : LastOf q tr := by
  induction tr with
  | nil => trivial
  | cons ev tr ih =>
    have htr : accepted tr = [] := by
      simp only [accepted, List.flatMap_cons, List.append_eq_nil_iff] at h
      exact h.2
    exact ⟨fun _ => htr, ih htr⟩

theorem lastOf_append_quiet {q : Event Call Answer → Bool} {tr₁ tr₂ : Trace}
    (h : LastOf q tr₁) (h₂ : accepted tr₂ = []) : LastOf q (tr₁ ++ tr₂) := by
  induction tr₁ with
  | nil => exact lastOf_of_accepted_nil h₂
  | cons ev tr₁ ih =>
    refine ⟨fun hq => ?_, ih h.2⟩
    change accepted (tr₁ ++ tr₂) = []
    rw [accepted_append, h.1 hq, h₂]
    rfl

theorem carried_append_quiet {acc : List UInt8} {tr₁ tr₂ : Trace} (h : Carried acc tr₁)
    (h₂ : ∀ ev ∈ tr₂, isWrite ev.1 = false) : Carried acc (tr₁ ++ tr₂) := by
  induction tr₁ generalizing acc with
  | nil =>
    rw [List.nil_append, ← List.append_nil tr₂, carried_append h₂]
    trivial
  | cons ev tr₁ ih =>
    rw [List.cons_append]
    cases hb : block? ev with
    | some b =>
      obtain ⟨hcarried, htail⟩ := (carried_block hb).mp h
      exact (carried_block hb).mpr ⟨hcarried, ih htail⟩
    | none => exact (carried_other hb).mpr (ih ((carried_other hb).mp h))

theorem Sound.nil (d : ProxyDirection) : Sound d [] :=
  ⟨trivial, trivial, by simp [blocks], by simp [blocks]⟩

/-- Calls that write nothing may follow anything. -/
theorem Sound.append_quiet {d : ProxyDirection} {tr₁ tr₂ : Trace} (h : Sound d tr₁)
    (h₂ : ∀ ev ∈ tr₂, isWrite ev.1 = false) : Sound d (tr₁ ++ tr₂) where
  carried := carried_append_quiet h.carried h₂
  failedLast := lastOf_append_quiet h.failedLast (accepted_eq_nil h₂)
  frames := by simpa [blocks_eq_nil h₂] using h.frames
  nonempty := by simpa [blocks_eq_nil h₂] using h.nonempty

theorem Sent.after_quiet {d : ProxyDirection} {tr before after : Trace} {block : List UInt8}
    {r : WriteResult block.length} (h : Sent d tr before after block r) :
    (∀ ev ∈ after, isWrite ev.1 = false) ∧ consumed after = [] := by
  refine ⟨fun ev hev => by rw [h.after_looks ev hev]; rfl, ?_⟩
  refine List.flatMap_eq_nil_iff.mpr fun ev hev => ?_
  obtain ⟨c, r⟩ := ev
  have hc : c = .shouldExit := h.after_looks _ hev
  subst hc
  rfl

/-- A round may stand in front of a sound trace; after a failed write nothing may follow. -/
theorem Sent.append {d : ProxyDirection} {tr before after tr₂ : Trace} {block : List UInt8}
    {r : WriteResult block.length} (h : Sent d tr before after block r) (h₂ : Sound d tr₂)
    (herr : r = .error → accepted tr₂ = []) : Sound d (tr ++ tr₂) := by
  obtain ⟨hquiet, hreads⟩ := h.after_quiet
  have hsplit : tr ++ tr₂ = before ++ (⟨.write (writeFd d) block, r⟩ :: (after ++ tr₂)) := by
    simp [h.split]
  have hblocks : blocks (tr ++ tr₂) = block :: blocks tr₂ := by
    rw [hsplit, blocks_append, blocks_eq_nil h.before_reads, List.nil_append, blocks_write,
      blocks_append, blocks_eq_nil hquiet, List.nil_append]
  have hafter : accepted (after ++ tr₂) = accepted tr₂ := by
    rw [accepted_append, accepted_eq_nil hquiet, List.nil_append]
  constructor
  · rw [hsplit, carried_append h.before_reads]
    refine ⟨by simpa using h.block_eq, ?_⟩
    rw [carried_append hquiet, hreads, List.append_nil]
    exact h₂.carried
  · rw [hsplit, lastOf_append fun ev hev => isFailed_eq_false (h.before_reads ev hev)]
    refine ⟨fun hf => ?_, ?_⟩
    · cases r with
      | error => rw [hafter, herr rfl]
      | accepted k le => simp [isFailed] at hf
    · rw [lastOf_append fun ev hev => isFailed_eq_false (hquiet ev hev)]
      exact h₂.failedLast
  · intro hd b hb
    rw [hblocks, List.mem_cons] at hb
    cases hb with
    | inl he => exact he ▸ h.frame hd
    | inr hb => exact h₂.frames hd b hb
  · intro b hb
    rw [hblocks, List.mem_cons] at hb
    cases hb with
    | inl he => exact he ▸ h.block_ne
    | inr hb => exact h₂.nonempty b hb

theorem forwardLoop_sound {n : Nat} {d : ProxyDirection} {buffer : Buffer} {tr : Trace}
    {o : Option Bool} (h : Traces (loop (forwardRound d) n buffer) tr o) : Sound d tr := by
  refine traces_loop (Sound.nil d) ?_ ?_ h
  · intro b tr o ht ho
    cases forwardRound_traces ht with
    | inl hq => exact (Sound.nil d).append_quiet hq.1
    | inr hs =>
      obtain ⟨before, after, block, r, hs, herr⟩ := hs
      have hsound := hs.append (Sound.nil d) (fun _ => rfl)
      simpa using hsound
  · intro b b' tr₁ tr₂ ht hsound
    cases forwardRound_traces ht with
    | inl hq => simp at hq
    | inr hs =>
      obtain ⟨before, after, block, r, hs, herr⟩ := hs
      exact hs.append hsound fun hr => by simpa using herr hr

theorem stopForwarding_only : stopForwarding.Only (isWrite · = false) :=
  stopForwarding_steps rfl (fun _ => rfl) fun _ => rfl

/-- Whatever the environment answers, a forward thread writes what it has read,
frame by frame from the phone, and goes on only after a write that worked. -/
theorem forward_sound {n : Nat} {d : ProxyDirection} {buffer : Buffer} {tr : Trace}
    {o : Option Bool} (h : Traces (forward n d buffer) tr o) : Sound d tr := by
  cases traces_bind h with
  | inl h₀ => exact forwardLoop_sound h₀.2
  | inr h₁ =>
    obtain ⟨left, tr₁, tr₂, rfl, hloop, hrest⟩ := h₁
    refine (forwardLoop_sound hloop).append_quiet ?_
    cases left with
    | false =>
      obtain ⟨rfl, -⟩ := traces_ret.mp hrest
      simp
    | true =>
      have honly : (stopForwarding >>= fun _ => .ret true).Only (isWrite · = false) :=
        stopForwarding_only.bind fun _ => trivial
      exact honly.traces hrest

end Aawgd
