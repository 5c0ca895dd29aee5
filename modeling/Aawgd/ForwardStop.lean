import Aawgd.Forward

/-! A round of the forwarding loop once the stop has been raised: wherever it is, it writes
nothing and leaves the loop, unless it stands right at its write; what it writes there is
what it has read since its last write. -/
namespace Aawgd
open ByteStream CallProgram

/-- When every look at the flag finds it set, nothing is written and the loop is left. -/
def Quits : Proxy (Option Buffer) → Prop
  | .ret o => o = none
  | .call c k => isWrite c = false ∧
    ∀ r, (⟨c, r⟩ : Event Call Answer) ≠ ⟨.shouldExit, false⟩ → Quits (k r)

/-- The next call is a write, and the rest quits. -/
def AtWrite : Proxy (Option Buffer) → Prop
  | .call c k => isWrite c = true ∧ ∀ r, Quits (k r)
  | .ret _ => False

/-- At every call the program quits, or writes and then quits. -/
def Prompt : Proxy (Option Buffer) → Prop
  | .ret _ => True
  | .call c k => (Quits (.call c k) ∨ AtWrite (.call c k)) ∧ ∀ r, Prompt (k r)

theorem Quits.bind {α : Type} {p : Proxy α} {f : α → Proxy (Option Buffer)}
    (hp : p.Only (isWrite · = false)) (hf : ∀ a, Quits (f a)) : Quits (p >>= f) := by
  induction p with
  | ret a => exact hf a
  | call c k ih => exact ⟨hp.1, fun r _ => ih r (hp.2 r)⟩

theorem Prompt.bind {α : Type} {p : Proxy α} {f : α → Proxy (Option Buffer)}
    (hp : p.Only (isWrite · = false)) (hq : ∀ a, Quits (f a)) (hf : ∀ a, Prompt (f a)) :
    Prompt (p >>= f) := by
  induction p with
  | ret a => exact hf a
  | call c k ih => exact ⟨.inl (Quits.bind hp hq), fun r => ih r (hp.2 r)⟩

theorem Prompt.reaches {p q : Proxy (Option Buffer)} {tr : Trace} (h : Prompt p)
    (hr : Reaches p tr q) : Prompt q := by
  induction hr with
  | here p => exact h
  | call c k r tail ih => exact ih (h.2 r)

theorem quits_unlessStopped (p : Proxy (Option Buffer)) : Quits (unlessStopped p) := by
  refine ⟨rfl, fun stop hstop => ?_⟩
  cases stop with
  | false => exact absurd rfl hstop
  | true => rfl

theorem prompt_unlessStopped {p : Proxy (Option Buffer)} (h : Prompt p) :
    Prompt (unlessStopped p) := by
  refine ⟨.inl (quits_unlessStopped p), fun stop => ?_⟩
  cases stop with
  | false => exact h
  | true => trivial

theorem quits_checkBlock (d : ProxyDirection) (len : Int) (buffer : Buffer) :
    Quits (checkBlock d len buffer) := by
  unfold checkBlock
  split
  · rfl
  split
  · rfl
  exact quits_unlessStopped _

theorem prompt_writeBlock (d : ProxyDirection) (block : List UInt8) (buffer : Buffer) :
    Prompt (writeBlock d block buffer) := by
  refine ⟨.inr ⟨rfl, fun r => ?_⟩, fun r => ?_⟩
  · cases r with
    | error => rfl
    | accepted count le => exact quits_unlessStopped _
  · cases r with
    | error => trivial
    | accepted count le => exact prompt_unlessStopped trivial

theorem prompt_checkBlock (d : ProxyDirection) (len : Int) (buffer : Buffer) :
    Prompt (checkBlock d len buffer) := by
  unfold checkBlock
  split
  · trivial
  split
  · trivial
  exact prompt_unlessStopped (prompt_writeBlock d _ buffer)

theorem prompt_forwardRound (d : ProxyDirection) (buffer : Buffer) :
    Prompt (forwardRound d buffer) := by
  apply prompt_unlessStopped
  apply Prompt.bind (readBlock_quiet d buffer)
  · exact fun ⟨len, buffer⟩ => quits_checkBlock d len buffer
  · exact fun ⟨len, buffer⟩ => prompt_checkBlock d len buffer

/-! What a thread holds -/

/-- The bytes read since the last write, where acc was read before the trace begins. -/
def held (acc : List UInt8) : Trace → List UInt8
  | [] => acc
  | ev :: tr => match block? ev with
    | some _ => held [] tr
    | none => held (acc ++ eventBytes ev) tr

theorem held_append (acc : List UInt8) (tr₁ tr₂ : Trace) :
    held acc (tr₁ ++ tr₂) = held (held acc tr₁) tr₂ := by
  induction tr₁ generalizing acc with
  | nil => rfl
  | cons ev tr₁ ih =>
    cases h : block? ev with
    | none => simp only [List.cons_append, held, h, ih]
    | some block => simp only [List.cons_append, held, h, ih]

theorem held_quiet (acc : List UInt8) {tr : Trace} (h : ∀ ev ∈ tr, isWrite ev.1 = false) :
    held acc tr = acc ++ consumed tr := by
  induction tr generalizing acc with
  | nil => simp [held]
  | cons ev tr ih =>
    have hev := block?_eq_none (h ev List.mem_cons_self)
    simp only [held, hev, ih _ fun e he => h e (List.mem_cons_of_mem ev he), consumed_cons,
      List.append_assoc]

/-- A round that is followed by another has written all it read. -/
theorem held_round {d : ProxyDirection} {buffer buffer' : Buffer} {tr : Trace}
    (h : Traces (forwardRound d buffer) tr (some (some buffer'))) : held [] tr = [] := by
  obtain ⟨-, ho⟩ | ⟨before, after, block, r, hsent, -⟩ := forwardRound_traces h
  · simp at ho
  have hlooks : ∀ ev ∈ after, isWrite ev.1 = false ∧ eventBytes ev = [] := by
    intro ev hev
    obtain ⟨c, r⟩ := ev
    cases hsent.after_looks _ hev
    exact ⟨rfl, rfl⟩
  have hafter : consumed after = [] := List.flatMap_eq_nil_iff.mpr fun ev hev => (hlooks ev hev).2
  have hwrite : held (held [] before) (⟨.write (writeFd d) block, r⟩ :: after) = held [] after := rfl
  rw [hsent.split, held_append, hwrite, held_quiet [] fun ev hev => (hlooks ev hev).1, hafter]
  rfl

/-- Where a round stands at its write, it writes all it has read, and from the phone that
is one complete frame. -/
theorem held_at_write {d : ProxyDirection} {buffer : Buffer} {tr : Trace} {fd : Fd}
    {block : List UInt8} {k : WriteResult block.length → Proxy (Option Buffer)}
    (h : Reaches (forwardRound d buffer) tr (.call (.write fd block) k)) :
    fd = writeFd d ∧ block = held [] tr ∧ block ≠ [] ∧
      (d = .tcpToUsb → ∃ f : Frame, f.bytes = block) := by
  let write : Event Call Answer := ⟨.write fd block, .error⟩
  have hnext : Traces (.call (.write fd block) k : Proxy (Option Buffer)) [write] none :=
    .call _ _ _ (.stop _)
  have ht := h.traces hnext
  obtain ⟨hquiet, -⟩ | ⟨before, after, block', r, hsent, -⟩ := forwardRound_traces ht
  · have hlast := hquiet write (by simp)
    simp [write, isWrite] at hlast
  -- the write is the last event: only looks at the flag follow the write of a round
  have hnil : after = [] := by
    by_contra hne
    have hlast := congrArg List.getLast? hsent.split
    rw [List.getLast?_append_of_ne_nil _ (by simp), List.getLast?_append_of_ne_nil _ (by simp),
      List.getLast?_singleton, List.getLast?_cons_of_ne_nil hne] at hlast
    have hlook := hsent.after_looks _ (List.mem_of_getLast? hlast.symm)
    cases hlook
  have hsplit := hsent.split
  rw [hnil] at hsplit
  obtain ⟨rfl, hwrite⟩ := List.append_inj' hsplit rfl
  have hcall : Call.write fd block = .write (writeFd d) block' :=
    congrArg Sigma.fst (List.singleton_inj.mp hwrite)
  obtain ⟨rfl, rfl⟩ := Call.write.inj hcall
  refine ⟨rfl, ?_, hsent.block_ne, fun hd => ?_⟩
  · rw [held_quiet [] hsent.before_reads, List.nil_append, ← hsent.block_eq]
  · obtain ⟨hlen, hmax⟩ := hsent.frame hd
    have hpos := List.length_pos_iff.mpr hsent.block_ne
    exact exists_frame block (by omega) hlen hmax

end Aawgd
