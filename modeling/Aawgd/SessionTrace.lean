import Aawgd.ForwardLoss
import Aawgd.SessionStop

/-! The interleaved session against the sequential program: what each forward thread does,
whatever the other thread, `handleClient` and the signals do between its calls, is a trace
of `forward`, so it carries its stream frame by frame and holds back at most one block. -/
namespace Aawgd
open ByteStream CallProgram GuardedSystem

/-! The program left -/

/-- The rounds after one that is over. -/
def nextRounds (n : Nat) (d : ProxyDirection) : Option Buffer → Proxy Bool
  | none => .ret true
  | some buffer => loop (forwardRound d) n buffer

def leave : Bool → Proxy Bool
  | true => stopForwarding >>= fun _ => .ret true
  | false => .ret false

/-- `forward` from inside a round, with at most n rounds after it. -/
def inRound (n : Nat) (d : ProxyDirection) (p : Proxy (Option Buffer)) : Proxy Bool :=
  (p >>= nextRounds n d) >>= leave

/-- What is left of `forward` at a program point. -/
def Code.rest (n : Nat) (d : ProxyDirection) : Code → Proxy Bool
  | .notStarted => .ret false
  | .looping p => inRound n d p
  | .stopping p => p >>= fun _ => .ret true
  | .finished => .ret true

theorem forward_eq (n : Nat) (d : ProxyDirection) (buffer : Buffer) :
    forward n d buffer = loop (forwardRound d) n buffer >>= leave := by
  unfold forward
  congr 1
  funext left
  cases left <;> rfl

theorem loop_succ (n : Nat) (d : ProxyDirection) (buffer : Buffer) :
    loop (forwardRound d) (n + 1) buffer = forwardRound d buffer >>= nextRounds n d := by
  rw [loop]
  congr 1
  funext o
  cases o <;> rfl

theorem forward_succ (n : Nat) (d : ProxyDirection) (buffer : Buffer) :
    forward (n + 1) d buffer = inRound n d (forwardRound d buffer) := by
  rw [forward_eq, loop_succ]
  rfl

/-- The trace of a thread and its program point: it is inside `forward`, with any number of
rounds to come. -/
inductive Follows (d : ProxyDirection) (buffer : Buffer) : Trace → Code → Prop
  | notStarted : Follows d buffer [] .notStarted
  | started {tr : Trace} {code : Code} (rounds : Nat)
    (reaches : ∀ n, Reaches (forward (rounds + n) d buffer) tr (code.rest n d)) :
    Follows d buffer tr code

theorem Follows.begin (d : ProxyDirection) (buffer : Buffer) :
    Follows d buffer [] (.looping (forwardRound d buffer)) := by
  refine .started 1 fun n => ?_
  rw [Nat.add_comm, forward_succ]
  exact .here _

/-- What is left after an answer; the end of a round takes one from the rounds to come. -/
theorem rest_answered {code : Code} {d : ProxyDirection} {c : Call} {k : Answer c → Code}
    (hnext : code.next? d = some ⟨c, k⟩) (r : Answer c) :
    ∃ used, ∀ n, ∃ f, code.rest (used + n) d = .call c f ∧ f r = (k r).rest n d := by
  cases code with
  | notStarted | finished => cases hnext
  | looping p =>
    cases p with
    | ret o => cases hnext
    | call c k =>
      cases hnext
      cases hk : k r with
      | ret o =>
        cases o with
        | none =>
          refine ⟨0, fun n => ⟨_, rfl, ?_⟩⟩
          simp only [hk]
          rfl
        | some buffer =>
          refine ⟨1, fun n => ⟨_, rfl, ?_⟩⟩
          rw [Nat.add_comm]
          simp only [hk]
          change loop (forwardRound d) (n + 1) buffer >>= leave = _
          rw [loop_succ]
          rfl
      | call c' k' =>
        refine ⟨0, fun n => ⟨_, rfl, ?_⟩⟩
        simp only [hk, Nat.zero_add]
        rfl
  | stopping p =>
    cases p with
    | ret u => cases hnext
    | call c k =>
      cases hnext
      refine ⟨0, fun n => ⟨_, rfl, ?_⟩⟩
      change (k r >>= fun _ => .ret true) = (Code.ofStop (k r)).rest n d
      cases k r <;> rfl

theorem Follows.answered {d : ProxyDirection} {buffer : Buffer} {tr : Trace} {code : Code}
    {c : Call} {k : Answer c → Code} (h : Follows d buffer tr code)
    (hnext : code.next? d = some ⟨c, k⟩) (r : Answer c) :
    Follows d buffer (tr ++ [⟨c, r⟩]) (k r) := by
  cases h with
  | notStarted => cases hnext
  | started rounds hreaches =>
    obtain ⟨used, hrest⟩ := rest_answered hnext r
    refine .started (rounds + used) fun n => ?_
    obtain ⟨f, hcall, hf⟩ := hrest n
    have hr := hreaches (used + n)
    rw [hcall, ← Nat.add_assoc] at hr
    rw [← hf]
    exact hr.snoc r

theorem Course.nil_of_notStarted {d : ProxyDirection} {tr : Trace}
    (h : Course d tr .notStarted) : tr = [] := by
  cases h
  rfl

theorem Follows.step {stack : ProxyDirection → Buffer} {d : ProxyDirection} {s s' : Session}
    {l : List Moment} {tr : Trace} (h : Follows d (stack d) tr (s.forwarder d).code)
    (hcourse : Course d tr (s.forwarder d).code) (horderly : Orderly s)
    (hstep : ThreadStep stack d s s' l) :
    Follows d (stack d) (tr ++ events l) (s'.forwarder d).code := by
  cases hstep with
  | stays hcode =>
    rw [hcode]
    simpa using h
  | spawns hpc hcode =>
    rw [horderly.unstarted d (by rw [hpc])] at hcourse
    rw [hcourse.nil_of_notStarted, hcode]
    exact .begin d _
  | starts c hnext hblocks hfree hcode =>
    rw [hcode]
    simpa using h
  | answers c k r hnext hown hwithin hcode =>
    rw [hcode]
    exact h.answered hnext r

variable {stack : ProxyDirection → Buffer}

theorem follows {as : List Action} (h : (session stack).Legal sessionStart as)
    (d : ProxyDirection) : Follows d (stack d) (events (history stack d as))
      (((session stack).after sessionStart as).forwarder d).code := by
  let Inv (log : List (ProxyDirection × Moment)) (s : Session) : Prop :=
    UnderWay log s ∧ Follows d (stack d) (events (said d log)) (s.forwarder d).code
  have hstep : ∀ log s a, Inv log s → (session stack).guard s a →
      Inv (log ++ moments s a) ((session stack).effect s a) := by
    intro log s a ⟨hway, hfollows⟩ hguard
    refine ⟨hway.step hguard, ?_⟩
    rw [said_append, events_append]
    exact hfollows.step (hway.course d) hway.orderly (session_threadStep hguard d)
  have hstart : Inv [] sessionStart := ⟨UnderWay.start, .notStarted⟩
  exact (invariant_outputs hstep hstart h).2

/-- Where a thread stands in `forward`: it has returned once it is finished, else not. -/
theorem Follows.traces {d : ProxyDirection} {buffer : Buffer} {tr : Trace} {code : Code}
    (h : Follows d buffer tr code) : ∃ n, Traces (forward n d buffer) tr
      (if code.isFinished then some true else none) := by
  cases h with
  | notStarted => exact ⟨0, .stop _⟩
  | started rounds hreaches =>
    refine ⟨rounds, ?_⟩
    have hr := hreaches 0
    cases code with
    | finished => simpa [Code.isFinished] using hr.traces (.ret true)
    | notStarted | looping | stopping => simpa [Code.isFinished] using hr.traces (.stop _)

theorem forward_more {n m : Nat} (hnm : n ≤ m) {d : ProxyDirection} {buffer : Buffer} {tr : Trace}
    (h : Traces (forward n d buffer) tr (some true)) :
    Traces (forward m d buffer) tr (some true) := by
  rw [forward_eq] at h ⊢
  obtain ⟨left, tr₁, tr₂, rfl, hloop, hleave⟩ := traces_bind_some h
  cases left with
  | false => cases hleave
  | true => exact (traces_loop_more hnm hloop).bind hleave

/-- Before its end a thread has something left to do. -/
theorem Code.Form.rest_ne_ret {code : Code} (h : code.Form) (hcode : code.isFinished = false)
    (n : Nat) (d : ProxyDirection) : code.rest n d ≠ .ret true := by
  cases h with
  | finished => cases hcode
  | looping p calls checked =>
    cases p with
    | call c k => nofun
    | ret o =>
      cases o with
      | none => nofun
      | some buffer =>
        cases n with
        | zero =>
          intro hret
          injection hret with hfalse
          cases hfalse
        | succ n =>
          change loop (forwardRound d) (n + 1) buffer >>= leave ≠ _
          rw [loop_succ]
          nofun
  | notStarted | raise | test | send => nofun

theorem Follows.unreturned {d : ProxyDirection} {buffer : Buffer} {tr : Trace} {code : Code}
    (h : Follows d buffer tr code) (hform : code.Form) (hcode : code.isFinished = false) (n : Nat) :
    ¬ Traces (forward n d buffer) tr (some true) := by
  intro ht
  cases h with
  | notStarted =>
    cases n with
    | zero => cases ht
    | succ n =>
      rw [forward_succ] at ht
      cases ht
  | started rounds hreaches =>
    have hmore := forward_more (Nat.le_add_left n rounds) ht
    exact hform.rest_ne_ret hcode n d ((hreaches n).eq_ret hmore)

/-- However the threads are interleaved and interrupted, each of them does what the
sequential `forward` can do in some environment; when the thread is finished it has returned
from it, and before that no call of `forward` that did the same would have returned. -/
theorem session_refines_forward (stack : ProxyDirection → Buffer) (as : List Action)
    (hlegal : (session stack).Legal sessionStart as) (d : ProxyDirection) :
    let finished := (((session stack).after sessionStart as).forwarder d).code.isFinished
    (∃ n, Traces (forward n d (stack d)) (events (history stack d as))
      (if finished then some true else none)) ∧
    (finished = false → ∀ n, ¬ Traces (forward n d (stack d)) (events (history stack d as))
      (some true)) := by
  have hfollows := follows hlegal d
  exact ⟨hfollows.traces, hfollows.unreturned ((underWay hlegal).orderly.form d)⟩

/-- The phone hangs up; the thread that reads it signals both threads and returns. -/
def phoneHangsUp : List Action :=
  stopBeforeWrite ++ [.run .tcpToUsb, .run .tcpToUsb, .run .tcpToUsb, .run .tcpToUsb]

theorem session_refines_forward_ended :
    ∃ n, Traces (forward n .tcpToUsb (zeroStack .tcpToUsb))
      (events (history zeroStack .tcpToUsb phoneHangsUp)) (some true) := by
  have hended : (((session zeroStack).after sessionStart phoneHangsUp).forwarder
      .tcpToUsb).code.isFinished = true := by decide +kernel
  obtain ⟨htraces, -⟩ :=
    session_refines_forward zeroStack phoneHangsUp (by decide +kernel) .tcpToUsb
  rwa [if_pos hended] at htraces

/-! What a thread holds back -/

theorem readLoop_consumed {fd : Fd} {nbyte offset remaining : Nat} {buffer : Buffer} {tr : Trace}
    {o : Option (Int × Buffer)} (h : Traces (readLoop fd nbyte buffer offset remaining) tr o) :
    (consumed tr).length ≤ remaining := by
  induction remaining using Nat.strongRecOn generalizing buffer offset tr with
  | ind remaining ih =>
    rw [readLoop] at h
    split at h
    next =>
      obtain ⟨rfl, -⟩ := traces_ret.mp h
      simp
    next =>
      cases h with
      | stop => simp
      | call c k r tail =>
        cases r with
        | error | eof =>
          obtain ⟨rfl, -⟩ := traces_ret.mp tail
          simp [eventBytes, ReadResult.bytes]
        | data bytes pos le =>
          have hrest := ih (remaining - bytes.length) (by omega) tail
          simp only [consumed_cons, eventBytes, ReadResult.bytes, List.length_append]
          omega

/-- Wherever `readMessage` is stopped it has read no more than a header, or no more than the
frame that the header declares. -/
theorem readMessage_consumed {fd : Fd} {buffer : Buffer} {bufferLen : Nat} {tr : Trace}
    {o : Option (Int × Buffer)} (h : Traces (readMessage fd buffer bufferLen) tr o) :
    (consumed tr).length ≤ headerLength ∨
      ((consumed tr).length ≤ frameLength (consumed tr) ∧ (consumed tr).length ≤ bufferLen) := by
  obtain ⟨-, h₁⟩ | ⟨⟨len, buffer₁⟩, tr₁, tr₂, rfl, h₁, h₂⟩ := traces_bind h
  · exact .inl (readLoop_consumed h₁)
  have hheader := readLoop_consumed h₁
  dsimp only at h₂
  split at h₂
  · obtain ⟨rfl, -⟩ := traces_ret.mp h₂
    exact .inl (by simpa using hheader)
  obtain ⟨-, hlen₁, rfl⟩ := readLoop_traces h₁ (by omega)
  split at h₂
  · refine .inl ?_
    obtain ⟨rfl, -⟩ | ⟨r, tr', rfl, htail⟩ := traces_call.mp h₂
    · simpa using hheader
    · obtain ⟨rfl, -⟩ := traces_ret.mp htail
      simpa [eventBytes] using hheader
  next hfits =>
    have hbody : (consumed tr₂).length ≤ messageLength (store buffer 0 (consumed tr₁) 1)
        (store buffer 0 (consumed tr₁) 2) (store buffer 0 (consumed tr₁) 3) := by
      obtain ⟨-, h₃⟩ | ⟨⟨len₂, buffer₂⟩, tr₃, tr₄, rfl, h₃, h₄⟩ := traces_bind h₂
      · exact readLoop_consumed h₃
      · have hread := readLoop_consumed h₃
        dsimp only at h₄
        split at h₄ <;>
        · obtain ⟨rfl, -⟩ := traces_ret.mp h₄
          simpa using hread
    have hframe := frameLength_store buffer (consumed tr₁) (consumed tr₂) hlen₁
    rw [consumed_append, List.length_append, hframe, hlen₁]
    exact .inr ⟨by omega, by omega⟩

/-- At most one block, and from the phone no more than one frame, complete or not. -/
structure OneBlock (d : ProxyDirection) (bytes : List UInt8) : Prop where
  fits : bytes.length ≤ maxFrame
  frame : d = .tcpToUsb → bytes.length ≤ headerLength ∨ bytes.length ≤ frameLength bytes

theorem OneBlock.nil (d : ProxyDirection) : OneBlock d [] := ⟨by simp, fun _ => .inl (by simp)⟩

theorem readBlock_consumed {d : ProxyDirection} {buffer : Buffer} {tr : Trace}
    {o : Option (Int × Buffer)} (h : Traces (readBlock d buffer) tr o) :
    OneBlock d (consumed tr) := by
  cases d with
  | tcpToUsb =>
    have hsize := readMessage_consumed h
    have hheader : headerLength ≤ maxFrame := by decide
    exact ⟨by omega, fun _ => by omega⟩
  | usbToTcp =>
    refine ⟨?_, nofun⟩
    obtain ⟨rfl, -⟩ | ⟨r, tr', rfl, htail⟩ := traces_call.mp h
    · simp
    · cases r with
      | error | eof =>
        obtain ⟨rfl, -⟩ := traces_ret.mp htail
        simp [eventBytes, ReadResult.bytes]
      | data bytes pos le =>
        obtain ⟨rfl, -⟩ := traces_ret.mp htail
        simpa [eventBytes, ReadResult.bytes] using le

theorem consumed_looks {tr : Trace} (h : ∀ ev ∈ tr, ev.1 = .shouldExit) : consumed tr = [] := by
  refine List.flatMap_eq_nil_iff.mpr fun ev hev => ?_
  obtain ⟨c, r⟩ := ev
  cases h _ hev
  rfl

theorem checkBlock_consumed {d : ProxyDirection} {len : Int} {buffer : Buffer} {tr : Trace}
    {o : Option (Option Buffer)} (h : Traces (checkBlock d len buffer) tr o) :
    consumed tr = [] := by
  obtain ⟨hlooks, -⟩ | ⟨after, block, r, -, -, rfl, hafter, -⟩ := checkBlock_traces h
  · exact consumed_looks hlooks
  · simpa [eventBytes] using consumed_looks hafter

theorem forwardRound_consumed {d : ProxyDirection} {buffer : Buffer} {tr : Trace}
    {o : Option (Option Buffer)} (h : Traces (forwardRound d buffer) tr o) :
    OneBlock d (consumed tr) := by
  obtain ⟨hlooks, -⟩ | ⟨tr', rfl, hb⟩ := traces_unlessStopped h
  · rw [consumed_looks hlooks]
    exact .nil d
  · obtain ⟨-, hread⟩ | ⟨⟨len, buffer'⟩, tr₁, tr₂, rfl, hread, hcheck⟩ := traces_bind hb
    · simpa [eventBytes] using readBlock_consumed hread
    · simpa [eventBytes, checkBlock_consumed hcheck] using readBlock_consumed hread

/-- Whatever a round has come to, it holds what it has read, or it has written it. -/
theorem forwardRound_held {d : ProxyDirection} {buffer : Buffer} {tr : Trace}
    {o : Option (Option Buffer)} (h : Traces (forwardRound d buffer) tr o) :
    OneBlock d (held [] tr) := by
  obtain ⟨hquiet, -⟩ | ⟨before, after, block, r, hsent, -⟩ := forwardRound_traces h
  · rw [held_quiet [] hquiet]
    exact forwardRound_consumed h
  · obtain ⟨hquiet, hreads⟩ := hsent.after_quiet
    have hwrite : held [] tr = held [] after := by
      rw [hsent.split, held_append]
      rfl
    rw [hwrite, held_quiet [] hquiet, hreads]
    exact .nil d

/-- The calls of `stopForwarding` neither read nor write. -/
theorem stopForwarding_quiet :
    stopForwarding.Only fun c => isWrite c = false ∧ ∀ r, eventBytes ⟨c, r⟩ = [] := by
  refine ⟨⟨rfl, fun _ => rfl⟩, fun _ => Only.mono signals_only fun c hc => ?_⟩
  cases c <;> simp_all [isSignal, isWrite, eventBytes]

theorem leave_quiet (left : Bool) :
    (leave left).Only fun c => isWrite c = false ∧ ∀ r, eventBytes ⟨c, r⟩ = [] := by
  cases left with
  | false => trivial
  | true => exact stopForwarding_quiet.bind fun _ => trivial

theorem forward_held {n : Nat} {d : ProxyDirection} {buffer : Buffer} {tr : Trace}
    {o : Option Bool} (h : Traces (forward n d buffer) tr o) : OneBlock d (held [] tr) := by
  have hloop {tr : Trace} {o : Option Bool} (h : Traces (loop (forwardRound d) n buffer) tr o) :
      OneBlock d (held [] tr) := by
    refine traces_loop (P := fun tr => OneBlock d (held [] tr)) (OneBlock.nil d) ?_ ?_ h
    · exact fun b tr o ht _ => forwardRound_held ht
    · intro b b' tr₁ tr₂ ht hrest
      rw [held_append, held_round ht]
      exact hrest
  rw [forward_eq] at h
  obtain ⟨-, h₁⟩ | ⟨left, tr₁, tr₂, rfl, h₁, h₂⟩ := traces_bind h
  · exact hloop h₁
  have hstop := (leave_quiet left).traces h₂
  have hreads : consumed tr₂ = [] :=
    List.flatMap_eq_nil_iff.mpr fun ev hev => (hstop ev hev).2 ev.2
  rw [held_append, held_quiet _ fun ev hev => (hstop ev hev).1, hreads, List.append_nil]
  exact hloop h₁

/-! What has gone through -/

/-- Every write took the whole block. -/
def WholeWrites (tr : Trace) : Prop :=
  ∀ ev ∈ tr, ∀ b, block? ev = some b → eventAccepted ev = b

/-- What was read is what was written and what is held. -/
theorem consumed_eq {acc : List UInt8} {tr : Trace} (h : Carried acc tr) :
    acc ++ consumed tr = (blocks tr).flatten ++ held acc tr := by
  induction tr generalizing acc with
  | nil => simp [blocks, held]
  | cons ev tr ih =>
    cases hb : block? ev with
    | some b =>
      obtain ⟨rfl, htail⟩ := (carried_block hb).mp h
      obtain ⟨fd, r, rfl⟩ := block?_eq_some hb
      have hrest := ih htail
      simp only [List.nil_append] at hrest
      simp only [consumed_cons, eventBytes, List.nil_append, hrest, blocks_write,
        List.flatten_cons, held, hb, List.append_assoc]
    | none =>
      have hrest := ih ((carried_other hb).mp h)
      have hblocks : blocks (ev :: tr) = blocks tr := List.filterMap_cons_none hb
      rw [consumed_cons, ← List.append_assoc, hrest, hblocks]
      simp only [held, hb]

theorem accepted_whole {tr : Trace} (h : WholeWrites tr) : accepted tr = (blocks tr).flatten := by
  induction tr with
  | nil => rfl
  | cons ev tr ih =>
    have hrest := ih fun e he => h e (List.mem_cons_of_mem ev he)
    cases hb : block? ev with
    | some b =>
      have hev := h ev List.mem_cons_self b hb
      have hblocks : blocks (ev :: tr) = b :: blocks tr := List.filterMap_cons_some hb
      rw [hblocks, List.flatten_cons, ← hrest, ← hev]
      rfl
    | none =>
      have hblocks : blocks (ev :: tr) = blocks tr := List.filterMap_cons_none hb
      rw [accepted_cons_none hb, hblocks, hrest]

theorem cutFrames_append {bs : List (List UInt8)} (h : ∀ b ∈ bs, ∃ f : Frame, f.bytes = b)
    (rest : List UInt8) : cutFrames (bs.flatten ++ rest) = bs ++ cutFrames rest := by
  induction bs with
  | nil => rfl
  | cons b bs ih =>
    obtain ⟨f, rfl⟩ := h b List.mem_cons_self
    rw [List.flatten_cons, List.append_assoc, cutFrames_some (nextFrame_bytes f _),
      ih fun b' hb' => h b' (List.mem_cons_of_mem _ hb'), List.cons_append]

/-- No more than one frame is no more than one frame. -/
theorem OneBlock.cutFrames {bytes : List UInt8} (h : OneBlock .tcpToUsb bytes) :
    (cutFrames bytes).length ≤ 1 := by
  cases hnext : nextFrame bytes with
  | none => simp [cutFrames_none hnext]
  | some p =>
    obtain ⟨b, rest⟩ := p
    obtain ⟨-, hlen, rfl, rfl⟩ := nextFrame_eq_some hnext
    obtain ⟨-, h4, -, -⟩ := nextFrame_spec hnext
    have hall : bytes.length ≤ frameLength bytes := by
      rw [List.length_take] at h4
      have hframe := h.frame rfl
      have hheader : headerLength = 4 := rfl
      omega
    rw [cutFrames_some hnext, List.drop_of_length_le hall,
      cutFrames_none (s := []) (by simp [nextFrame, frameLength])]
    rfl

theorem Sound.framed {tr : Trace} (h : Sound .tcpToUsb tr) :
    ∀ b ∈ blocks tr, ∃ f : Frame, f.bytes = b := by
  intro b hb
  obtain ⟨hlen, hmax⟩ := h.frames rfl b hb
  have hpos := List.length_pos_iff.mpr (h.nonempty b hb)
  exact exists_frame b (by omega) hlen hmax

/-- In every state of a session, for each direction: what was read is what was handed to
`write` and then what is held back, at most one block; from the phone the blocks are the
frames of the stream, one by one, with at most one more complete frame held back. Where every
write took its whole block, nothing but the held bytes is missing at the other end. -/
theorem session_integrity (stack : ProxyDirection → Buffer) (as : List Action)
    (hlegal : (session stack).Legal sessionStart as) (d : ProxyDirection) :
    let tr := events (history stack d as)
    consumed tr = (blocks tr).flatten ++ held [] tr ∧ (held [] tr).length ≤ maxFrame ∧
      (d = .tcpToUsb → cutFrames (consumed tr) = blocks tr ++ cutFrames (held [] tr) ∧
        (cutFrames (held [] tr)).length ≤ 1) ∧
      (WholeWrites tr → consumed tr = accepted tr ++ held [] tr) := by
  intro tr
  obtain ⟨n, htraces⟩ := (follows hlegal d).traces
  have hsound := forward_sound htraces
  have hheld := forward_held htraces
  have hall := consumed_eq hsound.carried
  rw [List.nil_append] at hall
  refine ⟨hall, hheld.fits, fun hd => ?_, fun hwhole => ?_⟩
  · subst hd
    refine ⟨?_, hheld.cutFrames⟩
    rw [hall]
    exact cutFrames_append hsound.framed _
  · rw [accepted_whole hwhole]
    exact hall

/-- The accessory's byte is read and not yet written. -/
theorem session_integrity_held :
    consumed (events (history zeroStack .usbToTcp stopBeforeWrite)) =
        (blocks (events (history zeroStack .usbToTcp stopBeforeWrite))).flatten ++ [7] ∧
      (held [] (events (history zeroStack .usbToTcp stopBeforeWrite))).length ≤ maxFrame := by
  have hheld : held [] (events (history zeroStack .usbToTcp stopBeforeWrite)) = [7] := by
    decide +kernel
  obtain ⟨hall, hfits, -⟩ :=
    session_integrity zeroStack stopBeforeWrite (by decide +kernel) .usbToTcp
  rw [hheld] at hall
  exact ⟨hall, hfits⟩

end Aawgd
