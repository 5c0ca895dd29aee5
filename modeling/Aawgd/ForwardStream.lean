import Aawgd.ForwardTrace
import Mathlib.Data.List.TakeWhile

/-! The phone's stream through the forwarding loop: what is written is fixed by the
bytes of the stream, whatever pieces the kernel hands them out in. -/
namespace Aawgd
open ByteStream CallProgram

/-- The phone sends a fixed stream, the kernel splits it, every write is accepted
in full and the exit flag stays down. -/
def streamEnv (ch : Chunking) (e : Ending) (s : Stream) : (c : Call) → Answer c × Stream
  | .shouldExit => (false, s)
  | .read _ _ n => s.read ch e n
  | .write _ b => (.accepted b.length (Nat.le_refl _), s)
  | .hasThread _ => (true, s)
  | .raiseExit | .setErrnoEmsgsize | .kill _ => ((), s)

variable (ch : Chunking) (e : Ending)

/-- The end of the stream was met. -/
def SawEnding (e : Ending) (tr : Trace) : Prop :=
  ∃ fd offset n, ⟨.read fd offset n, e.result n⟩ ∈ tr

theorem run_readLoop_full (fd : Fd) (nbyte : Nat) (buffer : Buffer) (offset remaining : Nat)
    (s : Stream) (h : remaining ≤ s.left.length) :
    ∃ calls tr, run (streamEnv ch e) (readLoop fd nbyte buffer offset remaining) s =
      ⟨(nbyte, store buffer offset (s.left.take remaining)), ⟨s.left.drop remaining, calls⟩, tr⟩ := by
  induction remaining using Nat.strongRecOn generalizing buffer offset s with
  | ind remaining ih =>
    rw [readLoop]
    split
    next h0 => exact ⟨s.calls, [], by simp [h0]⟩
    next h0 =>
      have hne : s.left ≠ [] := List.length_pos_iff.mp (by omega)
      obtain ⟨bs, pos, le, hpre, hread⟩ := s.read_data ch e (Nat.pos_of_ne_zero h0) hne
      obtain ⟨rest, hrest⟩ := hpre
      have hlen := congrArg List.length hrest
      rw [List.length_append] at hlen
      have hdrop : s.left.drop bs.length = rest := by rw [← hrest, List.drop_left]
      have hfit : remaining - bs.length ≤ rest.length := by omega
      obtain ⟨calls, tr, hrun⟩ := ih (remaining - bs.length) (by omega)
        (store buffer offset bs) (offset + bs.length) ⟨rest, s.calls + 1⟩ hfit
      have htake : s.left.take remaining = bs ++ rest.take (remaining - bs.length) := by
        rw [← hrest, List.take_append, List.take_of_length_le le]
      have hleft : s.left.drop remaining = rest.drop (remaining - bs.length) := by
        rw [← hrest, List.drop_append, List.drop_eq_nil_of_le le, List.nil_append]
      refine ⟨calls, ⟨.read fd offset remaining, .data bs pos le⟩ :: tr, ?_⟩
      simp only [run_call, streamEnv, hread, hdrop, hrun, htake, hleft, store_append]

theorem run_readLoop_short (fd : Fd) (nbyte : Nat) (buffer : Buffer) (offset remaining : Nat)
    (s : Stream) (h : s.left.length < remaining) :
    ∃ len buffer' calls tr, len ≤ 0 ∧ SawEnding e tr ∧
      run (streamEnv ch e) (readLoop fd nbyte buffer offset remaining) s =
        ⟨(len, buffer'), ⟨[], calls⟩, tr⟩ := by
  induction remaining using Nat.strongRecOn generalizing buffer offset s with
  | ind remaining ih =>
    have h0 : remaining ≠ 0 := by omega
    rw [readLoop, if_neg h0]
    by_cases hnil : s.left = []
    · have hread := s.read_end ch e remaining hnil
      have hsaw : SawEnding e [⟨.read fd offset remaining, e.result remaining⟩] :=
        ⟨fd, offset, remaining, List.mem_singleton.mpr rfl⟩
      cases e with
      | eof =>
        refine ⟨0, buffer, s.calls + 1, _, Int.le_refl 0, hsaw, ?_⟩
        simp only [run_call, streamEnv, hread, Ending.result, run_ret]
      | error =>
        refine ⟨-1, buffer, s.calls + 1, _, by omega, hsaw, ?_⟩
        simp only [run_call, streamEnv, hread, Ending.result, run_ret]
    · obtain ⟨bs, pos, le, hpre, hread⟩ := s.read_data ch e (Nat.pos_of_ne_zero h0) hnil
      obtain ⟨rest, hrest⟩ := hpre
      have hlen := congrArg List.length hrest
      rw [List.length_append] at hlen
      have hdrop : s.left.drop bs.length = rest := by rw [← hrest, List.drop_left]
      have hshort : rest.length < remaining - bs.length := by omega
      obtain ⟨len, buffer', calls, tr, hneg, ⟨fd', o', n', hsaw⟩, hrun⟩ :=
        ih (remaining - bs.length) (by omega) (store buffer offset bs) (offset + bs.length)
          ⟨rest, s.calls + 1⟩ hshort
      refine ⟨len, buffer', calls, ⟨.read fd offset remaining, .data bs pos le⟩ :: tr, hneg,
        ⟨fd', o', n', List.mem_cons_of_mem _ hsaw⟩, ?_⟩
      simp only [run_call, streamEnv, hread, hdrop, hrun]

/-- The first bytes of the stream that decide how long the frame is. -/
theorem frameLength_left (s : List UInt8) (buffer : Buffer) (h : headerLength ≤ s.length) :
    frameLength s = headerLength + messageLength (store buffer 0 (s.take headerLength) 1)
      (store buffer 0 (s.take headerLength) 2) (store buffer 0 (s.take headerLength) 3) := by
  have hlen : (s.take headerLength).length = headerLength := by
    rw [List.length_take, Nat.min_eq_left h]
  have hf := frameLength_store buffer (s.take headerLength) (s.drop headerLength) hlen
  rwa [List.take_append_drop] at hf

/-- After a complete header `readMessage` either refuses the size or reads on. -/
theorem run_readMessage_header (fd : Fd) (buffer : Buffer) (s : Stream)
    (h : headerLength ≤ s.left.length) :
    ∃ calls tr, let m := frameLength s.left - headerLength
      let o := run (streamEnv ch e)
        (readLoop fd m (store buffer 0 (s.left.take headerLength)) headerLength m)
        ⟨s.left.drop headerLength, calls⟩
      run (streamEnv ch e) (readMessage fd buffer maxFrame) s =
        if maxFrame < headerLength + m then
          ⟨(-1, store buffer 0 (s.left.take headerLength)), ⟨s.left.drop headerLength, calls⟩, tr⟩
        else if o.value.1 ≤ 0 then ⟨o.value, o.state, tr ++ o.trace⟩
        else ⟨((headerLength + m : Nat), o.value.2), o.state, tr ++ o.trace⟩ := by
  obtain ⟨calls, tr, hrun⟩ := run_readLoop_full ch e fd headerLength buffer 0 headerLength s h
  have hm : frameLength s.left - headerLength =
      messageLength (store buffer 0 (s.left.take headerLength) 1)
        (store buffer 0 (s.left.take headerLength) 2)
        (store buffer 0 (s.left.take headerLength) 3) := by
    rw [frameLength_left s.left buffer h, Nat.add_sub_cancel_left]
  have hpos : ¬ ((headerLength : Nat) : Int) ≤ 0 := by simp [headerLength]
  by_cases hbig : maxFrame < headerLength + (frameLength s.left - headerLength)
  · refine ⟨calls, tr ++ [⟨.setErrnoEmsgsize, ()⟩], ?_⟩
    simp only [readMessage, readFully, run_bind, hrun, hpos, if_false, ← hm, hbig, if_true]
    rfl
  · refine ⟨calls, tr, ?_⟩
    simp only [readMessage, readFully, run_bind, hrun, hpos, if_false, ← hm, hbig]
    split <;> simp

/-- With a complete frame ahead that has more than a header, `readMessage` takes
exactly that frame. -/
theorem run_readMessage_some (fd : Fd) (buffer : Buffer) {s : Stream} {b rest : List UInt8}
    (h : nextFrame s.left = some (b, rest)) (hbody : headerLength < b.length) :
    ∃ calls tr, run (streamEnv ch e) (readMessage fd buffer maxFrame) s =
      ⟨(b.length, store buffer 0 b), ⟨rest, calls⟩, tr⟩ := by
  obtain ⟨hmax, hlen, rfl, rfl⟩ := nextFrame_eq_some h
  rw [List.length_take, Nat.min_eq_left hlen] at hbody ⊢
  obtain ⟨calls, tr, hrun⟩ := run_readMessage_header ch e fd buffer s (by omega)
  obtain ⟨calls', tr', hrun'⟩ := run_readLoop_full ch e fd (frameLength s.left - headerLength)
    (store buffer 0 (s.left.take headerLength)) headerLength (frameLength s.left - headerLength)
    ⟨s.left.drop headerLength, calls⟩ (by simp only [List.length_drop]; omega)
  have hsum : headerLength + (frameLength s.left - headerLength) = frameLength s.left := by omega
  have hfit : ¬ maxFrame < frameLength s.left := by omega
  have hpos : ¬ ((frameLength s.left - headerLength : Nat) : Int) ≤ 0 := by omega
  have hhead : (s.left.take headerLength).length = headerLength := by
    rw [List.length_take]
    omega
  have hstore : store (store buffer 0 (s.left.take headerLength)) headerLength
      ((s.left.drop headerLength).take (frameLength s.left - headerLength)) =
        store buffer 0 (s.left.take (frameLength s.left)) := by
    have happ := store_append buffer 0 (s.left.take headerLength)
      ((s.left.drop headerLength).take (frameLength s.left - headerLength))
    rw [Nat.zero_add, hhead, ← List.take_add, hsum] at happ
    exact happ
  refine ⟨calls', tr ++ tr', ?_⟩
  simp only [hrun, hrun', hsum, hfit, if_false, hpos, hstore, List.drop_drop]

/-- With no complete frame ahead, or one that is only a header, `readMessage`
reports no message. -/
theorem run_readMessage_stop (fd : Fd) (buffer : Buffer) (s : Stream)
    (h : ∀ b rest, nextFrame s.left = some (b, rest) → b.length = headerLength) :
    ∃ len buffer' s' tr, len ≤ 0 ∧ (s.left = [] → SawEnding e tr) ∧
      run (streamEnv ch e) (readMessage fd buffer maxFrame) s = ⟨(len, buffer'), s', tr⟩ := by
  by_cases hshort : s.left.length < headerLength
  · obtain ⟨len, buffer', calls, tr, hneg, hsaw, hrun⟩ :=
      run_readLoop_short ch e fd headerLength buffer 0 headerLength s hshort
    refine ⟨len, buffer', ⟨[], calls⟩, tr, hneg, fun _ => hsaw, ?_⟩
    simp only [readMessage, readFully, run_bind, hrun, hneg, if_true]
    simp
  · obtain ⟨calls, tr, hrun⟩ := run_readMessage_header ch e fd buffer s (by omega)
    have hne : s.left = [] → False := fun hnil => hshort (by simp [hnil, headerLength])
    rw [hrun]
    split
    next hbig => exact ⟨-1, _, _, tr, by omega, fun hnil => (hne hnil).elim, rfl⟩
    next hfit =>
      split
      next hneg => exact ⟨_, _, _, _, hneg, fun hnil => (hne hnil).elim, rfl⟩
      next hpos =>
        exfalso
        have hlen := frameLength_left s.left buffer (by omega)
        generalize hm : frameLength s.left - headerLength = m at hfit hpos
        have hpos_m : m ≠ 0 := by
          intro h0
          subst h0
          exact hpos (by simp [readLoop])
        by_cases hleft : m ≤ (s.left.drop headerLength).length
        · obtain ⟨calls', tr', hrun'⟩ := run_readLoop_full ch e fd m
            (store buffer 0 (s.left.take headerLength)) headerLength m
            ⟨s.left.drop headerLength, calls⟩ hleft
          rw [List.length_drop] at hleft
          have hsome := nextFrame_of_le (s := s.left) (by omega) (by omega) (by omega)
          have hbare := h _ _ hsome
          rw [List.length_take] at hbare
          omega
        · obtain ⟨len, buffer', calls', tr', hneg, -, hrun'⟩ := run_readLoop_short ch e fd m
            (store buffer 0 (s.left.take headerLength)) headerLength m
            ⟨s.left.drop headerLength, calls⟩ (by simpa using hleft)
          rw [hrun'] at hpos
          exact hpos hneg

theorem run_checkBlock (buffer : Buffer) (b : List UInt8) (s : Stream) (h : b ≠ []) :
    ∃ tr, blocks tr = [b] ∧
      run (streamEnv ch e) (checkBlock .tcpToUsb b.length (store buffer 0 b)) s =
        ⟨some (store buffer 0 b), s, tr⟩ := by
  have hlen := List.length_pos_iff.mpr h
  have hneg : ¬ (b.length : Int) < 0 := by omega
  have hzero : ¬ (b.length : Int) = 0 := by omega
  have hblock : contents (store buffer 0 b) (b.length : Int).toNat = b := by
    rw [Int.toNat_natCast, contents_store]
  let look : Event Call Answer := ⟨.shouldExit, false⟩
  refine ⟨[look, ⟨.write .usb b, .accepted b.length (Nat.le_refl _)⟩, look], rfl, ?_⟩
  rw [checkBlock, if_neg hneg, if_neg hzero, hblock]
  rfl

theorem run_forwardRound_some (buffer : Buffer) {s : Stream} {b rest : List UInt8}
    (h : nextFrame s.left = some (b, rest)) (hbody : headerLength < b.length) :
    ∃ calls tr, blocks tr = [b] ∧
      run (streamEnv ch e) (forwardRound .tcpToUsb buffer) s =
        ⟨some (store buffer 0 b), ⟨rest, calls⟩, tr⟩ := by
  obtain ⟨calls, tr, hrun⟩ := run_readMessage_some ch e .tcp buffer h hbody
  have hreads : blocks tr = [] := by
    have ht := run_traces (streamEnv ch e) (readMessage .tcp buffer maxFrame) s
    rw [hrun] at ht
    exact blocks_eq_nil ((readBlock_quiet .tcpToUsb _).traces ht)
  obtain ⟨tr', hsent, hrun'⟩ := run_checkBlock ch e buffer b ⟨rest, calls⟩
    (by intro hnil; simp [hnil] at hbody)
  let look : Event Call Answer := ⟨.shouldExit, false⟩
  refine ⟨calls, look :: (tr ++ tr'), ?_, ?_⟩
  · change blocks ([look] ++ (tr ++ tr')) = [b]
    rw [blocks_append, blocks_append, hreads, hsent]
    rfl
  · simp only [forwardRound, unlessStopped, run_call, streamEnv, Bool.false_eq_true, if_false,
      readBlock, readFd, run_bind, hrun, hrun']
    rfl

theorem run_forwardRound_stop (buffer : Buffer) (s : Stream)
    (h : ∀ b rest, nextFrame s.left = some (b, rest) → b.length = headerLength) :
    ∃ s' tr, blocks tr = [] ∧ (s.left = [] → SawEnding e tr) ∧
      run (streamEnv ch e) (forwardRound .tcpToUsb buffer) s = ⟨none, s', tr⟩ := by
  obtain ⟨len, buffer', s', tr, hle, hsaw, hrun⟩ := run_readMessage_stop ch e .tcp buffer s h
  have hreads : blocks tr = [] := by
    have ht := run_traces (streamEnv ch e) (readMessage .tcp buffer maxFrame) s
    rw [hrun] at ht
    exact blocks_eq_nil ((readBlock_quiet .tcpToUsb _).traces ht)
  have hcheck : checkBlock .tcpToUsb len buffer' = .ret none := by
    unfold checkBlock
    split
    · rfl
    · rw [if_pos (by omega)]
  let look : Event Call Answer := ⟨.shouldExit, false⟩
  refine ⟨s', look :: tr, hreads, fun hnil => ?_, ?_⟩
  · obtain ⟨fd, o, n, hmem⟩ := hsaw hnil
    exact ⟨fd, o, n, List.mem_cons_of_mem _ hmem⟩
  · simp only [forwardRound, unlessStopped, run_call, streamEnv, Bool.false_eq_true, if_false,
      readBlock, readFd, run_bind, hrun, hcheck, run_ret, List.append_nil]
    rfl

/-- The loop writes the complete frames of the stream up to the first one that is
only a header; it meets the end if there is no such frame and nothing is left over. -/
theorem run_forwardLoop (n : Nat) (buffer : Buffer) (s : Stream) (h : s.left.length < n) :
    ∃ s' tr, blocks tr = (cutFrames s.left).takeWhile (headerLength < ·.length) ∧
      ((∀ b ∈ cutFrames s.left, headerLength < b.length) →
        (cutFrames s.left).flatten = s.left → SawEnding e tr) ∧
      run (streamEnv ch e) (loop (forwardRound .tcpToUsb) n buffer) s = ⟨true, s', tr⟩ := by
  induction n generalizing buffer s with
  | zero => omega
  | succ n ih =>
    have hstop (hs : ∀ b rest, nextFrame s.left = some (b, rest) → b.length = headerLength) :
        ∃ s' tr, blocks tr = [] ∧ (s.left = [] → SawEnding e tr) ∧
          run (streamEnv ch e) (loop (forwardRound .tcpToUsb) (n+1) buffer) s =
            ⟨true, s', tr⟩ := by
      obtain ⟨s', tr, hb, hsaw, hrun⟩ := run_forwardRound_stop ch e buffer s hs
      exact ⟨s', tr, hb, hsaw, by simp [loop, run_bind, hrun]⟩
    cases hnext : nextFrame s.left with
    | none =>
      obtain ⟨s', tr, hb, hsaw, hrun⟩ := hstop (by simp [hnext])
      refine ⟨s', tr, by simp [cutFrames_none hnext, hb], fun _ hflat => ?_, hrun⟩
      rw [cutFrames_none hnext, List.flatten_nil] at hflat
      exact hsaw hflat.symm
    | some p =>
      obtain ⟨b, rest⟩ := p
      obtain ⟨hs, h4, -⟩ := nextFrame_spec hnext
      rw [cutFrames_some hnext]
      by_cases hbody : headerLength < b.length
      · obtain ⟨calls, tr₁, hb₁, hrun₁⟩ := run_forwardRound_some ch e buffer hnext hbody
        have hrest : rest.length < n := by
          rw [hs, List.length_append] at h
          omega
        obtain ⟨s', tr₂, hb₂, hsaw, hrun₂⟩ := ih (store buffer 0 b) ⟨rest, calls⟩ hrest
        refine ⟨s', tr₁ ++ tr₂, ?_, ?_, by simp [loop, run_bind, hrun₁, hrun₂]⟩
        · simp [hb₁, hb₂, hbody]
        · intro hall hflat
          rw [List.flatten_cons, hs] at hflat
          obtain ⟨fd, o, n', hmem⟩ := hsaw (fun b' hb' => hall b' (List.mem_cons_of_mem _ hb'))
            (List.append_cancel_left hflat)
          exact ⟨fd, o, n', List.mem_append_right _ hmem⟩
      · have hbare : b.length = headerLength := by
          simp only [headerLength] at hbody ⊢
          omega
        obtain ⟨s', tr, hb, -, hrun⟩ := hstop (by
          intro b' rest' heq
          rw [hnext] at heq
          cases heq
          exact hbare)
        exact ⟨s', tr, by simp [hb, hbody], fun hall => absurd (hall b (by simp)) hbody, hrun⟩

/-- `forward` on a phone stream, with at least one round more than there are bytes. -/
def forwardStream (ch : Chunking) (e : Ending) (buffer : Buffer) (stream : List UInt8) (k : Nat) :
    Outcome Call Answer Stream Bool :=
  run (streamEnv ch e) (forward (stream.length + 1 + k) .tcpToUsb buffer) ⟨stream, 0⟩

theorem run_forwardStream (buffer : Buffer) (stream : List UInt8) (k : Nat) :
    (forwardStream ch e buffer stream k).value = true ∧
      blocks (forwardStream ch e buffer stream k).trace =
        (cutFrames stream).takeWhile (headerLength < ·.length) ∧
      ((∀ b ∈ cutFrames stream, headerLength < b.length) → (cutFrames stream).flatten = stream →
        SawEnding e (forwardStream ch e buffer stream k).trace) := by
  obtain ⟨s', tr, hb, hsaw, hrun⟩ := run_forwardLoop ch e (stream.length + 1 + k) buffer
    ⟨stream, 0⟩ (by simp only; omega)
  have hstop := stopForwarding_only.traces (run_traces (streamEnv ch e) stopForwarding s')
  refine ⟨by simp [forwardStream, forward, run_bind, hrun], ?_, fun hall hflat => ?_⟩
  · simp [forwardStream, forward, run_bind, hrun, hb, blocks_eq_nil hstop]
  · obtain ⟨fd, o, n, hmem⟩ := hsaw hall hflat
    exact ⟨fd, o, n, by simp [forwardStream, forward, run_bind, hrun, hmem]⟩

/-- Two ways of splitting one stream lead to the same writes. Each block is one
complete frame made of the bytes read since the block before it, and the blocks
are an initial piece of the stream. -/
theorem forward_chunking_independent (stream : List UInt8) (e : Ending) (ch₁ ch₂ : Chunking)
    (buffer₁ buffer₂ : Buffer) (k₁ k₂ : Nat) :
    (forwardStream ch₁ e buffer₁ stream k₁).value = true ∧
      (forwardStream ch₂ e buffer₂ stream k₂).value = true ∧
      blocks (forwardStream ch₁ e buffer₁ stream k₁).trace =
        blocks (forwardStream ch₂ e buffer₂ stream k₂).trace ∧
      (∀ b ∈ blocks (forwardStream ch₁ e buffer₁ stream k₁).trace, ∃ f : Frame, f.bytes = b) ∧
      Carried [] (forwardStream ch₁ e buffer₁ stream k₁).trace ∧
      (blocks (forwardStream ch₁ e buffer₁ stream k₁).trace).flatten <+: stream := by
  obtain ⟨hv₁, hb₁, -⟩ := run_forwardStream ch₁ e buffer₁ stream k₁
  obtain ⟨hv₂, hb₂, -⟩ := run_forwardStream ch₂ e buffer₂ stream k₂
  obtain ⟨hflat, hframes⟩ := cutFrames_spec stream
  have hsub := List.takeWhile_prefix (headerLength < ·.length) (l := cutFrames stream)
  refine ⟨hv₁, hv₂, hb₁.trans hb₂.symm, ?_, (forward_sound (run_traces _ _ _)).carried, ?_⟩
  · rw [hb₁]
    exact fun b hb => hframes b (hsub.subset hb)
  · rw [hb₁]
    obtain ⟨rest, hrest⟩ := hsub
    rw [← hrest, List.flatten_append] at hflat
    exact (List.prefix_append _ _).trans hflat

/-- Every frame was written, in order, one write each, and the loop ran until the
end of the stream. -/
def Forwarded (frames : List Frame) (o : Outcome Call Answer Stream Bool) : Prop :=
  o.value = true ∧ blocks o.trace = frames.map Frame.bytes ∧ SawEnding .eof o.trace

/-- A stream of frames is forwarded completely, however it is split, exactly when
every frame has at least one byte after its four header bytes. -/
theorem forward_complete_iff (frames : List Frame) (ch : Chunking) (buffer : Buffer) (k : Nat) :
    Forwarded frames (forwardStream ch .eof buffer (frames.flatMap Frame.bytes) k) ↔
      ∀ f ∈ frames, f.extra ≠ [] ∨ f.payload ≠ [] := by
  obtain ⟨hv, hb, hsaw⟩ := run_forwardStream ch .eof buffer (frames.flatMap Frame.bytes) k
  have hflat : (frames.map Frame.bytes).flatten = frames.flatMap Frame.bytes :=
    (List.flatMap_def).symm
  rw [cutFrames_stream] at hb hsaw
  have hbody (f : Frame) : headerLength < f.bytes.length ↔ f.extra ≠ [] ∨ f.payload ≠ [] := by
    rw [f.bytes_length, ← List.length_pos_iff, ← List.length_pos_iff]
    simp only [headerLength]
    omega
  constructor
  · intro hf f hmem
    obtain ⟨-, hall, -⟩ := hf
    rw [hb, List.takeWhile_eq_self_iff] at hall
    have hlong := hall f.bytes (List.mem_map_of_mem hmem)
    exact (hbody f).mp (by simpa using hlong)
  · intro hall
    have hlong : ∀ b ∈ frames.map Frame.bytes, headerLength < b.length := by
      intro b hmem
      obtain ⟨f, hf, rfl⟩ := List.mem_map.mp hmem
      exact (hbody f).mpr (hall f hf)
    refine ⟨hv, ?_, hsaw hlong hflat⟩
    rw [hb, List.takeWhile_eq_self_iff]
    exact fun b hmem => by simpa using hlong b hmem

/-- A frame without payload: channel 0, flags FIRST and LAST, length 0. -/
def emptyFrame : Frame := ⟨0, 3, [], [], rfl, by decide⟩

/-- One empty frame, delivered whole: it is never written. -/
theorem forward_drops_empty_frame : ¬ Forwarded [emptyFrame]
    (forwardStream .whole .eof (fun _ => 0) ([emptyFrame].flatMap Frame.bytes) 0) := by
  intro hf
  obtain ⟨-, hb, -⟩ := run_forwardStream .whole .eof (fun _ => 0)
    ([emptyFrame].flatMap Frame.bytes) 0
  have hnone := hb.symm.trans hf.2.1
  rw [cutFrames_stream] at hnone
  exact absurd hnone (by decide)

end Aawgd
