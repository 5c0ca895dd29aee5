import Aawgd.FrameReader

/-! Bounds of the frame reader. `readFully` and `readMessage` are given once more in the
machine's integers: `size_t` and `ssize_t` of 64 bits, the header bytes promoted to `int`.
Every trace of theirs is a trace of the reader over the natural numbers, whose reads stay
in the buffer; so do theirs, and no counter wraps. -/
namespace Aawgd.Machine
open ByteStream CallProgram

/-- The `ssize_t` that `read` returns. -/
def returned {n : Nat} : ReadResult n → Int64
  | .error => -1
  | .eof => 0
  | .data bytes _ _ => Int64.ofNat bytes.length

/-! Conversions that keep the value -/

theorem toInt_of_pos {m : Nat} (hm : m < 2 ^ 64) (h : 0 < Int64.ofNat m) :
    (Int64.ofNat m).toInt = m := by
  have h0 : 0 < (Int64.ofNat m).toInt := Int64.lt_iff_toInt_lt.mp h
  have hsize : Int64.size = 2 ^ 64 := rfl
  rw [Int64.toInt_ofNat', hsize, Int.bmod_def] at h0 ⊢
  split at h0 <;> split <;> omega

theorem ofNat_pos {m : Nat} (h0 : 0 < m) (hm : m < 2 ^ 63) : 0 < Int64.ofNat m := by
  rw [Int64.lt_iff_toInt_lt, Int64.toInt_ofNat_of_lt hm]
  exact Int.natCast_pos.mpr h0

theorem toInt64_toInt {n : UInt64} (h : 0 < n.toInt64 ∨ n.toNat < 2 ^ 63) :
    n.toInt64.toInt = n.toNat := by
  have hn : n.toInt64 = Int64.ofNat n.toNat := by rw [← UInt64.toInt64_ofNat', UInt64.ofNat_toNat]
  rw [hn] at h ⊢
  cases h with
  | inl hpos => exact toInt_of_pos n.toNat_lt hpos
  | inr hlt => exact Int64.toInt_ofNat_of_lt hlt

/-- A positive result is the number of bytes read, as a signed and as an unsigned value. -/
theorem returned_of_pos {n : Nat} (hn : n < 2 ^ 64) (r : ReadResult n) (h : 0 < returned r) :
    (returned r).toNatClampNeg = r.bytes.length ∧
      (returned r).toUInt64.toNat = r.bytes.length ∧
      0 < r.bytes.length ∧ r.bytes.length ≤ n := by
  cases r with
  | error => exact absurd h (show ¬ (0 : Int64) < -1 by decide)
  | eof => exact absurd h (show ¬ (0 : Int64) < 0 by decide)
  | data bytes pos le =>
    have hint : (Int64.ofNat bytes.length).toInt = bytes.length := toInt_of_pos (by omega) h
    have hnat : (Int64.ofNat bytes.length).toNatClampNeg = bytes.length := by
      simp [Int64.toNatClampNeg, hint]
    refine ⟨hnat, ?_, pos, le⟩
    exact (Int64.toNat_toUInt64_of_le (Int64.le_of_lt h)).trans hnat

/-! The functions -/

/-- The loop of `readFully`: the pointer is at `offset`, `remaining` is `remaining_bytes`. -/
def readLoop (fd : Fd) (nbyte : UInt64) (buffer : Buffer) (offset : Nat) (remaining : UInt64) :
    Proxy (Int64 × Buffer) :=
  if 0 < remaining then .call (.read fd offset remaining.toNat) fun r =>
    if 0 < returned r then
      readLoop fd nbyte (store buffer offset r.bytes) (offset + (returned r).toNatClampNeg)
        (remaining - (returned r).toUInt64)
    else .ret (returned r, store buffer offset r.bytes)
  else .ret (nbyte.toInt64, buffer)
  termination_by remaining.toNat
  decreasing_by
    obtain ⟨-, hlen, hpos, hle⟩ := returned_of_pos remaining.toNat_lt r ‹_›
    rw [UInt64.toNat_sub_of_le _ _ (UInt64.le_iff_toNat_le.mpr (by omega))]
    omega

/-- `AAWProxy::readFully`. -/
def readFully (fd : Fd) (buffer : Buffer) (offset : Nat) (nbyte : UInt64) :
    Proxy (Int64 × Buffer) :=
  readLoop fd nbyte buffer offset nbyte

/-- `message_length`, from the last three header bytes: the shift and the first sum are in
`int`, the rest in `size_t`. -/
def messageLength (flags high low : UInt8) : UInt64 :=
  let length := (high.toUInt32.toInt32 <<< 8 + low.toUInt32.toInt32).toInt64.toUInt64
  if flags &&& FRAME_TYPE_MASK = FRAME_TYPE_FIRST then length + 4 else length

def headerLength : UInt64 := 4

/-- `AAWProxy::readMessage`. -/
def readMessage (fd : Fd) (buffer : Buffer) (bufferLen : UInt64) : Proxy (Int64 × Buffer) := do
  let (len, buffer) ← readFully fd buffer 0 headerLength
  if len ≤ 0 then return (len, buffer)
  let length := messageLength (buffer 1) (buffer 2) (buffer 3)
  if headerLength + length > bufferLen then
    sys .setErrnoEmsgsize
    return (-1, buffer)
  let (len, buffer) ← readFully fd buffer headerLength.toNat length
  if len ≤ 0 then return (len, buffer)
  return ((headerLength + length).toInt64, buffer)

/-! Refinement of the reader over the natural numbers -/

theorem int_length_toNat (high low : UInt8) :
    (high.toUInt32.toInt32 <<< 8 + low.toUInt32.toInt32).toInt64.toUInt64.toNat =
      high.toNat <<< 8 + low.toNat := by
  have hh := high.toNat_lt
  have hl := low.toNat_lt
  let sum : BitVec 32 := high.toBitVec.setWidth 32 <<< 8 + low.toBitVec.setWidth 32
  have hsum : sum.toNat = high.toNat <<< 8 + low.toNat := by
    simp [sum, Nat.shiftLeft_eq]
    omega
  have hmsb : sum.msb = false := by
    rw [BitVec.msb_eq_decide, hsum]
    simp [Nat.shiftLeft_eq]
    omega
  calc
    _ = (sum.signExtend 64).toNat := rfl
    _ = sum.toNat := by
      rw [BitVec.signExtend_eq_setWidth_of_msb_false hmsb, BitVec.toNat_setWidth]
      omega
    _ = _ := hsum

theorem messageLength_toNat (flags high low : UInt8) :
    (messageLength flags high low).toNat = Aawgd.messageLength flags high low := by
  have hh := high.toNat_lt
  have hl := low.toNat_lt
  have hlen := int_length_toNat high low
  have hshift : high.toNat <<< 8 = 256 * high.toNat := by
    rw [Nat.shiftLeft_eq]
    omega
  simp only [messageLength, Aawgd.messageLength]
  split
  · have h4 : (4 : UInt64).toNat = 4 := rfl
    rw [UInt64.toNat_add, hlen, h4]
    omega
  · exact hlen

/-- The result as an integer, with the buffer. -/
abbrev widen (v : Int64 × Buffer) : Int × Buffer := (v.1.toInt, v.2)

/-- A result that is not positive ends both loops, but for a count that only the machine
takes for negative; that one does not fit a `ssize_t`. -/
theorem readLoop_stops {fd : Fd} {nbyte remaining : UInt64} {buffer : Buffer} {offset : Nat}
    (hne : remaining.toNat ≠ 0) {r : ReadResult remaining.toNat} (hr : ¬ 0 < returned r) :
    ∃ o', Traces (Aawgd.readLoop fd nbyte.toNat buffer offset remaining.toNat)
        [⟨.read fd offset remaining.toNat, r⟩] o' ∧
      (remaining.toNat < 2 ^ 63 → o' = some (widen (returned r, store buffer offset r.bytes))) := by
  rw [Aawgd.readLoop, if_neg hne]
  cases r with
  | error =>
    refine ⟨some (-1, buffer), .call _ _ _ (.ret _), fun _ => ?_⟩
    simp [widen, returned, ReadResult.bytes]
  | eof =>
    refine ⟨some (0, buffer), .call _ _ _ (.ret _), fun _ => ?_⟩
    simp [widen, returned, ReadResult.bytes]
  | data bytes pos le =>
    exact ⟨none, .call _ _ _ (.stop _), fun hsmall => absurd (ofNat_pos pos (by omega)) hr⟩

/-- What the loop does the loop over the natural numbers does too. The results agree when
the lengths fit a `ssize_t`, and whenever the machine's result is positive. -/
theorem readLoop_refines {fd : Fd} {nbyte remaining : UInt64} {buffer : Buffer} {offset : Nat}
    {tr : Trace} {o : Option (Int64 × Buffer)}
    (h : Traces (readLoop fd nbyte buffer offset remaining) tr o) :
    ∃ o', Traces (Aawgd.readLoop fd nbyte.toNat buffer offset remaining.toNat) tr o' ∧
      ∀ v, o = some v → 0 < v.1 ∨ nbyte.toNat < 2 ^ 63 ∧ remaining.toNat < 2 ^ 63 →
        o' = some (widen v) := by
  induction hn : remaining.toNat using Nat.strongRecOn
    generalizing remaining buffer offset tr with
  | ind m ih =>
    subst hn
    rw [readLoop] at h
    split at h
    next hpos =>
      have hne : remaining.toNat ≠ 0 := by
        have := UInt64.lt_iff_toNat_lt.mp hpos
        omega
      cases h with
      | stop => exact ⟨none, .stop _, by simp⟩
      | call c k r tail =>
        by_cases hr : 0 < returned r
        · simp only [if_pos hr] at tail
          obtain ⟨hptr, hlen, h0, hle⟩ := returned_of_pos remaining.toNat_lt r hr
          have hsub : (remaining - (returned r).toUInt64).toNat =
              remaining.toNat - r.bytes.length := by
            rw [UInt64.toNat_sub_of_le _ _ (UInt64.le_iff_toNat_le.mpr (by omega)), hlen]
          obtain ⟨o', ht, ho⟩ := ih _ (by omega) tail rfl
          cases r with
          | error | eof => simp [ReadResult.bytes] at h0
          | data bytes pos le =>
            rw [hptr, hsub] at ht
            rw [Aawgd.readLoop, if_neg hne]
            refine ⟨o', .call _ _ _ ht, fun v hv hsize => ho v hv ?_⟩
            exact hsize.imp_right fun hsmall => ⟨hsmall.1, by omega⟩
        · simp only [if_neg hr] at tail
          obtain ⟨rfl, hv⟩ := traces_done tail
          obtain ⟨o', ht, ho⟩ := readLoop_stops hne hr
          refine ⟨o', ht, fun v h hsize => ?_⟩
          cases hv v h
          exact ho (hsize.resolve_left hr).2
    next hzero =>
      have h0 : remaining.toNat = 0 := by
        have := mt UInt64.lt_iff_toNat_lt.mpr hzero
        simpa using this
      rw [Aawgd.readLoop, if_pos h0]
      obtain ⟨rfl, ho⟩ := traces_done h
      refine ⟨some (nbyte.toNat, buffer), .ret _, fun v hv hsize => ?_⟩
      cases ho v hv
      simp [widen, toInt64_toInt (hsize.imp_right And.left)]

/-- With a length that fits a `ssize_t`, `readFully` is the one over the natural numbers. -/
theorem readFully_refines (fd : Fd) (buffer : Buffer) (offset : Nat) {nbyte : UInt64}
    (hn : nbyte.toNat < 2 ^ 63) : Refines widen (readFully fd buffer offset nbyte)
      (Aawgd.readFully fd buffer offset nbyte.toNat) := by
  intro tr o h
  obtain ⟨o', ht, ho⟩ := readLoop_refines h
  cases o with
  | none => exact ht.cut
  | some v =>
    rw [ho v rfl (.inr ⟨hn, hn⟩)] at ht
    exact ht

theorem messageLength_lt (flags high low : UInt8) :
    (messageLength flags high low).toNat < 2 ^ 17 := by
  have hh := high.toNat_lt
  have hl := low.toNat_lt
  rw [messageLength_toNat, messageLength_eq]
  split <;> omega

/-- The sum with the header length does not wrap. -/
theorem frameLength_toNat (flags high low : UInt8) :
    (headerLength + messageLength flags high low).toNat =
      Aawgd.headerLength + Aawgd.messageLength flags high low := by
  have hlt := messageLength_lt flags high low
  have h4 : headerLength.toNat = Aawgd.headerLength := rfl
  rw [UInt64.toNat_add, messageLength_toNat, h4]
  rw [messageLength_toNat] at hlt
  unfold Aawgd.headerLength
  omega

theorem readMessage_refines (fd : Fd) (buffer : Buffer) (bufferLen : UInt64) :
    Refines widen (readMessage fd buffer bufferLen)
      (Aawgd.readMessage fd buffer bufferLen.toNat) := by
  refine (readFully_refines fd buffer 0 (by decide)).bind fun ⟨len, buffer⟩ => ?_
  have hlen : ∀ len : Int64, len ≤ 0 ↔ len.toInt ≤ 0 := fun _ => Int64.le_iff_toInt_le
  have hmessage := messageLength_toNat (buffer 1) (buffer 2) (buffer 3)
  have hframe := frameLength_toNat (buffer 1) (buffer 2) (buffer 3)
  have hlt := messageLength_lt (buffer 1) (buffer 2) (buffer 3)
  have h4 : Aawgd.headerLength = 4 := rfl
  dsimp only [widen]
  simp only [hlen, gt_iff_lt, UInt64.lt_iff_toNat_lt, hframe]
  split
  · exact Refines.ret widen _
  split
  · exact Refines.call fun _ => Refines.ret widen (-1, buffer)
  rw [← hmessage]
  refine (readFully_refines fd buffer 4 (by omega)).bind fun ⟨len, buffer'⟩ => ?_
  split
  · exact Refines.ret widen _
  · rw [hmessage, ← hframe, ← toInt64_toInt (.inr (by omega))]
    exact Refines.ret widen _

/-! The reads of a trace -/

/-- Each read of the trace asks for exactly what is missing of the `n` bytes at `start`,
right behind those that came before it, and something is missing. -/
def Fills (fd : Fd) (start n : Nat) (tr : Trace) : Prop :=
  ∀ before ev after, tr = before ++ ev :: after → (consumed before).length < n ∧
    ev.1 = .read fd (start + (consumed before).length) (n - (consumed before).length)

theorem fills_nil (fd : Fd) (start n : Nat) : Fills fd start n [] := by
  intro before ev after h
  simp at h

theorem fills_cons {fd : Fd} {start n : Nat} {ev : Event Call Answer} {tr : Trace}
    (hn : 0 < n) (hev : ev.1 = .read fd start n)
    (htr : Fills fd (start + (eventBytes ev).length) (n - (eventBytes ev).length) tr) :
    Fills fd start n (ev :: tr) := by
  intro before ev' after h
  cases before with
  | nil =>
    obtain ⟨rfl, -⟩ := List.cons_eq_cons.mp h
    exact ⟨hn, hev⟩
  | cons b before =>
    obtain ⟨rfl, h'⟩ := List.cons_eq_cons.mp h
    obtain ⟨hlt, hread⟩ := htr before ev' after h'
    rw [consumed_cons, List.length_append]
    refine ⟨by omega, ?_⟩
    rw [hread, Nat.add_assoc, Nat.sub_sub]

/-- `readFully` asks for what is missing, at most once for each byte, and without success
it ends before the last one. -/
theorem readLoop_fills {fd : Fd} {nbyte offset remaining : Nat} {buffer : Buffer} {tr : Trace}
    {o : Option (Int × Buffer)}
    (h : Traces (Aawgd.readLoop fd nbyte buffer offset remaining) tr o) :
    Fills fd offset remaining tr ∧ tr.length ≤ remaining ∧
      ∀ v, o = some v → v.1 = nbyte ∨ v.1 ≤ 0 ∧ (consumed tr).length < remaining := by
  induction remaining using Nat.strongRecOn generalizing buffer offset tr with
  | ind remaining ih =>
    rw [Aawgd.readLoop] at h
    split at h
    next h0 =>
      obtain ⟨rfl, ho⟩ := traces_done h
      exact ⟨fills_nil _ _ _, by simp, fun v hv => .inl (by rw [ho v hv])⟩
    next h0 =>
      obtain ⟨rfl, rfl⟩ | ⟨r, tr', rfl, tail⟩ := traces_call.mp h
      · exact ⟨fills_nil _ _ _, by simp, by simp⟩
      have hlt : 0 < remaining := Nat.pos_of_ne_zero h0
      cases r with
      | error | eof =>
        obtain ⟨rfl, ho⟩ := traces_done tail
        refine ⟨fills_cons hlt rfl (fills_nil _ _ _), hlt, fun v hv => .inr ⟨?_, hlt⟩⟩
        simp [ho v hv]
      | data bytes pos le =>
        obtain ⟨h₁, h₂, h₃⟩ := ih (remaining - bytes.length) (by omega) tail
        refine ⟨fills_cons hlt rfl h₁, ?_, fun v hv => (h₃ v hv).imp_right fun hshort => ?_⟩
        · simp only [List.length_cons]
          omega
        · refine ⟨hshort.1, ?_⟩
          simp only [consumed_cons, eventBytes, ReadResult.bytes, List.length_append]
          omega

/-- A call that reads targets a range inside the first `bound` bytes. -/
def Within (bound : Nat) : Call → Prop
  | .read _ offset nbyte => offset + nbyte ≤ bound
  | _ => True

theorem frameLength_short {bytes : List UInt8} (h : bytes.length < 4) : frameLength bytes = 0 := by
  match bytes, h with
  | [], _ | [_], _ | [_, _], _ | [_, _, _], _ => rfl

theorem readLoop_keeps_errno {fd : Fd} {nbyte offset remaining : Nat} {buffer : Buffer}
    {tr : Trace} {o : Option (Int × Buffer)}
    (h : Traces (Aawgd.readLoop fd nbyte buffer offset remaining) tr o) :
    (⟨.setErrnoEmsgsize, ()⟩ : Event Call Answer) ∉ tr := by
  intro hmem
  have hq := (readLoop_only (q := (· ≠ .setErrnoEmsgsize)) nbyte buffer offset remaining
    (fun _ _ _ => by simp)).traces h _ hmem
  exact hq rfl

/-- When errno is set, a header has been read and nothing behind it, and the size it
declares is larger than the buffer; a finished call that read such a header has set it. -/
theorem readMessage_emsgsize {fd : Fd} {buffer : Buffer} {bufferLen : Nat} {tr : Trace}
    {o : Option (Int × Buffer)} (h : Traces (Aawgd.readMessage fd buffer bufferLen) tr o) :
    (⟨.setErrnoEmsgsize, ()⟩ ∈ tr → (consumed tr).length = 4 ∧
      bufferLen < frameLength (consumed tr) ∧ ∀ v, o = some v → v.1 = -1) ∧
    (o ≠ none → bufferLen < frameLength (consumed tr) →
      (⟨.setErrnoEmsgsize, ()⟩ : Event Call Answer) ∈ tr) := by
  obtain ⟨rfl, h₁⟩ | ⟨⟨len₁, buffer₁⟩, tr₁, tr₂, rfl, h₁, h₂⟩ := traces_bind h
  · exact ⟨fun hmem => absurd hmem (readLoop_keeps_errno h₁), fun hne => absurd rfl hne⟩
  have hno := readLoop_keeps_errno h₁
  have hshort := (readLoop_fills h₁).2.2 _ rfl
  dsimp only at h₂ hshort
  split at h₂
  next hle =>
    obtain ⟨rfl, -⟩ := traces_ret.mp h₂
    have h0 : (consumed tr₁).length < 4 := by
      obtain hfull | h0 := hshort
      · rw [hfull] at hle
        exact absurd hle (by decide)
      · exact h0.2
    rw [List.append_nil, frameLength_short h0]
    exact ⟨fun hmem => absurd hmem hno, fun _ hlt => absurd hlt (by omega)⟩
  next hpos =>
    obtain ⟨-, hlen, rfl⟩ := readLoop_traces h₁ (by omega)
    have hsize := fun body => frameLength_store buffer (consumed tr₁) body hlen
    split at h₂
    next hlarge =>
      obtain ⟨rfl, rfl⟩ | ⟨r, tr', rfl, tail⟩ := traces_call.mp h₂
      · rw [List.append_nil]
        exact ⟨fun hmem => absurd hmem hno, fun hne => absurd rfl hne⟩
      obtain ⟨rfl, ho⟩ := traces_done tail
      have hbytes : consumed (tr₁ ++ [⟨.setErrnoEmsgsize, r⟩]) = consumed tr₁ ++ [] := by
        simp [eventBytes]
      refine ⟨fun _ => ?_, fun _ _ => by simp⟩
      rw [hbytes, hsize, List.append_nil]
      exact ⟨hlen, hlarge, fun v hv => by rw [ho v hv]⟩
    next hfits =>
      have hquiet : (⟨.setErrnoEmsgsize, ()⟩ : Event Call Answer) ∉ tr₂ := by
        obtain ⟨-, h₃⟩ | ⟨⟨len₂, buffer₂⟩, tr₃, tr₄, rfl, h₃, h₄⟩ := traces_bind h₂
        · exact readLoop_keeps_errno h₃
        · have htr₄ : tr₄ = [] := by
            dsimp only at h₄
            split at h₄ <;> exact (traces_ret.mp h₄).1
          rw [htr₄, List.append_nil]
          exact readLoop_keeps_errno h₃
      rw [consumed_append, hsize]
      refine ⟨fun hmem => ?_, fun _ hlt => absurd hlt hfits⟩
      exact absurd (List.mem_append.mp hmem) (by simp [hno, hquiet])

/-! The bounds -/

theorem readFully_bounds {fd : Fd} {buffer : Buffer} {offset : Nat} {n : UInt64} {tr : Trace}
    {o : Option (Int64 × Buffer)} (h : Traces (readFully fd buffer offset n) tr o) :
    Fills fd offset n.toNat tr ∧ tr.length ≤ n.toNat ∧ ∀ v, o = some v → 0 < v.1 →
      v.1.toInt = n.toNat ∧ (consumed tr).length = n.toNat ∧
        v.2 = store buffer offset (consumed tr) := by
  obtain ⟨o', ht, ho⟩ := readLoop_refines h
  obtain ⟨hfills, hlength, -⟩ := readLoop_fills ht
  refine ⟨hfills, hlength, fun v hv hpos => ?_⟩
  rw [ho v hv (.inl hpos)] at ht
  exact readLoop_traces ht (Int64.lt_iff_toInt_lt.mp hpos)

theorem readMessage_bounds {fd : Fd} {buffer : Buffer} {bufferLen : UInt64} (h4 : 4 ≤ bufferLen)
    {tr : Trace} {o : Option (Int64 × Buffer)} (h : Traces (readMessage fd buffer bufferLen) tr o) :
    (∀ ev ∈ tr, Within bufferLen.toNat ev.1) ∧
    (⟨.setErrnoEmsgsize, ()⟩ ∈ tr → (consumed tr).length = 4 ∧
      bufferLen.toNat < frameLength (consumed tr) ∧ ∀ v, o = some v → v.1 = -1) ∧
    (o ≠ none → bufferLen.toNat < frameLength (consumed tr) →
      (⟨.setErrnoEmsgsize, ()⟩ : Event Call Answer) ∈ tr) := by
  have hr := readMessage_refines fd buffer bufferLen tr o h
  have hmax : max headerLength.toNat bufferLen.toNat = bufferLen.toNat :=
    Nat.max_eq_right (UInt64.le_iff_toNat_le.mp h4)
  have honly : (Aawgd.readMessage fd buffer bufferLen.toNat).Only (Within bufferLen.toNat) :=
    readMessage_only (fun i n hi => hmax ▸ hi) trivial buffer
  obtain ⟨hset, hlarge⟩ := readMessage_emsgsize hr
  refine ⟨honly.traces hr, fun hmem => ?_, fun hne => hlarge (by simpa using hne)⟩
  obtain ⟨hlen, hlt, hvalue⟩ := hset hmem
  refine ⟨hlen, hlt, fun v hv => Int64.toInt_inj.mp ?_⟩
  exact hvalue (widen v) (by simp [hv])

/-- Every read of `readFully(n)` starts right behind the bytes already there and ends where
the n bytes end; a call makes at most n reads, whatever is answered, and a positive result
means that the n bytes are in place. The reads of `readMessage` stay inside the buffer, and
its EMSGSIZE exit is taken exactly on a complete header that declares more than the buffer
holds, with four bytes consumed. -/
theorem reader_bounds (fd : Fd) (buffer : Buffer) (offset : Nat) (n bufferLen : UInt64)
    (h4 : 4 ≤ bufferLen) :
    (∀ tr o, Traces (readFully fd buffer offset n) tr o →
      Fills fd offset n.toNat tr ∧ tr.length ≤ n.toNat ∧ ∀ v, o = some v → 0 < v.1 →
        v.1.toInt = n.toNat ∧ (consumed tr).length = n.toNat ∧
          v.2 = store buffer offset (consumed tr)) ∧
    (∀ (σ : Type) (env : σ → (c : Call) → Answer c × σ) (s : σ),
      (run env (readFully fd buffer offset n) s).trace.length ≤ n.toNat) ∧
    (∀ tr o, Traces (readMessage fd buffer bufferLen) tr o →
      (∀ ev ∈ tr, Within bufferLen.toNat ev.1) ∧
      (⟨.setErrnoEmsgsize, ()⟩ ∈ tr → (consumed tr).length = 4 ∧
        bufferLen.toNat < frameLength (consumed tr) ∧ ∀ v, o = some v → v.1 = -1) ∧
      (o ≠ none → bufferLen.toNat < frameLength (consumed tr) →
        (⟨.setErrnoEmsgsize, ()⟩ : Event Call Answer) ∈ tr)) := by
  refine ⟨fun tr o h => readFully_bounds h, fun σ env s => ?_, fun tr o h => ?_⟩
  · exact (readFully_bounds (run_traces env _ s)).2.1
  · exact readMessage_bounds h4 h

/-- A header that declares 16388 bytes, and what `forward` makes of it. -/
def oversized : Trace :=
  [⟨.read .tcp 0 4, .data [0, 3, 64, 0] (by decide) (by decide)⟩, ⟨.setErrnoEmsgsize, ()⟩]

theorem oversized_traces : Traces (readMessage .tcp (fun _ => 0) 16384) oversized none := by
  have h₁ : Traces (readFully .tcp (fun _ => 0) 0 headerLength)
      [⟨.read .tcp 0 4, .data [0, 3, 64, 0] (by decide) (by decide)⟩]
      (some (4, store (fun _ => 0) 0 [0, 3, 64, 0])) := by
    rw [readFully, readLoop, if_pos (by decide)]
    refine .call _ _ _ ?_
    rw [if_pos (by decide), readLoop, if_neg (by decide)]
    exact .ret _
  refine h₁.bind ?_
  dsimp only
  rw [if_neg (by decide), if_pos (by decide)]
  exact .call _ _ _ (.stop _)

theorem reader_bounds_oversized : (∀ ev ∈ oversized, Within 16384 ev.1) ∧
    (consumed oversized).length = 4 ∧ 16384 < frameLength (consumed oversized) := by
  have h := (reader_bounds .tcp (fun _ => 0) 0 4 16384 (by decide)).2.2 _ _ oversized_traces
  have hset := h.2.1 (by simp [oversized])
  exact ⟨h.1, hset.1, hset.2.1⟩

end Aawgd.Machine
