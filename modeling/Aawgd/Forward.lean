import Aawgd.FrameReader

/-! The forwarding loop of the proxy, and what every round of it does on every
trace: a block is written only right after the reads that brought it in. -/
namespace Aawgd
open ByteStream CallProgram

def readFd : ProxyDirection → Fd
  | .tcpToUsb => .tcp
  | .usbToTcp => .usb

def writeFd : ProxyDirection → Fd
  | .tcpToUsb => .usb
  | .usbToTcp => .tcp

/-- A single `read` into the start of the buffer. -/
def readOnce (fd : Fd) (buffer : Buffer) (nbyte : Nat) : Proxy (Int × Buffer) :=
  sys (.read fd 0 nbyte) >>= fun
    | .error => .ret (-1, buffer)
    | .eof => .ret (0, buffer)
    | .data bytes _ _ => .ret (bytes.length, store buffer 0 bytes)

/-- `ssize_t len = read_message ? readMessage(..) : read(..)`. -/
def readBlock (d : ProxyDirection) (buffer : Buffer) : Proxy (Int × Buffer) :=
  match d with
  | .tcpToUsb => readMessage (readFd d) buffer maxFrame
  | .usbToTcp => readOnce (readFd d) buffer maxFrame

/-- Breaks out of the loop when `should_exit` is set. -/
def unlessStopped (p : Proxy (Option Buffer)) : Proxy (Option Buffer) :=
  .call .shouldExit fun stop => if stop then .ret none else p

/-- The rest of a round from `ssize_t wlen = write(write_fd, buffer, len)` on. -/
def writeBlock (d : ProxyDirection) (block : List UInt8) (buffer : Buffer) :
    Proxy (Option Buffer) :=
  .call (.write (writeFd d) block) fun
    | .error => .ret none
    | .accepted _ _ => unlessStopped (.ret (some buffer))

/-- The rest of a round once `len` is known. -/
def checkBlock (d : ProxyDirection) (len : Int) (buffer : Buffer) : Proxy (Option Buffer) :=
  if len < 0 then .ret none
  else if len = 0 then .ret none
  else unlessStopped (writeBlock d (contents buffer len.toNat) buffer)

/-- One round of the loop in `AAWProxy::forward`: nothing when it breaks, else
the buffer for the next round. -/
def forwardRound (d : ProxyDirection) (buffer : Buffer) : Proxy (Option Buffer) :=
  unlessStopped (readBlock d buffer >>= fun (len, buffer) => checkBlock d len buffer)

/-- `if (thread) pthread_kill(thread->native_handle(), SIGUSR1)`, then the rest. -/
def signal (d : ProxyDirection) (rest : Proxy Unit) : Proxy Unit :=
  .call (.hasThread d) fun present => if present then .call (.kill d) fun _ => rest else rest

def stopForwarding : Proxy Unit :=
  .call .raiseExit fun _ => signal .usbToTcp (signal .tcpToUsb (.ret ()))

/-- `AAWProxy::forward`, watched for at most n rounds. The value tells whether
the loop was left by then. -/
def forward (n : Nat) (d : ProxyDirection) (buffer : Buffer) : Proxy Bool :=
  loop (forwardRound d) n buffer >>= fun left =>
    if left then stopForwarding >>= fun _ => .ret true else .ret false

/-! Reading a trace -/

def block? : Event Call Answer → Option (List UInt8)
  | ⟨.write _ b, _⟩ => some b
  | _ => none

/-- The blocks handed to `write`, whatever it made of them. -/
def blocks (tr : Trace) : List (List UInt8) := tr.filterMap block?

def eventAccepted : Event Call Answer → List UInt8
  | ⟨.write _ b, r⟩ => b.take r.count
  | _ => []

/-- The bytes the destination descriptor took. -/
def accepted (tr : Trace) : List UInt8 := tr.flatMap eventAccepted

/-- Every written block is what was read since the write before it, where acc
was read before the trace begins. -/
def Carried (acc : List UInt8) : Trace → Prop
  | [] => True
  | ev :: tr => match block? ev with
    | some b => b = acc ∧ Carried [] tr
    | none => Carried (acc ++ eventBytes ev) tr

theorem carried_block {acc b : List UInt8} {ev : Event Call Answer} {tr : Trace}
    (h : block? ev = some b) : Carried acc (ev :: tr) ↔ b = acc ∧ Carried [] tr := by
  simp only [Carried, h]

theorem carried_other {acc : List UInt8} {ev : Event Call Answer} {tr : Trace}
    (h : block? ev = none) : Carried acc (ev :: tr) ↔ Carried (acc ++ eventBytes ev) tr := by
  simp only [Carried, h]

@[simp] theorem blocks_append (tr₁ tr₂ : Trace) : blocks (tr₁ ++ tr₂) = blocks tr₁ ++ blocks tr₂ :=
  List.filterMap_append

@[simp] theorem accepted_append (tr₁ tr₂ : Trace) :
    accepted (tr₁ ++ tr₂) = accepted tr₁ ++ accepted tr₂ := List.flatMap_append

@[simp] theorem blocks_write (fd : Fd) (b : List UInt8) (r : WriteResult b.length) (tr : Trace) :
    blocks (⟨.write fd b, r⟩ :: tr) = b :: blocks tr := rfl

@[simp] theorem accepted_write (fd : Fd) (b : List UInt8) (r : WriteResult b.length)
    (tr : Trace) : accepted (⟨.write fd b, r⟩ :: tr) = b.take r.count ++ accepted tr := rfl

theorem block?_eq_none {ev : Event Call Answer} (h : isWrite ev.1 = false) : block? ev = none := by
  obtain ⟨c, r⟩ := ev
  cases c <;> simp_all [isWrite, block?]

theorem blocks_eq_nil {tr : Trace} (h : ∀ ev ∈ tr, isWrite ev.1 = false) : blocks tr = [] :=
  List.filterMap_eq_nil_iff.mpr fun ev hev => block?_eq_none (h ev hev)

theorem accepted_eq_nil {tr : Trace} (h : ∀ ev ∈ tr, isWrite ev.1 = false) : accepted tr = [] := by
  refine List.flatMap_eq_nil_iff.mpr fun ev hev => ?_
  obtain ⟨c, r⟩ := ev
  have hc := h _ hev
  cases c <;> simp_all [isWrite, eventAccepted]

/-- Calls other than writes only add to what was read. -/
theorem carried_append {acc : List UInt8} {tr₁ tr₂ : Trace}
    (h : ∀ ev ∈ tr₁, isWrite ev.1 = false) :
    Carried acc (tr₁ ++ tr₂) ↔ Carried (acc ++ consumed tr₁) tr₂ := by
  induction tr₁ generalizing acc with
  | nil => simp
  | cons ev tr₁ ih =>
    have hev := block?_eq_none (h ev List.mem_cons_self)
    rw [List.cons_append, carried_other hev, ih fun e he => h e (List.mem_cons_of_mem ev he),
      consumed_cons, List.append_assoc]

/-! Rounds -/

theorem readOnce_traces {fd : Fd} {buffer buffer' : Buffer} {nbyte : Nat} {tr : Trace}
    {len : Int} (h : Traces (readOnce fd buffer nbyte) tr (some (len, buffer'))) (hlen : 0 < len) :
    len = (consumed tr).length ∧ buffer' = store buffer 0 (consumed tr) := by
  cases h with
  | call c k r tail =>
    cases r with
    | error | eof =>
      cases tail
      omega
    | data bytes pos le =>
      cases tail
      simp [eventBytes, ReadResult.bytes]

theorem readBlock_only {q : Call → Prop} {d : ProxyDirection}
    (hread : ∀ offset n, q (.read (readFd d) offset n)) (herrno : q .setErrnoEmsgsize)
    (buffer : Buffer) : (readBlock d buffer).Only q := by
  cases d with
  | tcpToUsb => exact readMessage_only (fun i n _ => hread i n) herrno _
  | usbToTcp =>
    refine ⟨hread _ _, fun r => ?_⟩
    cases r <;> trivial

theorem readBlock_quiet (d : ProxyDirection) (buffer : Buffer) :
    (readBlock d buffer).Only (isWrite · = false) :=
  readBlock_only (q := (isWrite · = false)) (fun _ _ => rfl) rfl buffer

/-- A successful read leaves the bytes it consumed at the start of the buffer;
from the phone they are one complete frame. -/
theorem readBlock_traces {d : ProxyDirection} {buffer buffer' : Buffer} {tr : Trace} {len : Int}
    (h : Traces (readBlock d buffer) tr (some (len, buffer'))) (hlen : 0 < len) :
    len = (consumed tr).length ∧ buffer' = store buffer 0 (consumed tr) ∧
      (d = .tcpToUsb → (consumed tr).length = frameLength (consumed tr) ∧
        (consumed tr).length ≤ maxFrame) := by
  cases d with
  | tcpToUsb =>
    obtain ⟨h₁, h₂, h₃, h₄⟩ := readMessage_traces h hlen
    exact ⟨h₁, h₄, fun _ => ⟨h₂, h₃⟩⟩
  | usbToTcp =>
    obtain ⟨h₁, h₂⟩ := readOnce_traces h hlen
    exact ⟨h₁, h₂, nofun⟩

theorem only_unlessStopped {q : Call → Prop} {p : Proxy (Option Buffer)} (hq : q .shouldExit)
    (hp : p.Only q) : (unlessStopped p).Only q := by
  refine ⟨hq, fun stop => ?_⟩
  cases stop with
  | true => trivial
  | false => exact hp

theorem forwardRound_only {q : Call → Prop} {d : ProxyDirection} (hlook : q .shouldExit)
    (hread : ∀ offset n, q (.read (readFd d) offset n))
    (hwrite : ∀ block, q (.write (writeFd d) block)) (herrno : q .setErrnoEmsgsize)
    (buffer : Buffer) : (forwardRound d buffer).Only q := by
  refine only_unlessStopped hlook ((readBlock_only hread herrno buffer).bind fun ⟨len, b⟩ => ?_)
  dsimp only [checkBlock]
  split
  · trivial
  split
  · trivial
  refine only_unlessStopped hlook ⟨hwrite _, fun r => ?_⟩
  cases r with
  | error => trivial
  | accepted k le => exact only_unlessStopped hlook trivial

theorem stopForwarding_steps {q : Call → Prop} (hraise : q .raiseExit)
    (hthread : ∀ d, q (.hasThread d)) (hkill : ∀ d, q (.kill d)) : stopForwarding.Only q := by
  have hsignal (d : ProxyDirection) {rest : Proxy Unit} (hrest : rest.Only q) :
      (signal d rest).Only q := by
    refine ⟨hthread d, fun present => ?_⟩
    cases present with
    | false => exact hrest
    | true => exact ⟨hkill d, fun _ => hrest⟩
  exact ⟨hraise, fun _ => hsignal .usbToTcp (hsignal .tcpToUsb trivial)⟩

theorem traces_unlessStopped {p : Proxy (Option Buffer)} {tr : Trace}
    {o : Option (Option Buffer)} (h : Traces (unlessStopped p) tr o) :
    ((∀ ev ∈ tr, ev.1 = .shouldExit) ∧ (o = none ∨ o = some none)) ∨
      ∃ tr', tr = ⟨.shouldExit, false⟩ :: tr' ∧ Traces p tr' o := by
  cases h with
  | stop => simp
  | call c k stop tail =>
    cases stop with
    | true =>
      obtain ⟨rfl, ho⟩ := traces_ret.mp tail
      exact .inl ⟨by simp, ho⟩
    | false => exact .inr ⟨_, rfl, tail⟩

/-- A round that reaches its write: the calls before it, the write of what they
read, and nothing but looks at the flag after it. -/
structure Sent (d : ProxyDirection) (tr before after : Trace) (block : List UInt8)
    (r : WriteResult block.length) : Prop where
  split : tr = before ++ ⟨.write (writeFd d) block, r⟩ :: after
  before_reads : ∀ ev ∈ before, isWrite ev.1 = false
  after_looks : ∀ ev ∈ after, ev.1 = .shouldExit
  block_eq : block = consumed before
  block_ne : block ≠ []
  frame : d = .tcpToUsb → block.length = frameLength block ∧ block.length ≤ maxFrame

/-- The second half of a round, after a read of `len` bytes. -/
theorem checkBlock_traces {d : ProxyDirection} {len : Int} {buffer : Buffer} {tr : Trace}
    {o : Option (Option Buffer)} (h : Traces (checkBlock d len buffer) tr o) :
    ((∀ ev ∈ tr, ev.1 = .shouldExit) ∧ (o = none ∨ o = some none)) ∨
      ∃ after block r, 0 < len ∧ block = contents buffer len.toNat ∧
        tr = ⟨.shouldExit, false⟩ :: ⟨.write (writeFd d) block, r⟩ :: after ∧
        (∀ ev ∈ after, ev.1 = .shouldExit) ∧ (r = .error → o = none ∨ o = some none) := by
  unfold checkBlock at h
  split at h
  · obtain ⟨rfl, ho⟩ := traces_ret.mp h
    exact .inl ⟨by simp, ho⟩
  split at h
  · obtain ⟨rfl, ho⟩ := traces_ret.mp h
    exact .inl ⟨by simp, ho⟩
  cases traces_unlessStopped h with
  | inl hs => exact .inl hs
  | inr hs =>
    obtain ⟨tr', rfl, hw⟩ := hs
    cases hw with
    | stop => exact .inl (by simp)
    | call c k r tail =>
      refine .inr ⟨_, _, r, by omega, rfl, rfl, ?_⟩
      cases r with
      | error =>
        obtain ⟨rfl, ho⟩ := traces_ret.mp tail
        exact ⟨by simp, fun _ => ho⟩
      | accepted k le =>
        have hlooks : (unlessStopped (.ret (some buffer))).Only (· = Call.shouldExit) :=
          only_unlessStopped rfl trivial
        exact ⟨hlooks.traces tail, nofun⟩

/-- One round either writes nothing and is the last, or writes once; after a
failed write it is the last too. -/
theorem forwardRound_traces {d : ProxyDirection} {buffer : Buffer} {tr : Trace}
    {o : Option (Option Buffer)} (h : Traces (forwardRound d buffer) tr o) :
    ((∀ ev ∈ tr, isWrite ev.1 = false) ∧ (o = none ∨ o = some none)) ∨
      ∃ before after block r, Sent d tr before after block r ∧
        (r = .error → o = none ∨ o = some none) := by
  have hlook {tr : Trace} (hs : ∀ ev ∈ tr, ev.1 = .shouldExit) : ∀ ev ∈ tr, isWrite ev.1 = false :=
    fun ev hev => by rw [hs ev hev]; rfl
  cases traces_unlessStopped h with
  | inl hs => exact .inl ⟨hlook hs.1, hs.2⟩
  | inr hs =>
    obtain ⟨tr', rfl, hb⟩ := hs
    cases traces_bind hb with
    | inl h₀ =>
      obtain ⟨rfl, ht⟩ := h₀
      exact .inl ⟨by simpa [isWrite] using (readBlock_quiet d buffer).traces ht, .inl rfl⟩
    | inr h₁ =>
      obtain ⟨⟨len, buffer₁⟩, tr₁, tr₂, rfl, ht, hc⟩ := h₁
      have hreads := (readBlock_quiet d buffer).traces ht
      cases checkBlock_traces hc with
      | inl hq =>
        have hw := hlook hq.1
        refine .inl ⟨?_, hq.2⟩
        simpa [isWrite, or_imp, forall_and] using And.intro hreads hw
      | inr hw =>
        obtain ⟨after, block, r, hlen, hblock, rfl, hafter, herr⟩ := hw
        obtain ⟨hlen', rfl, hframe⟩ := readBlock_traces ht hlen
        rw [hlen', Int.toNat_natCast, contents_store] at hblock
        let look : Event Call Answer := ⟨.shouldExit, false⟩
        refine .inr ⟨look :: (tr₁ ++ [look]), after, block, r,
          ⟨by simp [look], ?_, hafter, ?_, ?_, hblock ▸ hframe⟩, herr⟩
        · simpa [look, isWrite, or_imp, forall_and] using hreads
        · simp [hblock, look, eventBytes]
        · intro hnil
          rw [← hblock, hnil] at hlen'
          simp at hlen'
          omega

/-! Descriptors -/

/-- A thread reads one of the two descriptors and writes the other. -/
def OwnDescriptors (d : ProxyDirection) : Call → Prop
  | .read fd _ _ => fd = readFd d
  | .write fd _ => fd = writeFd d
  | .shouldExit | .raiseExit | .setErrnoEmsgsize | .hasThread _ | .kill _ => True

theorem forward_only (n : Nat) (d : ProxyDirection) (buffer : Buffer) :
    (forward n d buffer).Only (OwnDescriptors d) := by
  have hround (b : Buffer) : (forwardRound d b).Only (OwnDescriptors d) :=
    forwardRound_only trivial (fun _ _ => rfl) (fun _ => rfl) trivial b
  refine (only_loop hround n buffer).bind fun left => ?_
  cases left with
  | false => trivial
  | true =>
    exact (stopForwarding_steps trivial (fun _ => trivial) fun _ => trivial).bind fun _ => trivial

/-- Whatever happens, what a thread has read came from its own side, and what it has written,
accepted or not, went to the other one. -/
theorem forward_descriptors {n : Nat} {d : ProxyDirection} {buffer : Buffer} {tr : Trace}
    {o : Option Bool} (h : Traces (forward n d buffer) tr o) : ∀ ev ∈ tr, OwnDescriptors d ev.1 :=
  (forward_only n d buffer).traces h

end Aawgd
