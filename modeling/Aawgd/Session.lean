import Aawgd.Forward
import Aawgd.GuardedSystem
import Mathlib.Logic.Function.Basic

/-! One forwarding session as a transition system: `handleClient` from the start of
its two threads on, both forward threads call by call, and SIGUSR1 as a message
that interrupts a thread only while it is blocked. -/
namespace Aawgd
open ByteStream CallProgram

/-- Where a forward thread is: in a round of its loop, or in `stopForwarding`. -/
inductive Code where
  | notStarted
  | looping (round : Proxy (Option Buffer))
  | stopping (rest : Proxy Unit)
  | finished

namespace Code

def ofRound (d : ProxyDirection) : Proxy (Option Buffer) → Code
  | .ret none => .stopping stopForwarding
  | .ret (some buffer) => .looping (forwardRound d buffer)
  | .call c k => .looping (.call c k)

def ofStop : Proxy Unit → Code
  | .ret () => .finished
  | .call c k => .stopping (.call c k)

/-- The next call, and where each answer to it leads. -/
def next? (d : ProxyDirection) : Code → Option ((c : Call) × (Answer c → Code))
  | .looping (.call c k) => some ⟨c, fun r => ofRound d (k r)⟩
  | .stopping (.call c k) => some ⟨c, fun r => ofStop (k r)⟩
  | _ => none

def call? : Code → Option Call
  | .looping (.call c _) => some c
  | .stopping (.call c _) => some c
  | _ => none

def isFinished : Code → Bool
  | .finished => true
  | _ => false

/-- The next call is a read of the descriptor. -/
def reads (fd : Fd) (code : Code) : Bool :=
  match code.call? with
  | some (.read fd' _ _) => fd' = fd
  | _ => false

end Code

structure Forwarder where
  code : Code
  /-- Inside the read or write that is its next call. -/
  blocked : Bool
  /-- SIGUSR1 was sent to it and not delivered. -/
  pending : Bool

/-- A `std::optional<std::thread>`; a joined thread has no native handle. -/
inductive Handle where
  | empty | engaged | joined
  deriving DecidableEq

/-- The next statement of `handleClient`; `assign` stores the started thread. -/
inductive ClientPc where
  | spawn (d : ProxyDirection)
  | assign (d : ProxyDirection)
  | join (d : ProxyDirection)
  | reset (d : ProxyDirection)
  | restore
  | closed
  deriving DecidableEq

structure Session where
  shouldExit : Bool
  forwarder : ProxyDirection → Forwarder
  handle : ProxyDirection → Handle
  client : ClientPc
  /-- The disposition of SIGUSR1 is the empty handler, not SIG_DFL. -/
  handlerInstalled : Bool
  /-- A signal was sent through a handle without a thread, or killed the process. -/
  crashed : Bool

/-- `returns` answers a blocked call, `deliver` hands a pending signal to its thread. -/
inductive Action where
  | client
  | run (d : ProxyDirection)
  | enter (d : ProxyDirection)
  | returns (d : ProxyDirection) (event : Event Call Answer)
  | deliver (d : ProxyDirection)

namespace Session

def put (s : Session) (d : ProxyDirection) (f : Forwarder) : Session :=
  { s with forwarder := Function.update s.forwarder d f }

def setHandle (s : Session) (d : ProxyDirection) (h : Handle) : Session :=
  { s with handle := Function.update s.handle d h }

def resume (s : Session) (d : ProxyDirection) (code : Code) : Session :=
  s.put d { s.forwarder d with code := code, blocked := false }

def setPending (s : Session) (d : ProxyDirection) (pending : Bool) : Session :=
  s.put d { s.forwarder d with pending := pending }

/-- `pthread_kill(thread->native_handle(), SIGUSR1)`. -/
def kill (s : Session) (d : ProxyDirection) : Session :=
  if s.handle d = .engaged ∧ s.handlerInstalled = true then s.setPending d true
  else { s with crashed := true }

/-- Answers to the calls that do not block. -/
def answer (s : Session) : (c : Call) → Option (Answer c)
  | .shouldExit => some s.shouldExit
  | .hasThread d => some (s.handle d != .empty)
  | .raiseExit | .setErrnoEmsgsize | .kill _ => some ()
  | .read _ _ _ | .write _ _ => none

def perform (s : Session) : Call → Session
  | .raiseExit => { s with shouldExit := true }
  | .kill d => s.kill d
  | _ => s

end Session

def Call.blocks : Call → Bool
  | .read _ _ _ | .write _ _ => true
  | _ => false

/-- What a blocked call returns when a signal interrupts it. -/
def interrupted : (c : Call) → Option (Answer c)
  | .read _ _ _ => some .error
  | .write _ _ => some .error
  | _ => none

def afterAssign : ProxyDirection → ClientPc
  | .usbToTcp => .spawn .tcpToUsb
  | .tcpToUsb => .join .usbToTcp

def afterReset : ProxyDirection → ClientPc
  | .usbToTcp => .join .tcpToUsb
  | .tcpToUsb => .restore

/-- One statement of `handleClient`; `stack d` is what the thread's buffer holds
when it is created. -/
def clientStep (stack : ProxyDirection → Buffer) (s : Session) : Option Session :=
  match s.client with
  | .spawn d =>
    some { s.resume d (.looping (forwardRound d (stack d))) with client := .assign d }
  | .assign d => some { s.setHandle d .engaged with client := afterAssign d }
  | .join d =>
    if (s.forwarder d).code.isFinished then some { s.setHandle d .joined with client := .reset d }
    else none
  | .reset d => some { s.setHandle d .empty with client := afterReset d }
  | .restore => some { s with handlerInstalled := false, client := .closed }
  | .closed => none

def sessionStep (stack : ProxyDirection → Buffer) (s : Session) : Action → Option Session
  | .client => clientStep stack s
  | .run d =>
    match (s.forwarder d).code.next? d with
    | none => none
    | some ⟨c, k⟩ =>
      match s.answer c with
      | none => none
      | some r => some ((s.perform c).resume d (k r))
  | .enter d =>
    match (s.forwarder d).code.call? with
    | none => none
    | some c =>
      if c.blocks = true ∧ (s.forwarder d).blocked = false then
        some (s.put d { s.forwarder d with blocked := true })
      else none
  | .returns d event =>
    match (s.forwarder d).code.next? d with
    | none => none
    | some ⟨c, k⟩ =>
      if h : event.1 = c ∧ c.blocks = true ∧ (s.forwarder d).blocked = true then
        some (s.resume d (k (h.1 ▸ event.2)))
      else none
  | .deliver d =>
    if (s.forwarder d).pending = false then none
    else if (s.forwarder d).blocked = false then some (s.setPending d false)
    else
      match (s.forwarder d).code.next? d with
      | none => none
      | some ⟨c, k⟩ =>
        match interrupted c with
        | none => none
        | some r => some ((s.setPending d false).resume d (k r))

def sessionStart : Session where
  shouldExit := false
  forwarder _ := ⟨.notStarted, false, false⟩
  handle _ := .empty
  client := .spawn .usbToTcp
  handlerInstalled := true
  crashed := false

/-- From the sigaction on; a finished session is the start of no other. -/
def session (stack : ProxyDirection → Buffer) : GuardedSystem Session Action :=
  .ofStep sessionStart (sessionStep stack)

instance decidableSessionGuard (stack : ProxyDirection → Buffer) (s : Session) (a : Action) :
    Decidable ((session stack).guard s a) := GuardedSystem.decidableGuardOfStep _ _ s a

@[simp] theorem put_self (s : Session) (d : ProxyDirection) (f : Forwarder) :
    (s.put d f).forwarder d = f := by
  simp [Session.put]

@[simp] theorem put_ne (s : Session) {d e : ProxyDirection} (f : Forwarder) (h : e ≠ d) :
    (s.put d f).forwarder e = s.forwarder e := by
  simp [Session.put, h]

@[simp] theorem put_shouldExit (s : Session) (d : ProxyDirection) (f : Forwarder) :
    (s.put d f).shouldExit = s.shouldExit := rfl

@[simp] theorem setPending_code (s : Session) (d : ProxyDirection) (pending : Bool)
    (e : ProxyDirection) : ((s.setPending d pending).forwarder e).code = (s.forwarder e).code := by
  by_cases he : e = d
  · simp [Session.setPending, he]
  · simp [Session.setPending, he]

@[simp] theorem setPending_blocked (s : Session) (d : ProxyDirection) (pending : Bool)
    (e : ProxyDirection) :
    ((s.setPending d pending).forwarder e).blocked = (s.forwarder e).blocked := by
  by_cases he : e = d
  · simp [Session.setPending, he]
  · simp [Session.setPending, he]

@[simp] theorem kill_shouldExit (s : Session) (d : ProxyDirection) :
    (s.kill d).shouldExit = s.shouldExit := by
  unfold Session.kill
  split <;> rfl

theorem kill_pending {s : Session} {e : ProxyDirection} (h : (s.forwarder e).pending = true)
    (d : ProxyDirection) : ((s.kill d).forwarder e).pending = true := by
  unfold Session.kill
  split
  · by_cases he : e = d <;> simp [Session.setPending, he, h]
  · exact h

/-! What a step can do -/

inductive SessionStep (stack : ProxyDirection → Buffer) (s : Session) : Action → Session → Prop
  | spawn (d : ProxyDirection) (at_spawn : s.client = .spawn d) :
    SessionStep stack s .client
      { s.resume d (.looping (forwardRound d (stack d))) with client := .assign d }
  | assign (d : ProxyDirection) (at_assign : s.client = .assign d) :
    SessionStep stack s .client { s.setHandle d .engaged with client := afterAssign d }
  | join (d : ProxyDirection) (at_join : s.client = .join d)
    (ended : (s.forwarder d).code.isFinished = true) :
    SessionStep stack s .client { s.setHandle d .joined with client := .reset d }
  | reset (d : ProxyDirection) (at_reset : s.client = .reset d) :
    SessionStep stack s .client { s.setHandle d .empty with client := afterReset d }
  | restore (at_restore : s.client = .restore) :
    SessionStep stack s .client { s with handlerInstalled := false, client := .closed }
  | enter (d : ProxyDirection) :
    SessionStep stack s (.enter d) (s.put d { s.forwarder d with blocked := true })
  | answered (d : ProxyDirection) (a : Action) (c : Call) (k : Answer c → Code) (r : Answer c)
    (next : (s.forwarder d).code.next? d = some ⟨c, k⟩) (own : ∀ r', s.answer c = some r' → r' = r)
    (action : a = .run d ∨ (∃ event, a = .returns d event) ∧ c.blocks = true) :
    SessionStep stack s a ((s.perform c).resume d (k r))
  | interrupted (d : ProxyDirection) (c : Call) (k : Answer c → Code) (r : Answer c)
    (next : (s.forwarder d).code.next? d = some ⟨c, k⟩) (blocking : c.blocks = true) :
    SessionStep stack s (.deliver d) ((s.setPending d false).resume d (k r))
  | ignored (d : ProxyDirection) (free : (s.forwarder d).blocked = false) :
    SessionStep stack s (.deliver d) (s.setPending d false)

theorem answer_of_blocks {s : Session} {c : Call} (h : c.blocks = true) :
    s.answer c = none ∧ s.perform c = s := by
  cases c <;> simp_all [Call.blocks, Session.answer, Session.perform]

theorem blocks_of_interrupted {c : Call} {r : Answer c} (h : interrupted c = some r) :
    c.blocks = true := by
  cases c <;> simp_all [Call.blocks, interrupted]

theorem sessionStep_cases {stack : ProxyDirection → Buffer} {s s' : Session} {a : Action}
    (h : sessionStep stack s a = some s') : SessionStep stack s a s' := by
  cases a with
  | client =>
    simp only [sessionStep, clientStep] at h
    split at h
    next d hpc =>
      cases h
      exact .spawn d hpc
    next d hpc =>
      cases h
      exact .assign d hpc
    next d hpc =>
      split at h
      next hend =>
        cases h
        exact .join d hpc hend
      next => cases h
    next d hpc =>
      cases h
      exact .reset d hpc
    next hpc =>
      cases h
      exact .restore hpc
    next => cases h
  | run d =>
    simp only [sessionStep] at h
    split at h
    next => cases h
    next c k hnext =>
      split at h
      next => cases h
      next r hr =>
        cases h
        exact .answered d _ c k r hnext (fun r' hr' => by simpa [hr] using hr'.symm) (.inl rfl)
  | enter d =>
    simp only [sessionStep] at h
    split at h
    next => cases h
    next c hc =>
      split at h
      next =>
        cases h
        exact .enter d
      next => cases h
  | returns d event =>
    simp only [sessionStep] at h
    split at h
    next => cases h
    next c k hnext =>
      split at h
      next hc =>
        cases h
        obtain ⟨rfl, hblocks, -⟩ := hc
        obtain ⟨hnone, hsame⟩ := answer_of_blocks (s := s) hblocks
        have hstep : SessionStep stack s (.returns d event) ((s.perform event.1).resume d (k event.2)) :=
          .answered d _ event.1 k event.2 hnext (by simp [hnone]) (.inr ⟨⟨event, rfl⟩, hblocks⟩)
        rw [hsame] at hstep
        exact hstep
      next => cases h
  | deliver d =>
    simp only [sessionStep] at h
    split at h
    next => cases h
    split at h
    next _ hfree =>
      cases h
      exact .ignored d hfree
    next =>
      split at h
      next => cases h
      next c k hnext =>
        split at h
        next => cases h
        next r hr =>
          cases h
          exact .interrupted d c k r hnext (blocks_of_interrupted hr)

theorem session_step {stack : ProxyDirection → Buffer} {s : Session} {a : Action}
    (h : (session stack).guard s a) : SessionStep stack s a ((session stack).effect s a) :=
  sessionStep_cases (GuardedSystem.ofStep_effect h)

end Aawgd
