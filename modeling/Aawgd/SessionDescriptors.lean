import Aawgd.Bluetooth
import Aawgd.CallProgram
import Aawgd.Ledger
import Mathlib.Data.List.Induction

/-! The descriptors of a session: `startServer` and `handleClient` call by call, from
`socket` to the last `close`, and the sessions of a run one after another. -/
namespace Aawgd
open CallProgram Ledger

/-- What the two functions ask of the kernel and of the other singletons. -/
inductive ServeCall where
  | socket
  | reuseAddress (serverSock : Nat)
  | bind (serverSock : Nat)
  | listen (serverSock : Nat)
  | accept (serverSock : Nat)
  | close (fd : Nat)
  | stopConnectWithRetry
  | enableDefaultAndWaitForAccessory
  | openAccessory
  | receiveTimeout (tcpFd : Nat)
  | sigaction
  | forward (usbFd tcpFd : Nat)
  | restoreSignal
  deriving DecidableEq

/-- A new descriptor or an error; whether the call succeeded, or the wait was not timed out. -/
@[reducible] def ServeAnswer : ServeCall → Type
  | .socket | .accept _ | .openAccessory => Option Nat
  | .reuseAddress _ | .bind _ | .listen _ | .receiveTimeout _ => Bool
  | .enableDefaultAndWaitForAccessory | .sigaction => Bool
  | .close _ | .stopConnectWithRetry | .forward _ _ | .restoreSignal => Unit

abbrev Serving := CallProgram ServeCall ServeAnswer

def serve (c : ServeCall) : Serving (ServeAnswer c) := perform c

/-- The members that hold descriptors; `none` stands for -1. -/
structure AAWProxy where
  usbFd : Option Nat
  tcpFd : Option Nat
  deriving DecidableEq

namespace AAWProxy

def new : AAWProxy := ⟨none, none⟩

/-- `AAWProxy::startServer`; the result is the socket of the thread it starts. -/
def startServer : Serving (Option Nat) := do
  let some serverSock ← serve .socket | return none
  if (← serve (.reuseAddress serverSock)) = false then return none
  if (← serve (.bind serverSock)) = false then return none
  if (← serve (.listen serverSock)) = false then return none
  return some serverSock

/-- `AAWProxy::handleClient` once the accessory has been opened. -/
def forwardClient (proxy : AAWProxy) (tcpFd usbFd : Nat) : Serving AAWProxy := do
  if (← serve (.receiveTimeout tcpFd)) = false then return proxy
  let _ ← serve .sigaction
  serve (.forward usbFd tcpFd)
  serve .restoreSignal
  serve (.close usbFd)
  serve (.close tcpFd)
  return { proxy with usbFd := none, tcpFd := none }

/-- `AAWProxy::handleClient`. -/
def handleClient (strategy : ConnectionStrategy) (proxy : AAWProxy) (serverSock : Nat) :
    Serving AAWProxy := do
  let accepted ← serve (.accept serverSock)
  let proxy := { proxy with tcpFd := accepted }
  match accepted with
  | none =>
    serve (.close serverSock)
    return proxy
  | some tcpFd =>
    serve (.close serverSock)
    serve .stopConnectWithRetry
    if strategy ≠ .usbFirst then
      if (← serve .enableDefaultAndWaitForAccessory) = false then return proxy
    let opened ← serve .openAccessory
    let proxy := { proxy with usbFd := opened }
    match opened with
    | none => return proxy
    | some usbFd => forwardClient proxy tcpFd usbFd

end AAWProxy

/-- The proxy thread from its start to its end, unless the server does not start. -/
def proxySession (strategy : ConnectionStrategy) : Serving (Option AAWProxy) := do
  match ← AAWProxy.startServer with
  | none => return none
  | some serverSock => return some (← AAWProxy.handleClient strategy .new serverSock)

/-- One round of the loop in `main`, as far as its descriptors go: the proxy thread is
joined before the round ends, and a server that does not start ends the program. -/
def mainRound (strategy : ConnectionStrategy) : Serving (Option AAWProxy) := do
  if strategy = .usbFirst then
    let _ ← serve .enableDefaultAndWaitForAccessory
  proxySession strategy

/-- How the calls of one round turn out. -/
structure Outcomes where
  socket : Option Nat
  reuseAddress : Bool
  bind : Bool
  listen : Bool
  accept : Option Nat
  waited : Bool
  opened : Option Nat
  receiveTimeout : Bool
  sigaction : Bool

namespace Outcomes

def answer (o : Outcomes) : (c : ServeCall) → ServeAnswer c
  | .socket => o.socket
  | .reuseAddress _ => o.reuseAddress
  | .bind _ => o.bind
  | .listen _ => o.listen
  | .accept _ => o.accept
  | .enableDefaultAndWaitForAccessory => o.waited
  | .openAccessory => o.opened
  | .receiveTimeout _ => o.receiveTimeout
  | .sigaction => o.sigaction
  | .close _ | .stopConnectWithRetry | .forward _ _ | .restoreSignal => ()

def run {α : Type} (o : Outcomes) (p : Serving α) : Outcome ServeCall ServeAnswer Unit α :=
  CallProgram.run (fun s c => (o.answer c, s)) p ()

/-- The server is listening. -/
def serves (o : Outcomes) : Prop :=
  o.socket ≠ none ∧ o.reuseAddress = true ∧ o.bind = true ∧ o.listen = true

/-- The session comes to forwarding, or no phone was accepted. -/
def completes (strategy : ConnectionStrategy) (o : Outcomes) : Prop :=
  o.accept = none ∨
    (strategy = .usbFirst ∨ o.waited = true) ∧ o.opened ≠ none ∧ o.receiveTimeout = true

end Outcomes

/-- A descriptor the call gave, or the one it closed. -/
def entry? : Event ServeCall ServeAnswer → Option (Entry Nat)
  | ⟨.socket, fd⟩ => fd.map .acquire
  | ⟨.accept _, fd⟩ => fd.map .acquire
  | ⟨.openAccessory, fd⟩ => fd.map .acquire
  | ⟨.close fd, _⟩ => some (.release fd)
  | _ => none

def entries (tr : List (Event ServeCall ServeAnswer)) : List (Entry Nat) := tr.filterMap entry?

namespace Outcomes
variable (strategy : ConnectionStrategy) (o : Outcomes)

def clientEntries (serverSock : Nat) : List (Entry Nat) :=
  entries (o.run (AAWProxy.handleClient strategy .new serverSock)).trace

/-- No accessory came in the time `handleClient` waits for it. -/
def timesOut : Prop := strategy ≠ .usbFirst ∧ o.waited = false

instance : Decidable (o.timesOut strategy) := inferInstanceAs (Decidable (_ ∧ _))

/-- The entries from the accessory wait on. -/
def accessoryEntries (tcpFd : Nat) : List (Entry Nat) :=
  if o.timesOut strategy then []
  else
    match o.opened with
    | none => []
    | some usbFd =>
      .acquire usbFd :: if o.receiveTimeout = true then [.release usbFd, .release tcpFd] else []

/-- What `handleClient` leaves open of the descriptors it acquired. -/
def leaks : List Nat :=
  match o.accept with
  | none => []
  | some tcpFd =>
    if o.timesOut strategy then [tcpFd]
    else
      match o.opened with
      | none => [tcpFd]
      | some usbFd => if o.receiveTimeout = true then [] else [usbFd, tcpFd]

variable {o} {strategy}

theorem clientEntries_refused (h : o.accept = none) (serverSock : Nat) :
    o.clientEntries strategy serverSock = [.release serverSock] := by
  cases o with
  | mk =>
    cases h
    rfl

theorem clientEntries_accepted {tcpFd : Nat} (h : o.accept = some tcpFd) (serverSock : Nat) :
    o.clientEntries strategy serverSock =
      .acquire tcpFd :: .release serverSock :: o.accessoryEntries strategy tcpFd := by
  obtain ⟨_, _, _, _, accept, waited, opened, receiveTimeout, _⟩ := o
  cases h
  cases strategy <;> cases waited <;> cases opened <;> cases receiveTimeout <;> rfl

theorem clientEntries_settle (serverSock : Nat) :
    settle [serverSock] (o.clientEntries strategy serverSock) = some (o.leaks strategy) := by
  cases haccept : o.accept with
  | none => simp [clientEntries_refused haccept, leaks, haccept]
  | some tcpFd =>
    rw [clientEntries_accepted haccept, settle_acquire, settle_release_second]
    by_cases htime : o.timesOut strategy
    · simp [accessoryEntries, leaks, haccept, htime]
    · cases hopened : o.opened with
      | none => simp [accessoryEntries, leaks, haccept, htime, hopened]
      | some usbFd =>
        by_cases hset : o.receiveTimeout = true <;>
          simp [accessoryEntries, leaks, haccept, htime, hopened, hset]

theorem leaks_eq_nil : o.leaks strategy = [] ↔ o.completes strategy := by
  obtain ⟨_, _, _, _, accept, waited, opened, receiveTimeout, _⟩ := o
  cases accept with
  | none => simp [leaks, completes]
  | some tcpFd =>
    cases opened with
    | none => simp [leaks, completes]
    | some usbFd =>
      cases strategy <;> cases waited <;> cases receiveTimeout <;>
        simp [leaks, completes, timesOut]

end Outcomes

/-- After `handleClient` the server socket and every descriptor it acquired have been
closed, each once, and both members are -1. -/
structure Released (serverSock : Nat) (r : Outcome ServeCall ServeAnswer Unit AAWProxy) : Prop where
  settled : settle [serverSock] (entries r.trace) = some []
  reset : r.value = .new

theorem handleClient_value {strategy : ConnectionStrategy} {o : Outcomes}
    (h : o.completes strategy) (serverSock : Nat) :
    (o.run (AAWProxy.handleClient strategy .new serverSock)).value = .new := by
  obtain ⟨_, _, _, _, accept, waited, opened, receiveTimeout, _⟩ := o
  cases accept with
  | none => rfl
  | some tcpFd =>
    obtain ⟨hwait, hopened, hset⟩ := h.resolve_left (by simp)
    cases opened with
    | none => exact absurd rfl hopened
    | some usbFd =>
      cases hset
      cases strategy with
      | usbFirst => rfl
      | dongleMode | phoneFirst =>
        cases hwait.resolve_left (by simp)
        rfl

theorem released_iff (strategy : ConnectionStrategy) (o : Outcomes) (serverSock : Nat) :
    Released serverSock (o.run (AAWProxy.handleClient strategy .new serverSock)) ↔
      o.completes strategy := by
  have hsettle : settle [serverSock] (o.clientEntries strategy serverSock) =
    some (o.leaks strategy) := Outcomes.clientEntries_settle serverSock
  constructor
  · intro h
    rw [Outcomes.clientEntries, h.settled] at hsettle
    exact Outcomes.leaks_eq_nil.mp (Option.some.inj hsettle).symm
  · intro h
    rw [Outcomes.leaks_eq_nil.mpr h] at hsettle
    exact ⟨hsettle, handleClient_value h serverSock⟩

/-! The server -/

namespace Outcomes
variable (o : Outcomes)

def serverEntries : List (Entry Nat) := entries (o.run AAWProxy.startServer).trace

/-- The socket stays open whatever else fails. -/
theorem serverEntries_settle : settle [] o.serverEntries = some o.socket.toList := by
  obtain ⟨socket, reuseAddress, bind, listen, _, _, _, _, _⟩ := o
  cases socket with
  | none => rfl
  | some serverSock => cases reuseAddress <;> cases bind <;> cases listen <;> rfl

theorem startServer_value {serverSock : Nat} (hsocket : o.socket = some serverSock)
    (h : o.serves) : (o.run AAWProxy.startServer).value = some serverSock := by
  obtain ⟨_, hreuse, hbind, hlisten⟩ := h
  simp [run, AAWProxy.startServer, serve, answer, hsocket, hreuse, hbind, hlisten]

theorem startServer_fails {serverSock : Nat} (hsocket : o.socket = some serverSock)
    (h : ¬ o.serves) : (o.run AAWProxy.startServer).value = none := by
  obtain ⟨socket, reuseAddress, bind, listen, _, _, _, _, _⟩ := o
  cases hsocket
  cases reuseAddress with
  | false => rfl
  | true =>
    cases bind with
    | false => rfl
    | true =>
      cases listen with
      | false => rfl
      | true => exact absurd ⟨by simp, rfl, rfl, rfl⟩ h

/-- When `startServer` gives no thread, any socket it created has been closed. -/
def ServerReleased : Prop :=
  (o.run AAWProxy.startServer).value = none → settle [] o.serverEntries = some []

theorem serverReleased_iff : o.ServerReleased ↔ o.socket = none ∨ o.serves := by
  unfold ServerReleased
  rw [serverEntries_settle]
  cases hsocket : o.socket with
  | none => simp
  | some serverSock =>
    by_cases h : o.serves
    · simp [o.startServer_value hsocket h, h]
    · simp [o.startServer_fails hsocket h, h]

end Outcomes

/-! Rounds of the main loop -/

/-- A round that comes back to the top of the loop. -/
abbrev Completed := { o : Outcomes // o.serves }

/-- The session descriptors open at the top of the loop after some rounds. -/
def openAtTop (strategy : ConnectionStrategy) (os : List Completed) : Option (List Nat) :=
  settle [] (os.flatMap fun o => entries (o.1.run (mainRound strategy)).trace)

theorem proxySession_entries {strategy : ConnectionStrategy} {o : Outcomes} {serverSock : Nat}
    (hsocket : o.socket = some serverSock) (h : o.serves) :
    entries (o.run (proxySession strategy)).trace =
      o.serverEntries ++ o.clientEntries strategy serverSock := by
  have hvalue := o.startServer_value hsocket h
  unfold Outcomes.run at hvalue
  simp only [Outcomes.run, proxySession, run_bind, hvalue]
  simp [Outcomes.serverEntries, Outcomes.clientEntries, Outcomes.run, entries]

theorem mainRound_entries (strategy : ConnectionStrategy) (o : Outcomes) :
    entries (o.run (mainRound strategy)).trace =
      entries (o.run (proxySession strategy)).trace := by
  cases strategy <;> rfl

theorem mainRound_settle (strategy : ConnectionStrategy) (o : Completed) :
    settle [] (entries (o.1.run (mainRound strategy)).trace) = some (o.1.leaks strategy) := by
  obtain ⟨serverSock, hsocket⟩ := Option.ne_none_iff_exists'.mp o.2.1
  rw [mainRound_entries, proxySession_entries hsocket o.2, settle_append, Outcomes.serverEntries_settle, hsocket]
  exact Outcomes.clientEntries_settle serverSock

theorem openAtTop_concat {strategy : ConnectionStrategy} {os : List Completed} {held : List Nat}
    (h : openAtTop strategy os = some held) (o : Completed) :
    openAtTop strategy (os ++ [o]) = some (o.1.leaks strategy ++ held) := by
  have hround := mainRound_settle strategy o
  rw [openAtTop, List.flatMap_append, List.flatMap_singleton]
  exact settle_trans h hround

theorem openAtTop_some (strategy : ConnectionStrategy) (os : List Completed) :
    ∃ held, openAtTop strategy os = some held := by
  induction os using List.reverseRecOn with
  | nil => exact ⟨[], rfl⟩
  | append_singleton os o ih =>
    obtain ⟨held, hheld⟩ := ih
    exact ⟨_, openAtTop_concat hheld o⟩

/-- No round leaves more session descriptors open than there were before it. -/
def NeverGrows (strategy : ConnectionStrategy) (os : List Completed) : Prop :=
  ∀ pre o, pre ++ [o] <+: os → ∃ held held', openAtTop strategy pre = some held ∧
    openAtTop strategy (pre ++ [o]) = some held' ∧ held'.length ≤ held.length

theorem neverGrows_iff (strategy : ConnectionStrategy) (os : List Completed) :
    NeverGrows strategy os ↔ ∀ o ∈ os, o.1.completes strategy := by
  constructor
  · intro h o ho
    obtain ⟨pre, post, rfl⟩ := List.append_of_mem ho
    obtain ⟨held, held', hpre, hround, hle⟩ := h pre o ⟨post, by simp⟩
    rw [openAtTop_concat hpre o] at hround
    cases hround
    have hlen : (o.1.leaks strategy).length = 0 := by
      simp only [List.length_append] at hle
      omega
    exact Outcomes.leaks_eq_nil.mp (List.length_eq_zero_iff.mp hlen)
  · intro h pre o hpre
    have hmem : o ∈ os := hpre.subset (by simp)
    have hnil := Outcomes.leaks_eq_nil.mpr (h o hmem)
    obtain ⟨held, hheld⟩ := openAtTop_some strategy pre
    refine ⟨held, held, hheld, ?_, Nat.le_refl _⟩
    rw [openAtTop_concat hheld o, hnil, List.nil_append]

/-- A phone connects and the accessory does not start in time. -/
def unanswered : Outcomes where
  socket := some 3
  reuseAddress := true
  bind := true
  listen := true
  accept := some 4
  waited := false
  opened := none
  receiveTimeout := true
  sigaction := true

theorem unanswered_serves : unanswered.serves := ⟨by simp [unanswered], rfl, rfl, rfl⟩

/-- The sessions that give their descriptors back are those in which no phone was
accepted and those that came to forwarding. -/
theorem descriptors_released (strategy : ConnectionStrategy) :
    (∀ o serverSock, Released serverSock
      (Outcomes.run o (AAWProxy.handleClient strategy .new serverSock)) ↔ o.completes strategy) ∧
    (∀ o : Outcomes, o.ServerReleased ↔ o.socket = none ∨ o.serves) ∧
    ∀ os, NeverGrows strategy os ↔ ∀ o ∈ os, o.1.completes strategy :=
  ⟨released_iff strategy, Outcomes.serverReleased_iff, neverGrows_iff strategy⟩

/-- The phone's connection outlives the session, and there is one more after each such round. -/
theorem unanswered_leaks :
    ¬ Released 3 (unanswered.run (AAWProxy.handleClient .phoneFirst .new 3)) ∧
    ¬ NeverGrows .phoneFirst [⟨unanswered, unanswered_serves⟩] := by
  constructor
  · intro h
    have hreset := h.reset
    revert hreset
    decide
  · intro h
    obtain ⟨held, held', hpre, hround, hle⟩ := h [] _ (List.prefix_refl _)
    cases hpre
    cases hround
    revert hle
    decide

end Aawgd
