import Aawgd.DaemonCleanup
import Aawgd.DaemonProgress
import Aawgd.HostedSystem
import Aawgd.SessionEnd
import Aawgd.SessionTrace

/-! The daemon with its sessions: while the proxy thread forwards, the two forward threads go on
call by call between the steps of all the other threads. -/
namespace Aawgd
open GuardedSystem

/-- The proxy thread forwards in a session of its own, whose end it joins; a process that
misdirected a signal does nothing more. -/
def sessionHost (u : Setup) (buffers : Nat → ProxyDirection → Buffer) :
    Hosting Daemon DaemonAction Session Action where
  host := daemon u
  busy s := s.proxy == .forwarding
  guest s := session (buffers s.iteration)
  ended t := t.client == .closed
  alive t := !t.crashed
  idle := rfl

def daemonSessions (u : Setup) (buffers : Nat → ProxyDirection → Buffer) :
    GuardedSystem (Daemon × Option Session) (DaemonAction ⊕ Action) :=
  (sessionHost u buffers).system

instance decidableDaemonSessionsGuard (u : Setup) (buffers : Nat → ProxyDirection → Buffer)
    (p : Daemon × Option Session) (a : DaemonAction ⊕ Action) :
    Decidable ((daemonSessions u buffers).guard p a) :=
  @Hosting.decidableHostedGuard _ _ _ _ (sessionHost u buffers) (decidableDaemonGuard u)
    (fun s => decidableSessionGuard (buffers s.iteration)) p a

/-- A session lies within one iteration of `main`. -/
theorem iteration_forwarding {u : Setup} {s s' : Daemon} {a : DaemonAction}
    (hs : Scheduled u s.main s.proxy s.stop s.bt.retry) (hproxy : s.proxy = .forwarding)
    (hstep : DaemonStep u s a s') : s'.iteration = s.iteration := by
  cases hstep with
  | pause ok pc =>
    have hidle := hs.idle (by simp [pc, MainPc.serving])
    simp [hproxy] at hidle
  | _ => rfl

/-! The whole -/

/-- A step of the daemon's own threads that needs nobody outside. -/
def OwnMove (p : Daemon × Option Session) : DaemonAction ⊕ Action → Prop
  | .inl (.proxy _) => p.1.proxy ≠ .accept
  | .inl (.main _) | .inl .retry => True
  | .inl (.uevent _) | .inl .monitor => False
  | .inr a => a.own

section whole
variable {u : Setup} {buffers : Nat → ProxyDirection → Buffer} {run : List (DaemonAction ⊕ Action)}

theorem sessions_attended
    (hlegal : (daemonSessions u buffers).Legal (daemonStart, none) run) :
    (sessionHost u buffers).Attends (Hosting.guestPart run)
      ((daemonSessions u buffers).after (daemonStart, none) run) := by
  have hstart : Retrying u (sessionHost u buffers).host.init := .start
  have hkeep : ∀ s a, Retrying u s → (daemon u).guard s a → (sessionHost u buffers).busy s = true →
      (sessionHost u buffers).guest ((daemon u).effect s a) = (sessionHost u buffers).guest s := by
    intro s a h hguard hbusy
    have hproxy : s.proxy = .forwarding := by simpa [sessionHost] using hbusy
    have hsame := iteration_forwarding h.scheduled hproxy (daemon_step hguard)
    change session (buffers ((daemon u).effect s a).iteration) = session (buffers s.iteration)
    rw [hsame]
  exact Hosting.guest_run hstart (fun s a h hguard => h.step (daemon_step hguard))
    (fun s a h hguard hbusy _ => hkeep s a h hguard hbusy) hlegal

/-- Unless the process has crashed or ended, or something outside is awaited, one of the threads
can make a step of its own. -/
theorem moves_enabled {s : Daemon} {guest : Option Session} (h : Reached u s)
    (hpresent : guest.isSome = (s.proxy == .forwarding)) (hready : ∀ t ∈ guest, Ready t)
    (hbt : s.bt.crashed = false) (husb : s.usb.crashed = false)
    (halive : ∀ t ∈ guest, t.crashed = false) (hexited : s.main ≠ .exited)
    (hawaits : ¬ (AwaitsOutside u s ∧ ∀ t ∈ guest, AwaitsAnswer t)) :
    ∃ m, OwnMove (s, guest) m ∧ (daemonSessions u buffers).guard (s, guest) m := by
  have hhosted : ∀ t ∈ guest, (sessionHost u buffers).alive t = true := by
    intro t ht
    simp [sessionHost, halive t ht]
  cases guest with
  | none =>
    have hown : ¬ AwaitsOutside u s := fun hw => hawaits ⟨hw, by simp⟩
    obtain ⟨a, ha, hguard⟩ := works_enabled h hbt husb hexited hown
    refine ⟨.inl a, ?_, hhosted, hguard, by simp⟩
    cases a with
    | main ok | retry => exact trivial
    | proxy ok => exact ha.1
    | uevent env | monitor => exact ha
  | some t =>
    have hproxy : s.proxy = .forwarding := by simpa using hpresent
    by_cases hclosed : t.client = .closed
    · have hguard : (daemon u).guard s (.proxy true) :=
        (guard_of_step hbt husb).2.1 true (by simp [Daemon.proxyStep, hproxy])
      refine ⟨.inl (.proxy true), by simp [OwnMove, hproxy], hhosted, hguard, fun _ t' ht' => ?_⟩
      cases ht'
      simp [sessionHost, hclosed]
    · have hgoes : ¬ AwaitsAnswer t := by
        intro hw
        refine hawaits ⟨.session hproxy, fun t' ht' => ?_⟩
        cases ht'
        exact hw
      obtain ⟨a, hown, hguard⟩ := (hready t rfl).moves hclosed hgoes
      exact ⟨.inr a, hown, t, rfl, hhosted t rfl, hguard⟩

end whole

/-- The daemon with its sessions. Each run of it is a run of the daemon, and what the forward
threads do in the session at hand is a run of one session from its start. It stands still only
where it has crashed or ended, or where something outside is awaited: a START event with the
accessory first, the phone where no adapter calls it, or, in a session, the answer of a descriptor
that every forward thread still running is blocked on. -/
theorem daemon_sessions (u : Setup) (buffers : Nat → ProxyDirection → Buffer)
    (run : List (DaemonAction ⊕ Action))
    (hlegal : (daemonSessions u buffers).Legal (daemonStart, none) run) :
    let p := (daemonSessions u buffers).after (daemonStart, none) run
    ((daemon u).Legal daemonStart (Hosting.hostPart run) ∧
      (daemon u).after daemonStart (Hosting.hostPart run) = p.1) ∧
    (∀ t, p.2 = some t → ∃ as, as <:+ Hosting.guestPart run ∧
      (session (buffers p.1.iteration)).Legal sessionStart as ∧
      (session (buffers p.1.iteration)).after sessionStart as = t) ∧
    (p.1.bt.crashed = false → (∀ t ∈ p.2, t.crashed = false) → p.1.main ≠ .exited →
      ¬ (AwaitsOutside u p.1 ∧ ∀ t ∈ p.2, AwaitsAnswer t) →
      ∃ m, OwnMove p m ∧ (daemonSessions u buffers).guard p m) := by
  intro p
  obtain ⟨hhost, hafter⟩ := Hosting.host_run hlegal
  have hattends := sessions_attended hlegal
  refine ⟨⟨hhost, hafter⟩, hattends.run, fun hbt halive hexited hawaits => ?_⟩
  have hreached : Reached u p.1 := hafter ▸ reached hhost
  have husb : p.1.usb.crashed = false := hafter ▸ (accessory_promises_once u _ hhost).2
  have hready : ∀ t ∈ p.2, Ready t := by
    intro t ht
    obtain ⟨as, -, hsession, rfl⟩ := hattends.run t ht
    exact ready hsession
  exact moves_enabled hreached hattends.present hready hbt husb halive hexited hawaits

/-- The phone connects and the accessory is opened. -/
def upToForwarding : List DaemonAction :=
  upToStart ++ [.monitor, .monitor, .monitor, .monitor, .proxy true, .proxy true, .proxy true]

/-- In the session that follows the phone hangs up. -/
def servedRun : List (DaemonAction ⊕ Action) :=
  upToForwarding.map Sum.inl ++ phoneHangsUp.map Sum.inr

theorem daemon_sessions_served :
    let p := (daemonSessions bareSetup fun _ => zeroStack).after (daemonStart, none) servedRun
    (daemonSessions bareSetup fun _ => zeroStack).Legal (daemonStart, none) servedRun ∧
      p.1.proxy = .forwarding ∧
      ∃ m, OwnMove p m ∧ (daemonSessions bareSetup fun _ => zeroStack).guard p m := by
  intro p
  have hlegal : (daemonSessions bareSetup fun _ => zeroStack).Legal (daemonStart, none)
      servedRun := by decide +kernel
  have hfree : p.2.map (fun t => ((t.forwarder .usbToTcp).code.isFinished,
      (t.forwarder .usbToTcp).blocked)) = some (false, false) := by decide +kernel
  refine ⟨hlegal, by decide +kernel, (daemon_sessions bareSetup _ servedRun hlegal).2.2
    (by decide +kernel) (by decide +kernel) (by decide +kernel) fun ⟨_, hawaits⟩ => ?_⟩
  obtain ⟨t, ht, hstate⟩ := Option.map_eq_some_iff.mp hfree
  obtain ⟨hrunning, hblocked⟩ := Prod.mk.inj hstate
  obtain hended | ⟨c, -, -, hheld, -⟩ := (hawaits t ht).1 .usbToTcp
  · simp [hended, Code.isFinished] at hrunning
  · simp [hblocked] at hheld

end Aawgd
