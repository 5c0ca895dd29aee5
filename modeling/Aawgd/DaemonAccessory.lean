import Aawgd.AccessoryWait
import Aawgd.DaemonCleanup

/-! The USB manager of the daemon runs as the USB manager alone does. -/
namespace Aawgd

/-- A state of the daemon and one of its USB manager alone. -/
structure SameUsb (u : Setup) (s : Daemon) (w : Watch) : Prop where
  tidy : Tidy u s
  same : w.usb = s.usb

theorem SameUsb.step {u : Setup} {s : Daemon} {w : Watch} {a : DaemonAction} (h : SameUsb u s w)
    (hguard : (daemon u).guard s a) : ∃ bs, (watched u.udcName).Legal w bs ∧
      SameUsb u ((daemon u).effect s a) ((watched u.udcName).after w bs) := by
  have hstep := daemon_step hguard
  have htidy := h.tidy.step hstep
  cases h.tidy.calling.usbStep h.tidy.retrying.scheduled hstep with
  | inl hsame => exact ⟨[], trivial, htidy, h.same.trans hsame.symm⟩
  | inr husb =>
    obtain ⟨b, hb⟩ := husb
    rw [← h.same] at hb
    have hw := Watch.step_of_usb (hb.enabled (h.same ▸ h.tidy.listed.running))
    have hwatch : (watched u.udcName).guard w b ∧ (watched u.udcName).effect w b = _ :=
      GuardedSystem.ofStep_some hw
    refine ⟨[b], ⟨hwatch.1, trivial⟩, htidy, ?_⟩
    exact congrArg Watch.usb hwatch.2

/-- Each run of the daemon is, for its USB manager, a run of calls, events and cleanups. -/
theorem daemon_watched (u : Setup) (run : List DaemonAction)
    (hlegal : (daemon u).Legal daemonStart run) :
    ∃ usbRun, (watched u.udcName).Legal watchStart usbRun ∧
      ((watched u.udcName).after watchStart usbRun).usb = ((daemon u).after daemonStart run).usb := by
  have hstart : SameUsb u daemonStart watchStart := ⟨Tidy.start, rfl⟩
  obtain ⟨usbRun, hrun, hsame⟩ := GuardedSystem.simulates
    (fun s w a (h : SameUsb u s w) hguard => h.step hguard) hstart hlegal
  exact ⟨usbRun, hrun, hsame.same⟩

/-- In a run of the daemon no accessory promise is set twice, so the monitor thread does
not throw. -/
theorem accessory_promises_once (u : Setup) (run : List DaemonAction)
    (hlegal : (daemon u).Legal daemonStart run) :
    (∀ k, ((daemon u).after daemonStart run).usb.setCalls k ≤ 1) ∧
      ((daemon u).after daemonStart run).usb.crashed = false := by
  obtain ⟨usbRun, hrun, hsame⟩ := daemon_watched u run hlegal
  have hlisted := (Watched.run hrun).listed
  rw [hsame] at hlisted
  exact ⟨hlisted.once, hlisted.running⟩

end Aawgd
