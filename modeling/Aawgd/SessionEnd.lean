import Aawgd.SessionStop

/-! The end of a session is reached: once `should_exit` is set only boundedly many steps are
left, and a session in which nothing can happen any more has joined both threads. -/
namespace Aawgd
open ByteStream CallProgram GuardedSystem

/-! The calls of a thread -/

theorem readLoop_calls {fd : Fd} (nbyte : Nat) (buffer : Buffer) (offset remaining : Nat) :
    (readLoop fd nbyte buffer offset remaining).Calls remaining := by
  induction remaining using Nat.strongRecOn generalizing buffer offset with
  | ind remaining ih =>
    rw [readLoop]
    split
    · simp
    next hleft =>
      obtain ⟨m, rfl⟩ := Nat.exists_eq_succ_of_ne_zero hleft
      intro r
      cases r with
      | error | eof => simp
      | data bytes pos le => exact (ih _ (by omega) _ _).mono (by omega)

theorem readMessage_calls {fd : Fd} {bufferLen : Nat} (buffer : Buffer)
    (hroom : headerLength < bufferLen) : (readMessage fd buffer bufferLen).Calls bufferLen := by
  have hsplit : bufferLen = headerLength + (bufferLen - headerLength) := by omega
  rw [hsplit]
  refine (readLoop_calls _ _ _ _).bind fun ⟨len, buffer⟩ => ?_
  dsimp only
  split
  · simp
  split
  · have herrno : Calls 1 (sys .setErrnoEmsgsize >>= fun _ => .ret (-1, buffer) :
        Proxy (Int × Buffer)) := fun _ => calls_ret _ _
    exact herrno.mono (by omega)
  · refine Calls.mono (n := messageLength (buffer 1) (buffer 2) (buffer 3) + 0) ?_ (by omega)
    refine (readLoop_calls _ _ _ _).bind fun ⟨len, buffer⟩ => ?_
    dsimp only
    split <;> simp

theorem readBlock_calls (d : ProxyDirection) (buffer : Buffer) :
    (readBlock d buffer).Calls maxFrame := by
  cases d with
  | tcpToUsb => exact readMessage_calls buffer (by decide)
  | usbToTcp =>
    have hone : (readBlock .usbToTcp buffer).Calls 1 := by
      intro r
      cases r <;> exact calls_ret _ _
    exact hone.mono (by decide)

theorem unlessStopped_calls {n : Nat} {p : Proxy (Option Buffer)} (h : p.Calls n) :
    (unlessStopped p).Calls (n + 1) := by
  intro stop
  cases stop with
  | true => simp
  | false => exact h

/-- The calls of a round: three looks at the flag, the reads and the write. -/
def roundCalls : Nat := maxFrame + 4

theorem forwardRound_calls (d : ProxyDirection) (buffer : Buffer) :
    (forwardRound d buffer).Calls roundCalls := by
  have hwrite (block : List UInt8) (buffer : Buffer) : (writeBlock d block buffer).Calls 2 := by
    intro r
    cases r with
    | error => simp
    | accepted count le => exact unlessStopped_calls (n := 0) (by simp)
  refine unlessStopped_calls (n := maxFrame + 3) ((readBlock_calls d buffer).bind ?_)
  intro ⟨len, buffer⟩
  dsimp only [checkBlock]
  split
  · simp
  split
  · simp
  exact unlessStopped_calls (hwrite _ _)

theorem stopForwarding_calls : stopForwarding.Calls 5 := by
  have hlast : (signal .tcpToUsb (.ret ())).Calls 2 := by
    intro present
    cases present with
    | false => simp
    | true => exact fun _ => calls_ret _ _
  refine fun _ present => ?_
  cases present with
  | false => exact hlast.mono (by decide)
  | true => exact fun _ => hlast

/-! What is left of a thread once the flag is set -/

/-- At most n more calls: the thread ends its round without a further write, unless it stands
right at it, and then stops. -/
inductive Winding : Nat → Code → Prop
  | notStarted : Winding (roundCalls + 5) .notStarted
  | looping {n : Nat} {p : Proxy (Option Buffer)} (calls : p.Calls n)
    (last : Quits p ∨ AtWrite p) : Winding (n + 5) (.looping p)
  | stopping {n : Nat} {p : Proxy Unit} (calls : p.Calls n) : Winding n (.stopping p)
  | finished {n : Nat} : Winding n .finished

theorem Winding.begin (d : ProxyDirection) (buffer : Buffer) :
    Winding (roundCalls + 5) (.looping (forwardRound d buffer)) :=
  .looping (forwardRound_calls d buffer) (.inl (quits_unlessStopped _))

theorem Winding.whole {n : Nat} (h : Winding n .notStarted) : n = roundCalls + 5 := by
  cases h
  rfl

theorem Winding.ofRound {n : Nat} {p : Proxy (Option Buffer)} (hcalls : p.Calls n)
    (hquits : Quits p) (d : ProxyDirection) : Winding (n + 5) (Code.ofRound d p) := by
  cases p with
  | ret o =>
    cases o with
    | none => exact .stopping (stopForwarding_calls.mono (by omega))
    | some buffer => cases hquits
  | call c k => exact .looping hcalls (.inl hquits)

theorem Winding.answered {n : Nat} {code : Code} {d : ProxyDirection} {c : Call}
    {k : Answer c → Code} (h : Winding n code) (hnext : code.next? d = some ⟨c, k⟩) {r : Answer c}
    (hset : (⟨c, r⟩ : Event Call Answer) ≠ ⟨.shouldExit, false⟩) :
    ∃ m, n = m + 1 ∧ Winding m (k r) := by
  cases h with
  | notStarted | finished => cases hnext
  | looping hcalls hlast =>
    rename_i n p
    cases p with
    | ret o => cases hnext
    | call c k =>
      cases hnext
      cases n with
      | zero => cases hcalls
      | succ n =>
        refine ⟨n + 5, by omega, .ofRound (hcalls r) ?_ d⟩
        cases hlast with
        | inl hquits => exact hquits.2 r hset
        | inr hwrite => exact hwrite.2 r
  | stopping hcalls =>
    rename_i p
    cases p with
    | ret u => cases hnext
    | call c k =>
      cases hnext
      cases n with
      | zero => cases hcalls
      | succ n =>
        refine ⟨n, rfl, ?_⟩
        have hrest := hcalls r
        change Winding n (Code.ofStop (k r))
        cases hk : k r with
        | ret u => exact .finished
        | call c' k' =>
          rw [hk] at hrest
          exact .stopping hrest

theorem Course.winding {d : ProxyDirection} {tr : Trace} {code : Code} (h : Course d tr code)
    (hcall : ∀ o, code ≠ .looping (.ret o)) : ∃ n, n ≤ roundCalls + 5 ∧ Winding n code := by
  cases h with
  | notStarted => exact ⟨_, le_rfl, .notStarted⟩
  | looping hsent hquiet hreaches =>
    rename_i buffer p
    refine ⟨roundCalls + 5, le_rfl, .looping (hreaches.calls (forwardRound_calls d buffer)) ?_⟩
    cases p with
    | ret o => exact absurd rfl (hcall o)
    | call c k => exact ((prompt_forwardRound d buffer).reaches hreaches).1
  | stopping hquiet hreaches =>
    exact ⟨5, by omega, .stopping (hreaches.calls stopForwarding_calls)⟩
  | finished => exact ⟨0, by omega, .finished⟩

/-! Where a thread is stuck -/

/-- A thread without a next call has not begun or has ended. -/
def Code.AtCall (code : Code) : Prop := code.call? = none → code = .notStarted ∨ code = .finished

theorem atCall_begin (d : ProxyDirection) (buffer : Buffer) :
    (Code.looping (forwardRound d buffer)).AtCall := nofun

theorem atCall_answered {code : Code} {d : ProxyDirection} {c : Call} {k : Answer c → Code}
    (hnext : code.next? d = some ⟨c, k⟩) (r : Answer c) :
    (k r).AtCall ∧ k r ≠ .notStarted := by
  have hround (p : Proxy (Option Buffer)) :
      (Code.ofRound d p).AtCall ∧ Code.ofRound d p ≠ .notStarted := by
    cases p with
    | ret o =>
      cases o with
      | none => exact ⟨nofun, nofun⟩
      | some buffer => exact ⟨atCall_begin d buffer, nofun⟩
    | call c k => exact ⟨nofun, nofun⟩
  have hstop (p : Proxy Unit) : (Code.ofStop p).AtCall ∧ Code.ofStop p ≠ .notStarted := by
    cases p with
    | ret u => exact ⟨fun _ => .inr rfl, nofun⟩
    | call c k => exact ⟨nofun, nofun⟩
  cases code with
  | notStarted | finished => cases hnext
  | looping p =>
    cases p with
    | ret o => cases hnext
    | call c k =>
      cases hnext
      exact hround (k r)
  | stopping p =>
    cases p with
    | ret u => cases hnext
    | call c k =>
      cases hnext
      exact hstop (k r)

structure Ready (s : Session) : Prop where
  atCall : ∀ d, (s.forwarder d).code.AtCall
  begun : ∀ d, (s.forwarder d).code = .notStarted → s.client.rank ≤ (ClientPc.spawn d).rank

theorem Ready.start : Ready sessionStart where
  atCall _ _ := .inl rfl
  begun _ _ := Nat.zero_le _

theorem Ready.frame {s s' : Session} (h : Ready s) (hclient : s'.client = s.client)
    (hcode : ∀ d, (s'.forwarder d).code = (s.forwarder d).code ∨
      ((s'.forwarder d).code.AtCall ∧ (s'.forwarder d).code ≠ .notStarted)) : Ready s' where
  atCall d := by
    cases hcode d with
    | inl hsame => exact hsame ▸ h.atCall d
    | inr hnew => exact hnew.1
  begun d hd := by
    rw [hclient]
    cases hcode d with
    | inl hsame => exact h.begun d (hsame ▸ hd)
    | inr hnew => exact absurd hd hnew.2

/-- A statement of `handleClient` that starts no thread. -/
theorem Ready.advance {s s' : Session} (h : Ready s)
    (hcode : ∀ d, (s'.forwarder d).code = (s.forwarder d).code)
    (hpc : ∀ d, s.client ≠ .spawn d) (hrank : s'.client.rank ≤ s.client.rank + 1) : Ready s' where
  atCall d := hcode d ▸ h.atCall d
  begun d hd := by
    have hle := h.begun d (hcode d ▸ hd)
    have hne : s.client.rank ≠ (ClientPc.spawn d).rank := by
      intro heq
      refine hpc d ?_
      cases hc : s.client with
      | spawn e | assign e | join e | reset e => cases d <;> cases e <;> simp_all [ClientPc.rank]
      | restore | closed => cases d <;> simp_all [ClientPc.rank]
    omega

theorem Ready.step {stack : ProxyDirection → Buffer} {s s' : Session} {a : Action} (h : Ready s)
    (hstep : SessionStep stack s a s') : Ready s' := by
  cases hstep with
  | spawn d hpc =>
    constructor
    · intro e
      by_cases he : e = d
      · subst he
        simpa [Session.resume] using atCall_begin e (stack e)
      · simpa [Session.resume, he] using h.atCall e
    · intro e he
      by_cases hd : e = d
      · subst hd
        simp [Session.resume] at he
      · have hle := h.begun e (by simpa [Session.resume, hd] using he)
        rw [hpc] at hle
        cases d <;> cases e <;> simp_all [ClientPc.rank]
  | assign d hpc =>
    refine h.advance (fun _ => rfl) (by simp [hpc]) ?_
    rw [hpc]
    cases d <;> simp [afterAssign, ClientPc.rank]
  | join d hpc =>
    refine h.advance (fun _ => rfl) (by simp [hpc]) ?_
    rw [hpc]
    cases d <;> simp [ClientPc.rank]
  | reset d hpc =>
    refine h.advance (fun _ => rfl) (by simp [hpc]) ?_
    rw [hpc]
    cases d <;> simp [afterReset, ClientPc.rank]
  | restore hpc =>
    refine h.advance (fun _ => rfl) (by simp [hpc]) ?_
    rw [hpc]
    simp [ClientPc.rank]
  | enter d =>
    refine h.frame rfl fun e => .inl ?_
    by_cases he : e = d <;> simp [he]
  | answered d a c k r hnext =>
    refine h.frame (perform_client s c) fun e => ?_
    by_cases he : e = d
    · subst he
      exact .inr (by simpa [Session.resume] using atCall_answered hnext r)
    · exact .inl (by simp [Session.resume, he])
  | interrupted d c k r hnext =>
    refine h.frame rfl fun e => ?_
    by_cases he : e = d
    · subst he
      exact .inr (by simpa [Session.resume] using atCall_answered hnext r)
    · exact .inl (by simp [Session.resume, he])
  | ignored d => exact h.frame rfl fun e => .inl (setPending_code s d false e)

theorem ready {stack : ProxyDirection → Buffer} {as : List Action}
    (h : (session stack).Legal sessionStart as) : Ready ((session stack).after sessionStart as) :=
  invariant_all (fun _ _ hr hg => hr.step (session_step hg)) Ready.start h

theorem next?_of_call? {code : Code} {c : Call} (h : code.call? = some c) (d : ProxyDirection) :
    ∃ k, code.next? d = some ⟨c, k⟩ := by
  cases code with
  | notStarted | finished => cases h
  | looping p | stopping p =>
    cases p with
    | ret o => cases h
    | call c k =>
      cases h
      exact ⟨_, rfl⟩

/-- A forward thread has ended, or is inside a read or a write and no signal is on its way. -/
def Held (s : Session) (d : ProxyDirection) : Prop :=
  (s.forwarder d).code = .finished ∨ ∃ c, (s.forwarder d).code.call? = some c ∧
    c.blocks = true ∧ (s.forwarder d).blocked = true ∧ (s.forwarder d).pending = false

/-- One of the descriptors has to answer before anything else happens. -/
def AwaitsAnswer (s : Session) : Prop :=
  (∀ d, Held s d) ∧ ∃ d, (s.forwarder d).code ≠ .finished

/-- Every step but the return of a blocked call. -/
def Action.own : Action → Prop
  | .client | .run _ | .enter _ | .deliver _ => True
  | .returns _ _ => False

section moves
variable {stack : ProxyDirection → Buffer} {s : Session} {d : ProxyDirection}

/-- A thread at a call makes it, enters it or is interrupted in it, if it is not held. -/
theorem held_or_moves {c : Call} (hcall : (s.forwarder d).code.call? = some c) :
    Held s d ∨ ∃ a : Action, a.own ∧ (session stack).guard s a := by
  obtain ⟨k, hnext⟩ := next?_of_call? hcall d
  cases hblocks : c.blocks with
  | false =>
    refine .inr ⟨.run d, trivial, ?_⟩
    change (sessionStep stack s (.run d)).isSome = true
    cases c <;> simp_all [sessionStep, Session.answer, Call.blocks]
  | true =>
    cases hblocked : (s.forwarder d).blocked with
    | false =>
      refine .inr ⟨.enter d, trivial, ?_⟩
      change (sessionStep stack s (.enter d)).isSome = true
      simp [sessionStep, hcall, hblocks, hblocked]
    | true =>
      cases hpending : (s.forwarder d).pending with
      | false => exact .inl (.inr ⟨c, hcall, hblocks, hblocked, hpending⟩)
      | true =>
        refine .inr ⟨.deliver d, trivial, ?_⟩
        change (sessionStep stack s (.deliver d)).isSome = true
        cases c <;> simp_all [sessionStep, Call.blocks, interrupted]

/-- A descriptor may answer. -/
theorem AwaitsAnswer.enabled (h : AwaitsAnswer s) : ∃ a, (session stack).guard s a := by
  obtain ⟨hheld, d, hrunning⟩ := h
  obtain hended | ⟨c, hcall, hblocks, hblocked, -⟩ := hheld d
  · exact absurd hended hrunning
  obtain ⟨k, hnext⟩ := next?_of_call? hcall d
  have hreturns (r : Answer c) : (session stack).guard s (.returns d ⟨c, r⟩) := by
    change (sessionStep stack s (.returns d ⟨c, r⟩)).isSome = true
    simp [sessionStep, hnext, hblocks, hblocked]
  cases c with
  | read fd offset n => exact ⟨_, hreturns .error⟩
  | write fd block => exact ⟨_, hreturns .error⟩
  | _ => cases hblocks

/-- Unless it is closed or a descriptor has to answer, a session goes on by itself. -/
theorem Ready.moves (h : Ready s) (hopen : s.client ≠ .closed) (hawaits : ¬ AwaitsAnswer s) :
    ∃ a : Action, a.own ∧ (session stack).guard s a := by
  have hclient (hstep : (sessionStep stack s .client).isSome = true) :
      ∃ a : Action, a.own ∧ (session stack).guard s a := ⟨.client, trivial, hstep⟩
  cases hpc : s.client with
  | closed => exact absurd hpc hopen
  | spawn d | assign d | reset d | restore => exact hclient (by simp [sessionStep, clientStep, hpc])
  | join d =>
    by_cases hended : (s.forwarder d).code = .finished
    · exact hclient (by simp [sessionStep, clientStep, hpc, hended, Code.isFinished])
    -- one of the threads is not held; it has begun and is not at its end, so it has a call
    obtain ⟨e, he⟩ : ∃ e, ¬ Held s e := by
      by_contra hall
      exact hawaits ⟨fun e => by_contra fun he => hall ⟨e, he⟩, d, hended⟩
    cases hcall : (s.forwarder e).code.call? with
    | some c => exact (held_or_moves hcall).resolve_left he
    | none =>
      exfalso
      cases h.atCall e hcall with
      | inl hnone =>
        have hle := h.begun e hnone
        rw [hpc] at hle
        cases d <;> cases e <;> simp [ClientPc.rank] at hle
      | inr hend => exact he (.inl hend)

/-- A session where nothing can happen is closed. -/
theorem Ready.closed (h : Ready s) (hstuck : ∀ a, ¬ (session stack).guard s a) :
    s.client = .closed := by
  by_contra hopen
  by_cases hawaits : AwaitsAnswer s
  · obtain ⟨a, ha⟩ : ∃ a, (session stack).guard s a := hawaits.enabled
    exact hstuck a ha
  · obtain ⟨a, -, ha⟩ : ∃ a : Action, a.own ∧ (session stack).guard s a :=
      h.moves hopen hawaits
    exact hstuck a ha

end moves

/-! What a session may still do -/

/-- The steps of a thread with n calls left: each call may be entered and answered, and may
leave a signal pending with either thread. -/
def cost (n : Nat) (f : Forwarder) : Nat :=
  4 * n + (if f.blocked = true then 0 else 1) + (if f.pending = true then 1 else 0)

def price (n : ProxyDirection → Nat) (s : Session) : Nat :=
  cost (n .usbToTcp) (s.forwarder .usbToTcp) + cost (n .tcpToUsb) (s.forwarder .tcpToUsb) +
    2 * (ClientPc.closed.rank - s.client.rank)

/-- The flag is set and the session has at most w steps left. -/
structure Worth (w : Nat) (s : Session) : Prop where
  set : s.shouldExit = true
  spent : ∃ n, (∀ d, Winding (n d) (s.forwarder d).code) ∧ price n s ≤ w

@[simp] theorem put_client (s : Session) (d : ProxyDirection) (f : Forwarder) :
    (s.put d f).client = s.client := rfl

/-- All but one of the threads keep what they may do, and so does `handleClient`. -/
theorem price_lt {n : ProxyDirection → Nat} {s s' : Session} {d : ProxyDirection} {m : Nat}
    (hclient : s'.client = s.client)
    (hother : ∀ e, e ≠ d → cost (n e) (s'.forwarder e) ≤ cost (n e) (s.forwarder e) + 1)
    (hown : cost m (s'.forwarder d) + 1 < cost (n d) (s.forwarder d)) :
    price (Function.update n d m) s' < price n s := by
  unfold price
  rw [hclient]
  cases d with
  | usbToTcp =>
    have hle := hother .tcpToUsb (by simp)
    simp
    omega
  | tcpToUsb =>
    have hle := hother .usbToTcp (by simp)
    simp
    omega

/-- A call leaves at most one signal pending, and on one thread. -/
theorem perform_cost (s : Session) (c : Call) (n : Nat) (d : ProxyDirection) :
    cost n ((s.perform c).forwarder d) ≤ cost n (s.forwarder d) + 1 := by
  have hblocked := perform_blocked s d c
  unfold cost
  rw [hblocked]
  split <;> split <;> omega

theorem resume_cost (s : Session) (n : Nat) (d : ProxyDirection) (code : Code) :
    cost n ((s.resume d code).forwarder d) ≤ 4 * n + 2 := by
  simp only [Session.resume, put_self, cost]
  split <;> split <;> omega

theorem Worth.of_answer {w : Nat} {s t : Session} {d : ProxyDirection} {c : Call}
    {k : Answer c → Code} {r : Answer c} (h : Worth w s)
    (hnext : (s.forwarder d).code.next? d = some ⟨c, k⟩)
    (hset : (⟨c, r⟩ : Event Call Answer) ≠ ⟨.shouldExit, false⟩) (hclient : t.client = s.client)
    (hcode : ∀ e, (t.forwarder e).code = (s.forwarder e).code)
    (hcost : ∀ e n, cost n (t.forwarder e) ≤ cost n (s.forwarder e) + 1)
    (hexit : t.shouldExit = true) : ∃ m, m < w ∧ Worth m (t.resume d (k r)) := by
  obtain ⟨n, hwinding, hprice⟩ := h.spent
  obtain ⟨m, hm, hrest⟩ := (hwinding d).answered hnext hset
  refine ⟨price (Function.update n d m) (t.resume d (k r)), ?_, hexit, _, fun e => ?_, le_rfl⟩
  · have hlt : price (Function.update n d m) (t.resume d (k r)) < price n s := by
      refine price_lt hclient (fun e he => ?_) ?_
      · simpa [Session.resume, he] using hcost e (n e)
      · have hown := resume_cost t m d (k r)
        unfold cost at hown ⊢
        omega
    exact hlt.trans_le hprice
  · by_cases he : e = d
    · subst he
      simpa [Session.resume] using hrest
    · simpa [Session.resume, he, hcode] using hwinding e

theorem shouldExit_performed {s : Session} (c : Call) (hexit : s.shouldExit = true) :
    (s.perform c).shouldExit = true := by
  cases c <;> simp [Session.perform, hexit]

/-- A step after which no thread has another program point or more to do. -/
theorem Worth.of_stays {w : Nat} {s s' : Session} (h : Worth w s) (hexit : s'.shouldExit = true)
    (hcode : ∀ d, (s'.forwarder d).code = (s.forwarder d).code)
    (hprice : ∀ n, price n s' < price n s) : ∃ m, m < w ∧ Worth m s' := by
  obtain ⟨n, hwinding, hle⟩ := h.spent
  exact ⟨price n s', (hprice n).trans_le hle, hexit, n, fun d => hcode d ▸ hwinding d, le_rfl⟩

/-- A statement of `handleClient` that starts no thread. -/
theorem Worth.of_advance {w : Nat} {s s' : Session} (h : Worth w s)
    (hexit : s'.shouldExit = s.shouldExit) (hforwarder : s'.forwarder = s.forwarder)
    (hrank : s'.client.rank = s.client.rank + 1) : ∃ m, m < w ∧ Worth m s' := by
  refine h.of_stays (hexit.trans h.set) (fun d => by rw [hforwarder]) fun n => ?_
  have hclosed : s'.client.rank ≤ ClientPc.closed.rank := by
    cases s'.client with
    | spawn d | assign d | join d | reset d => cases d <;> decide
    | restore | closed => decide
  unfold price
  rw [hforwarder, hrank] at *
  omega

theorem Worth.of_client {w : Nat} {stack : ProxyDirection → Buffer} {s s' : Session}
    (h : Worth w s) (horderly : Orderly s) (hstep : SessionStep stack s .client s') :
    ∃ m, m < w ∧ Worth m s' := by
  cases hstep with
  | spawn d hpc =>
    obtain ⟨n, hwinding, hprice⟩ := h.spent
    refine ⟨_, ?_, h.set, n, fun e => ?_, le_rfl⟩
    · refine lt_of_lt_of_le ?_ hprice
      simp only [price, hpc]
      cases d <;> simp [Session.resume, cost, ClientPc.rank] <;> split <;> omega
    · by_cases he : e = d
      · subst he
        have hold := hwinding e
        rw [horderly.unstarted e (by rw [hpc])] at hold
        simpa [Session.resume, hold.whole] using Winding.begin e (stack e)
      · simpa [Session.resume, he] using hwinding e
  | assign d hpc | join d hpc | reset d hpc =>
    refine h.of_advance rfl rfl ?_
    rw [hpc]
    cases d <;> rfl
  | restore hpc =>
    refine h.of_advance rfl rfl ?_
    rw [hpc]
    rfl
  | answered d a c k r hnext hown haction => simp at haction

theorem Worth.of_enter {w : Nat} {s : Session} (h : Worth w s) {d : ProxyDirection}
    (hfree : (s.forwarder d).blocked = false) :
    ∃ m, m < w ∧ Worth m (s.put d { s.forwarder d with blocked := true }) := by
  refine h.of_stays h.set (fun e => ?_) fun n => ?_
  · by_cases he : e = d <;> simp [he]
  · unfold price cost
    cases d <;> simp [hfree]

theorem Worth.of_ignored {w : Nat} {s : Session} (h : Worth w s) {d : ProxyDirection}
    (hpending : (s.forwarder d).pending = true) :
    ∃ m, m < w ∧ Worth m (s.setPending d false) := by
  refine h.of_stays h.set (setPending_code s d false) fun n => ?_
  unfold price cost
  cases d <;> simp [Session.setPending, hpending]

theorem Worth.step {stack : ProxyDirection → Buffer} {w : Nat} {s : Session} {a : Action}
    (h : Worth w s) (horderly : Orderly s) (hguard : (session stack).guard s a) :
    ∃ m, m < w ∧ Worth m ((session stack).effect s a) := by
  have hstep := GuardedSystem.ofStep_effect hguard
  change sessionStep stack s a = some ((session stack).effect s a) at hstep
  generalize (session stack).effect s a = s' at hstep
  cases a with
  | client => exact h.of_client horderly (sessionStep_cases hstep)
  | run d =>
    simp only [sessionStep] at hstep
    split at hstep
    next => cases hstep
    next c k hnext =>
      split at hstep
      next => cases hstep
      next r hr =>
        cases hstep
        -- a look at the flag finds it set
        have hset : (⟨c, r⟩ : Event Call Answer) ≠ ⟨.shouldExit, false⟩ := by
          intro hlook
          cases hlook
          simp [Session.answer, h.set] at hr
        exact h.of_answer hnext hset (perform_client s c) (fun e => perform_code s e c)
          (fun e n => perform_cost s c n e) (shouldExit_performed c h.set)
  | enter d =>
    simp only [sessionStep] at hstep
    split at hstep
    next => cases hstep
    next c hc =>
      split at hstep
      next hfree =>
        cases hstep
        exact h.of_enter hfree.2
      next => cases hstep
  | returns d event =>
    simp only [sessionStep] at hstep
    split at hstep
    next => cases hstep
    next c k hnext =>
      split at hstep
      next hc =>
        cases hstep
        obtain ⟨rfl, hblocks, -⟩ := hc
        have hset : event ≠ ⟨.shouldExit, false⟩ := by
          rintro rfl
          cases hblocks
        exact h.of_answer hnext hset rfl (fun _ => rfl) (fun _ _ => by omega) h.set
      next => cases hstep
  | deliver d =>
    simp only [sessionStep] at hstep
    split at hstep
    next => cases hstep
    next hpending =>
      split at hstep
      next =>
        cases hstep
        exact h.of_ignored (by simpa using hpending)
      next =>
        split at hstep
        next => cases hstep
        next c k hnext =>
          split at hstep
          next => cases hstep
          next r hr =>
            cases hstep
            have hblocks := blocks_of_interrupted hr
            have hset : (⟨c, r⟩ : Event Call Answer) ≠ ⟨.shouldExit, false⟩ := by
              intro hlook
              cases hlook
              cases hblocks
            refine h.of_answer hnext hset rfl (setPending_code s d false) (fun e n => ?_) h.set
            unfold cost
            rw [setPending_blocked]
            by_cases he : e = d
            · subst he
              simp [Session.setPending]
              omega
            · simp [Session.setPending, he]

/-- The steps a session may take once the flag is set. -/
def longestEnd : Nat := 8 * (roundCalls + 5) + 22

theorem UnderWay.worth {log : List (ProxyDirection × Moment)} {s : Session} (h : UnderWay log s)
    (hready : Ready s) (hexit : s.shouldExit = true) : Worth longestEnd s := by
  have hwinding (d : ProxyDirection) :
      ∃ n, n ≤ roundCalls + 5 ∧ Winding n (s.forwarder d).code := by
    refine (h.course d).winding fun o ho => ?_
    have hcall := hready.atCall d
    rw [ho] at hcall
    simpa using hcall rfl
  choose n hle hn using hwinding
  refine ⟨hexit, n, hn, ?_⟩
  have hcost (d : ProxyDirection) : cost (n d) (s.forwarder d) ≤ 4 * (roundCalls + 5) + 2 := by
    have hd := hle d
    unfold cost
    split <;> split <;> omega
  have husb := hcost .usbToTcp
  have htcp := hcost .tcpToUsb
  have hclosed : ClientPc.closed.rank = 9 := rfl
  unfold price longestEnd
  omega

/-- A session never hangs by itself: where nothing can happen any more, both threads have
ended and are joined and the handler is gone. Once the flag is set, whatever the order of the
steps and whatever the blocked calls return, only a bounded number of steps is left. -/
theorem session_terminates (stack : ProxyDirection → Buffer) (pre : List Action)
    (hpre : (session stack).Legal sessionStart pre) :
    let s := (session stack).after sessionStart pre
    ((∀ a, ¬ (session stack).guard s a) → s.client = .closed ∧ s.handlerInstalled = false ∧
      ∀ d, (s.forwarder d).code = .finished ∧ s.handle d = .empty) ∧
    (s.shouldExit = true → ∀ post, (session stack).Legal s post → post.length ≤ longestEnd) := by
  intro s
  have hway := underWay hpre
  have hready : Ready s := ready hpre
  constructor
  · intro hstuck
    have hclosed := hready.closed hstuck
    refine ⟨hclosed, ?_, fun d => ⟨?_, ?_⟩⟩
    · rw [hway.orderly.handler, hclosed]
      rfl
    · refine hway.orderly.ended d ?_
      rw [hclosed]
      cases d <;> decide
    · rw [hway.orderly.handle, hclosed]
      cases d <;> rfl
  · intro hexit post hpost
    let Left (w : Nat) (t : Session) : Prop := Orderly t ∧ Worth w t
    have hstep : ∀ w t a, Left w t → (session stack).guard t a →
        ∃ m, m < w ∧ Left m ((session stack).effect t a) := by
      intro w t a ⟨horderly, hworth⟩ hguard
      obtain ⟨m, hlt, hm⟩ := hworth.step horderly hguard
      exact ⟨m, hlt, horderly.step (session_step hguard), hm⟩
    have hleft : Left longestEnd s := ⟨hway.orderly, hway.worth hready hexit⟩
    exact length_le hstep hleft hpost

/-- After the phone has hung up the accessory's thread writes the byte it holds. -/
theorem session_terminates_after_write :
    let s := (session zeroStack).after sessionStart stopBeforeWrite
    s.shouldExit = true ∧ (session zeroStack).Legal s [.enter .usbToTcp] ∧
      [Action.enter .usbToTcp].length ≤ longestEnd := by
  have hexit : ((session zeroStack).after sessionStart stopBeforeWrite).shouldExit = true := by
    decide +kernel
  have hlegal : (session zeroStack).Legal ((session zeroStack).after sessionStart stopBeforeWrite)
      [.enter .usbToTcp] := by decide +kernel
  exact ⟨hexit, hlegal,
    (session_terminates zeroStack stopBeforeWrite (by decide +kernel)).2 hexit _ hlegal⟩

end Aawgd
