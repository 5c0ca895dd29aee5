import Aawgd.ForwardStop
import Aawgd.ForwardTrace
import Aawgd.SessionInvariant
import Aawgd.SessionWakeup

/-! The end of a session: once `should_exit` is set it stays set, each forward thread starts
at most one more write, of a block it held by then, and a thread that has raised the flag
itself only sends its signals. -/
namespace Aawgd
open ByteStream CallProgram GuardedSystem

/-- What a thread is seen to do: to enter a blocking call, and to have a call answered. -/
inductive Moment where
  | started (c : Call)
  | answered (event : Event Call Answer)

def moments (s : Session) : Action → List (ProxyDirection × Moment)
  | .client => []
  | .run d =>
    match (s.forwarder d).code.call? with
    | none => []
    | some c =>
      match s.answer c with
      | none => []
      | some r => [(d, .answered ⟨c, r⟩)]
  | .enter d =>
    match (s.forwarder d).code.call? with
    | none => []
    | some c => [(d, .started c)]
  | .returns d event => [(d, .answered event)]
  | .deliver d =>
    if (s.forwarder d).blocked = false then []
    else
      match (s.forwarder d).code.call? with
      | none => []
      | some c =>
        match interrupted c with
        | none => []
        | some r => [(d, .answered ⟨c, r⟩)]

/-- All that happens in a run of actions, and the part of one thread. -/
def sessionLog (stack : ProxyDirection → Buffer) (s : Session) (as : List Action) :
    List (ProxyDirection × Moment) :=
  (session stack).outputs moments s as

def said (d : ProxyDirection) (log : List (ProxyDirection × Moment)) : List Moment :=
  log.filterMap fun m => if m.1 = d then some m.2 else none

def answered? : Moment → Option (Event Call Answer)
  | .answered event => some event
  | .started _ => none

/-- The trace of a thread's program. -/
def events (l : List Moment) : Trace := l.filterMap answered?

def writeStart? : Moment → Option (Fd × List UInt8)
  | .started (.write fd block) => some (fd, block)
  | _ => none

/-- The writes that were started. -/
def writeStarts (l : List Moment) : List (Fd × List UInt8) := l.filterMap writeStart?

@[simp] theorem said_append (d : ProxyDirection) (l₁ l₂ : List (ProxyDirection × Moment)) :
    said d (l₁ ++ l₂) = said d l₁ ++ said d l₂ := List.filterMap_append
@[simp] theorem said_nil (d : ProxyDirection) : said d [] = [] := rfl
@[simp] theorem said_self (d : ProxyDirection) (m : Moment) : said d [(d, m)] = [m] := by
  simp [said]
@[simp] theorem events_nil : events [] = [] := rfl
@[simp] theorem events_started (c : Call) : events [.started c] = [] := rfl
@[simp] theorem events_answered (ev : Event Call Answer) : events [.answered ev] = [ev] := rfl
@[simp] theorem events_append (l₁ l₂ : List Moment) : events (l₁ ++ l₂) = events l₁ ++ events l₂ :=
  List.filterMap_append
@[simp] theorem writeStarts_append (l₁ l₂ : List Moment) :
    writeStarts (l₁ ++ l₂) = writeStarts l₁ ++ writeStarts l₂ := List.filterMap_append

theorem said_other {d e : ProxyDirection} (h : e ≠ d) (m : Moment) : said d [(e, m)] = [] := by
  simp [said, h]

/-! What a step is to one of the threads -/

inductive ThreadStep (stack : ProxyDirection → Buffer) (d : ProxyDirection) (s s' : Session) :
    List Moment → Prop
  | stays (code : (s'.forwarder d).code = (s.forwarder d).code)
    (blocked : (s'.forwarder d).blocked = (s.forwarder d).blocked) : ThreadStep stack d s s' []
  | spawns (at_spawn : s.client = .spawn d)
    (code : (s'.forwarder d).code = .looping (forwardRound d (stack d))) :
    ThreadStep stack d s s' []
  | starts (c : Call) (next : (s.forwarder d).code.call? = some c) (blocking : c.blocks = true)
    (free : (s.forwarder d).blocked = false) (code : (s'.forwarder d).code = (s.forwarder d).code)
    (blocked : (s'.forwarder d).blocked = true) : ThreadStep stack d s s' [.started c]
  | answers (c : Call) (k : Answer c → Code) (r : Answer c)
    (next : (s.forwarder d).code.next? d = some ⟨c, k⟩)
    (own : ∀ r', s.answer c = some r' → r' = r)
    (within : c.blocks = true → (s.forwarder d).blocked = true)
    (code : (s'.forwarder d).code = k r) : ThreadStep stack d s s' [.answered ⟨c, r⟩]

/-- A step that answers a call of one thread and changes the other at most in its signal. -/
theorem ThreadStep.of_answer {stack : ProxyDirection → Buffer} {s t : Session}
    {e : ProxyDirection} {c : Call} {k : Answer c → Code} {r : Answer c}
    (hnext : (s.forwarder e).code.next? e = some ⟨c, k⟩) (hown : ∀ r', s.answer c = some r' → r' = r)
    (hwithin : c.blocks = true → (s.forwarder e).blocked = true)
    (hcode : ∀ d, (t.forwarder d).code = (s.forwarder d).code)
    (hblocked : ∀ d, (t.forwarder d).blocked = (s.forwarder d).blocked) (d : ProxyDirection) :
    ThreadStep stack d s (t.resume e (k r)) (said d [(e, .answered ⟨c, r⟩)]) := by
  by_cases hd : e = d
  · subst hd
    rw [said_self]
    exact .answers c k r hnext hown hwithin (by simp [Session.resume])
  · have hne : d ≠ e := Ne.symm hd
    rw [said_other hd]
    exact .stays (by simp [Session.resume, hne, hcode]) (by simp [Session.resume, hne, hblocked])

theorem threadStep_client {stack : ProxyDirection → Buffer} {s s' : Session}
    (h : SessionStep stack s .client s') (d : ProxyDirection) : ThreadStep stack d s s' [] := by
  cases h with
  | spawn e hpc =>
    by_cases hd : d = e
    · subst hd
      exact .spawns hpc (by simp [Session.resume])
    · exact .stays (by simp [Session.resume, hd]) (by simp [Session.resume, hd])
  | assign | join | reset | restore => exact .stays rfl rfl
  | answered e a c k r hnext hown haction => simp at haction

theorem threadStep_deliver {stack : ProxyDirection → Buffer} {s s' : Session} {e : ProxyDirection}
    (h : sessionStep stack s (.deliver e) = some s') (d : ProxyDirection) :
    ThreadStep stack d s s' (said d (moments s (.deliver e))) := by
  simp only [sessionStep] at h
  split at h
  next => cases h
  split at h
  next _ hfree =>
    cases h
    simp only [moments, hfree, if_true, said_nil]
    exact .stays (setPending_code s e false d) (setPending_blocked s e false d)
  next _ hblocked =>
    split at h
    next => cases h
    next c k hnext =>
      split at h
      next => cases h
      next r hr =>
        cases h
        have hnone := (answer_of_blocks (s := s) (blocks_of_interrupted hr)).1
        simp only [moments, if_neg hblocked, call?_of_next? hnext, hr]
        exact .of_answer hnext (by simp [hnone]) (fun _ => by simpa using hblocked)
          (setPending_code s e false) (setPending_blocked s e false) d

theorem threadStep {stack : ProxyDirection → Buffer} {s s' : Session} {a : Action}
    (h : sessionStep stack s a = some s') (d : ProxyDirection) :
    ThreadStep stack d s s' (said d (moments s a)) := by
  cases a with
  | client => exact threadStep_client (sessionStep_cases h) d
  | run e =>
    simp only [sessionStep] at h
    split at h
    next => cases h
    next c k hnext =>
      split at h
      next => cases h
      next r hr =>
        cases h
        have hfree : c.blocks = true → (s.forwarder e).blocked = true := by
          intro hblocks
          rw [(answer_of_blocks hblocks).1] at hr
          cases hr
        simp only [moments, call?_of_next? hnext, hr]
        exact .of_answer hnext (fun r' hr' => by simpa [hr] using hr'.symm) hfree
          (fun d => perform_code s d c) (fun d => perform_blocked s d c) d
  | enter e =>
    simp only [sessionStep] at h
    split at h
    next => cases h
    next c hc =>
      split at h
      next hfree =>
        cases h
        simp only [moments, hc]
        by_cases hd : e = d
        · subst hd
          rw [said_self]
          exact .starts c hc hfree.1 hfree.2 (by simp) (by simp)
        · have hne : d ≠ e := Ne.symm hd
          rw [said_other hd]
          exact .stays (by simp [hne]) (by simp [hne])
      next => cases h
  | returns e event =>
    simp only [sessionStep] at h
    split at h
    next => cases h
    next c k hnext =>
      split at h
      next hc =>
        cases h
        obtain ⟨rfl, hblocks, hblocked⟩ := hc
        have hnone := (answer_of_blocks (s := s) hblocks).1
        exact .of_answer hnext (by simp [hnone]) (fun _ => hblocked) (fun _ => rfl) (fun _ => rfl) d
      next => cases h
  | deliver e => exact threadStep_deliver h d

theorem session_threadStep {stack : ProxyDirection → Buffer} {s : Session} {a : Action}
    (h : (session stack).guard s a) (d : ProxyDirection) :
    ThreadStep stack d s ((session stack).effect s a) (said d (moments s a)) :=
  threadStep (GuardedSystem.ofStep_effect h) d

theorem shouldExit_stays {stack : ProxyDirection → Buffer} {s s' : Session} {a : Action}
    (h : SessionStep stack s a s') (hexit : s.shouldExit = true) : s'.shouldExit = true := by
  have hperform (c : Call) : (s.perform c).shouldExit = true := by
    cases c <;> simp [Session.perform, hexit]
  cases h with
  | answered d a c k r => exact hperform c
  | _ => exact hexit

/-! The course of a thread -/

/-- A trace of a thread, and where it stands after it: its rounds one after another, then
`stopForwarding`. -/
inductive Course (d : ProxyDirection) : Trace → Code → Prop
  | notStarted : Course d [] .notStarted
  | looping {done before : Trace} {buffer : Buffer} {p : Proxy (Option Buffer)}
    (sent : held [] done = []) (quiet : ∀ ev ∈ done ++ before, isLoopCall ev.1 = true)
    (reaches : Reaches (forwardRound d buffer) before p) : Course d (done ++ before) (.looping p)
  | stopping {loop stop : Trace} {rest : Proxy Unit}
    (quiet : ∀ ev ∈ loop, isLoopCall ev.1 = true) (reaches : Reaches stopForwarding stop rest) :
    Course d (loop ++ stop) (.stopping rest)
  | finished {loop stop : Trace} (quiet : ∀ ev ∈ loop, isLoopCall ev.1 = true)
    (ends : Reaches stopForwarding stop (.ret ())) : Course d (loop ++ stop) .finished

theorem round_loopCalls (d : ProxyDirection) (buffer : Buffer) :
    (forwardRound d buffer).Only (isLoopCall · = true) :=
  forwardRound_only (q := (isLoopCall · = true)) rfl (fun _ _ => rfl) (fun _ => rfl) rfl buffer

theorem Course.begin (d : ProxyDirection) (buffer : Buffer) :
    Course d [] (.looping (forwardRound d buffer)) := by
  have h : Course d ([] ++ []) (.looping (forwardRound d buffer)) := .looping rfl (by simp) (.here _)
  exact h

/-- An answer in the loop. -/
theorem Course.looped {d : ProxyDirection} {done before : Trace} {buffer : Buffer} {c : Call}
    {k : Answer c → Proxy (Option Buffer)} (hsent : held [] done = [])
    (hquiet : ∀ ev ∈ done ++ before, isLoopCall ev.1 = true)
    (hreaches : Reaches (forwardRound d buffer) before (.call c k)) (r : Answer c) :
    Course d (done ++ before ++ [⟨c, r⟩]) (Code.ofRound d (k r)) := by
  have hcall := hreaches.only (round_loopCalls d buffer)
  have hquiet' : ∀ ev ∈ done ++ before ++ [⟨c, r⟩], isLoopCall ev.1 = true :=
    List.forall_mem_append.mpr ⟨hquiet, List.forall_mem_singleton.mpr hcall.1⟩
  have hnext := hreaches.snoc r
  cases hk : k r with
  | ret o =>
    cases o with
    | none =>
      rw [← List.append_nil (done ++ before ++ _)]
      exact .stopping hquiet' (.here _)
    | some buffer' =>
      rw [hk] at hnext
      have hround := hnext.traces (.ret (some buffer'))
      rw [List.append_nil] at hround
      rw [← List.append_nil (done ++ before ++ _), List.append_assoc done]
      refine .looping ?_ ?_ (.here _)
      · rw [held_append, hsent, held_round hround]
      · simpa using hquiet'
  | call c' k' =>
    rw [hk] at hnext
    rw [List.append_assoc] at hquiet' ⊢
    exact .looping hsent hquiet' hnext

theorem Course.answered {d : ProxyDirection} {tr : Trace} {code : Code} {c : Call}
    {k : Answer c → Code} (h : Course d tr code) (hnext : code.next? d = some ⟨c, k⟩)
    (r : Answer c) : Course d (tr ++ [⟨c, r⟩]) (k r) := by
  cases h with
  | notStarted | finished => cases hnext
  | looping hsent hquiet hreaches =>
    rename_i p
    cases p with
    | ret o => cases hnext
    | call c k =>
      cases hnext
      exact .looped hsent hquiet hreaches r
  | stopping hquiet hreaches =>
    rename_i rest
    cases rest with
    | ret u => cases hnext
    | call c k =>
      cases hnext
      have hrest := hreaches.snoc r
      rw [List.append_assoc]
      change Course d _ (Code.ofStop (k r))
      cases hk : k r with
      | ret u =>
        rw [hk] at hrest
        exact .finished hquiet hrest
      | call c' k' =>
        rw [hk] at hrest
        exact .stopping hquiet hrest

/-- A thread that is not started has done nothing. -/
theorem Course.step {stack : ProxyDirection → Buffer} {d : ProxyDirection} {s s' : Session}
    {l : List Moment} {tr : Trace} (h : Course d tr (s.forwarder d).code) (horderly : Orderly s)
    (hstep : ThreadStep stack d s s' l) : Course d (tr ++ events l) (s'.forwarder d).code := by
  cases hstep with
  | stays hcode =>
    rw [hcode]
    simpa using h
  | spawns hpc hcode =>
    rw [horderly.unstarted d (by rw [hpc])] at h
    rw [hcode]
    cases h
    exact .begin d _
  | starts c hnext hblocks hfree hcode =>
    rw [hcode]
    simpa using h
  | answers c k r hnext hown hwithin hcode =>
    rw [hcode]
    exact h.answered hnext r

/-- Both threads are on their course. -/
structure UnderWay (log : List (ProxyDirection × Moment)) (s : Session) : Prop where
  orderly : Orderly s
  course : ∀ d, Course d (events (said d log)) (s.forwarder d).code

theorem UnderWay.start : UnderWay [] sessionStart := ⟨Orderly.start, fun _ => .notStarted⟩

theorem UnderWay.step {stack : ProxyDirection → Buffer} {log : List (ProxyDirection × Moment)}
    {s : Session} {a : Action} (h : UnderWay log s) (hguard : (session stack).guard s a) :
    UnderWay (log ++ moments s a) ((session stack).effect s a) where
  orderly := h.orderly.step (session_step hguard)
  course d := by
    rw [said_append, events_append]
    exact (h.course d).step h.orderly (session_threadStep hguard d)

/-! After the stop -/

/-- The write that a thread is about to start. -/
def nextWrite (s : Session) (d : ProxyDirection) : List (Fd × List UInt8) :=
  match (s.forwarder d).code.call? with
  | some (.write fd block) => if (s.forwarder d).blocked = true then [] else [(fd, block)]
  | _ => []

theorem nextWrite_length (s : Session) (d : ProxyDirection) : (nextWrite s d).length ≤ 1 := by
  unfold nextWrite
  split
  · split <;> simp
  · simp

theorem nextWrite_of_code {s s' : Session} {d : ProxyDirection}
    (hcode : (s'.forwarder d).code = (s.forwarder d).code)
    (hblocked : (s'.forwarder d).blocked = (s.forwarder d).blocked) :
    nextWrite s' d = nextWrite s d := by
  rw [nextWrite, nextWrite, hcode, hblocked]

theorem nextWrite_other {s : Session} {d : ProxyDirection}
    (h : ∀ c, (s.forwarder d).code.call? = some c → isWrite c = false) : nextWrite s d = [] := by
  unfold nextWrite
  split
  next fd block hcall => simpa [isWrite] using h _ hcall
  next => rfl

theorem nextWrite_blocked {s : Session} {d : ProxyDirection} (h : (s.forwarder d).blocked = true) :
    nextWrite s d = [] := by
  unfold nextWrite
  split
  · rw [if_pos h]
  · rfl

/-- A round that quits has no write before it. -/
theorem call?_of_quits {p : Proxy (Option Buffer)} (h : Quits p) (d : ProxyDirection) (c : Call)
    (hc : (Code.ofRound d p).call? = some c) : isWrite c = false := by
  cases p with
  | ret o =>
    cases o with
    | none =>
      cases hc
      rfl
    | some buffer => cases h
  | call c' k =>
    cases hc
    exact h.1

/-- The next call after an answer is no write once the flag is set. -/
theorem Course.no_write {d : ProxyDirection} {tr : Trace} {code : Code} {s : Session} {c : Call}
    {k : Answer c → Code} {r : Answer c} (h : Course d tr code) (hexit : s.shouldExit = true)
    (hnext : code.next? d = some ⟨c, k⟩) (hown : ∀ r', s.answer c = some r' → r' = r) (c' : Call)
    (hc' : (k r).call? = some c') : isWrite c' = false := by
  cases h with
  | notStarted | finished => cases hnext
  | looping hsent hquiet hreaches =>
    rename_i buffer p
    cases p with
    | ret o => cases hnext
    | call c k =>
      cases hnext
      refine call?_of_quits ?_ d c' hc'
      cases ((prompt_forwardRound d buffer).reaches hreaches).1 with
      | inl hquits =>
        apply hquits.2
        -- the look at the flag finds it set
        intro hlook
        cases hlook
        cases hown true (by rw [← hexit]; rfl)
      | inr hwrite => exact hwrite.2 r
  | stopping hquiet hreaches =>
    rename_i rest
    cases rest with
    | ret u => cases hnext
    | call c k =>
      cases hnext
      have honly := (hreaches.only stopForwarding_only).2 r
      change (Code.ofStop (k r)).call? = some c' at hc'
      cases hk : k r with
      | ret u =>
        rw [hk] at hc'
        cases hc'
      | call c'' k' =>
        rw [hk] at hc' honly
        cases hc'
        exact honly.1

/-- Once the flag is set, the writes started are those that were about to be. -/
theorem writeStarts_step {stack : ProxyDirection → Buffer} {d : ProxyDirection} {s s' : Session}
    {l : List Moment} {tr : Trace} (h : Course d tr (s.forwarder d).code) (horderly : Orderly s)
    (hexit : s.shouldExit = true) (hstep : ThreadStep stack d s s' l) :
    writeStarts l ++ nextWrite s' d = nextWrite s d := by
  cases hstep with
  | stays hcode hblocked => exact nextWrite_of_code hcode hblocked
  | spawns hpc hcode =>
    have hbefore : nextWrite s d = [] := by
      apply nextWrite_other
      rw [horderly.unstarted d (by rw [hpc])]
      simp [Code.call?]
    have hafter : nextWrite s' d = [] := by
      apply nextWrite_other
      rw [hcode]
      intro c hc
      cases hc
      rfl
    rw [hbefore, hafter]
    rfl
  | starts c hnext hblocks hfree hcode hblocked =>
    rw [nextWrite_blocked hblocked, List.append_nil]
    simp only [nextWrite, hnext, hfree]
    cases c <;> rfl
  | answers c k r hnext hown hwithin hcode =>
    have hbefore : nextWrite s d = [] := by
      cases hblocks : c.blocks with
      | true => exact nextWrite_blocked (hwithin hblocks)
      | false =>
        apply nextWrite_other
        intro c' hc'
        rw [call?_of_next? hnext] at hc'
        cases hc'
        cases c <;> simp_all [Call.blocks, isWrite]
    have hafter : nextWrite s' d = [] := by
      apply nextWrite_other
      rw [hcode]
      exact h.no_write hexit hnext hown
    rw [hbefore, hafter]
    rfl

/-- A thread that is about to write holds the block, all of it read before. -/
theorem Course.held {d : ProxyDirection} {tr : Trace} {s : Session}
    (h : Course d tr (s.forwarder d).code) : ∀ w ∈ nextWrite s d,
      w = (writeFd d, held [] tr) ∧ w.2 ≠ [] ∧ (d = .tcpToUsb → ∃ f : Frame, f.bytes = w.2) := by
  intro w hw
  unfold nextWrite at hw
  split at hw
  next fd block hcall =>
    split at hw
    next => cases hw
    next =>
      rw [List.mem_singleton.mp hw]
      generalize hcode : (s.forwarder d).code = code at h hcall
      cases h with
      | notStarted | finished => cases hcall
      | looping hsent hquiet hreaches =>
        rename_i p
        cases p with
        | ret o => cases hcall
        | call c k =>
          cases hcall
          obtain ⟨rfl, hblock, hne, hframe⟩ := held_at_write hreaches
          rw [held_append, hsent, ← hblock]
          exact ⟨rfl, hne, hframe⟩
      | stopping hquiet hreaches =>
        rename_i rest
        cases rest with
        | ret u => cases hcall
        | call c k =>
          cases hcall
          have honly := hreaches.only stopForwarding_only
          cases honly.1
  next => cases hw

/-! After a thread has raised the flag -/

/-- The calls of `stopForwarding` behind the store. -/
def isSignal : Call → Bool
  | .hasThread _ | .kill _ => true
  | _ => false

def Signalling : Code → Prop
  | .stopping rest => rest.Only (isSignal · = true)
  | .finished => True
  | _ => False

/-- The answer to a test of a thread, or to a signal. -/
def Moment.isSignal : Moment → Bool
  | .answered event => Aawgd.isSignal event.1
  | .started _ => false

theorem signals_only : (signal .usbToTcp (signal .tcpToUsb (.ret ()))).Only (isSignal · = true) := by
  have hlast : (signal .tcpToUsb (.ret ())).Only (isSignal · = true) := by
    refine ⟨rfl, fun present => ?_⟩
    cases present <;> simp [Only, isSignal]
  refine ⟨rfl, fun present => ?_⟩
  cases present with
  | false => exact hlast
  | true => exact ⟨rfl, fun _ => hlast⟩

theorem Course.raised {d : ProxyDirection} {tr : Trace} {code : Code} (h : Course d tr code)
    (hraise : ⟨.raiseExit, ()⟩ ∈ tr) : Signalling code := by
  have hstop {loop stop : Trace} (hquiet : ∀ ev ∈ loop, isLoopCall ev.1 = true)
      (hmem : ⟨.raiseExit, ()⟩ ∈ loop ++ stop) : (⟨.raiseExit, ()⟩ : Event Call Answer) ∈ stop :=
    (List.mem_append.mp hmem).resolve_left fun hin => by cases hquiet _ hin
  cases h with
  | notStarted => cases hraise
  | looping hsent hquiet hreaches => cases hquiet _ hraise
  | stopping hquiet hreaches =>
    have hin := hstop hquiet hraise
    cases hreaches with
    | here => cases hin
    | call c k r tail => exact tail.only signals_only
  | finished => trivial

theorem Signalling.call? {code : Code} {c : Call} (h : Signalling code)
    (hcall : code.call? = some c) : isSignal c = true := by
  cases code with
  | notStarted | finished => cases hcall
  | looping p => cases h
  | stopping rest =>
    cases rest with
    | ret u => cases hcall
    | call c k =>
      cases hcall
      exact h.1

theorem Signalling.answered {code : Code} {d : ProxyDirection} {c : Call} {k : Answer c → Code}
    (h : Signalling code) (hnext : code.next? d = some ⟨c, k⟩) (r : Answer c) :
    Signalling (k r) := by
  cases code with
  | notStarted | finished => cases hnext
  | looping p => cases h
  | stopping rest =>
    cases rest with
    | ret u => cases hnext
    | call c k =>
      cases hnext
      have hrest := h.2 r
      change Signalling (Code.ofStop (k r))
      cases hk : k r with
      | ret u => trivial
      | call c' k' =>
        rw [hk] at hrest
        exact hrest

theorem Signalling.step {stack : ProxyDirection → Buffer} {d : ProxyDirection} {s s' : Session}
    {l : List Moment} (h : Signalling (s.forwarder d).code) (horderly : Orderly s)
    (hstep : ThreadStep stack d s s' l) :
    Signalling (s'.forwarder d).code ∧ ∀ m ∈ l, m.isSignal = true := by
  cases hstep with
  | stays hcode =>
    rw [hcode]
    exact ⟨h, by simp⟩
  | spawns hpc hcode =>
    rw [horderly.unstarted d (by rw [hpc])] at h
    cases h
  | starts c hnext hblocks =>
    have hsignal := h.call? hnext
    cases c <;> simp [Call.blocks, Aawgd.isSignal] at hblocks hsignal
  | answers c k r hnext hown hwithin hcode =>
    rw [hcode]
    refine ⟨h.answered hnext r, fun m hm => ?_⟩
    rw [List.mem_singleton.mp hm]
    exact h.call? (call?_of_next? hnext)

/-! Runs -/

section run
variable (stack : ProxyDirection → Buffer)

/-- What a thread did in a run from the start. -/
def history (d : ProxyDirection) (pre : List Action) : List Moment :=
  said d (sessionLog stack sessionStart pre)

/-- What it did in a run after that. -/
def sequel (d : ProxyDirection) (pre post : List Action) : List Moment :=
  said d (sessionLog stack ((session stack).after sessionStart pre) post)

end run

variable {stack : ProxyDirection → Buffer}

theorem underWay {pre : List Action} (h : (session stack).Legal sessionStart pre) :
    UnderWay (sessionLog stack sessionStart pre) ((session stack).after sessionStart pre) :=
  invariant_outputs (fun _ _ _ hw hguard => hw.step hguard) UnderWay.start h

/-- After the stop: the flag stays set, and a thread starts the write it was about to
start, or none. -/
theorem after_stop {pre post : List Action} (hpre : (session stack).Legal sessionStart pre)
    (hpost : (session stack).Legal ((session stack).after sessionStart pre) post)
    (hexit : ((session stack).after sessionStart pre).shouldExit = true) :
    ((session stack).after sessionStart (pre ++ post)).shouldExit = true ∧
      ∀ d, writeStarts (sequel stack d pre post) <+:
        nextWrite ((session stack).after sessionStart pre) d := by
  let s₀ := (session stack).after sessionStart pre
  let Inv (log : List (ProxyDirection × Moment)) (s : Session) : Prop :=
    UnderWay (sessionLog stack sessionStart pre ++ log) s ∧ s.shouldExit = true ∧
      ∀ d, writeStarts (said d log) ++ nextWrite s d = nextWrite s₀ d
  have hstep : ∀ log s a, Inv log s → (session stack).guard s a →
      Inv (log ++ moments s a) ((session stack).effect s a) := by
    intro log s a ⟨hway, hset, hwrites⟩ hguard
    refine ⟨?_, shouldExit_stays (session_step hguard) hset, fun d => ?_⟩
    · rw [← List.append_assoc]
      exact hway.step hguard
    · have hnew := writeStarts_step (hway.course d) hway.orderly hset (session_threadStep hguard d)
      rw [said_append, writeStarts_append, List.append_assoc, hnew, hwrites d]
  have hstart : Inv [] s₀ := by
    refine ⟨?_, hexit, fun d => rfl⟩
    rw [List.append_nil]
    exact underWay hpre
  obtain ⟨-, hset, hwrites⟩ := invariant_outputs hstep hstart hpost
  rw [after_append]
  exact ⟨hset, fun d => ⟨_, hwrites d⟩⟩

/-- A thread that has raised the flag only tests for threads and signals them. -/
theorem after_raise {pre post : List Action} (hpre : (session stack).Legal sessionStart pre)
    (hpost : (session stack).Legal ((session stack).after sessionStart pre) post)
    {d : ProxyDirection} (hraise : .answered ⟨.raiseExit, ()⟩ ∈ history stack d pre) :
    ∀ m ∈ sequel stack d pre post, m.isSignal = true := by
  let Inv (log : List (ProxyDirection × Moment)) (s : Session) : Prop :=
    Orderly s ∧ Signalling (s.forwarder d).code ∧ ∀ m ∈ said d log, m.isSignal = true
  have hstep : ∀ log s a, Inv log s → (session stack).guard s a →
      Inv (log ++ moments s a) ((session stack).effect s a) := by
    intro log s a ⟨horderly, hsignal, hlog⟩ hguard
    obtain ⟨hsignal', hnew⟩ :=
      hsignal.step horderly (session_threadStep hguard d)
    refine ⟨horderly.step (session_step hguard), hsignal', fun m hm => ?_⟩
    rw [said_append] at hm
    exact (List.mem_append.mp hm).elim (hlog m) (hnew m)
  have hway := underWay hpre
  have hmem : ⟨.raiseExit, ()⟩ ∈ events (history stack d pre) :=
    List.mem_filterMap.mpr ⟨_, hraise, rfl⟩
  have hstart : Inv [] ((session stack).after sessionStart pre) :=
    ⟨hway.orderly, (hway.course d).raised hmem, by simp⟩
  obtain ⟨-, -, hlog⟩ := invariant_outputs hstep hstart hpost
  exact hlog

/-- However the two threads are interleaved, and whatever their calls return: once
`should_exit` is set it stays set, each thread starts at most one more write, of the block
it had read and not written when the flag was set, from the phone a complete frame; and a
thread that has raised the flag in `stopForwarding` only sends its signals. -/
theorem forwarding_stops (stack : ProxyDirection → Buffer) (pre post : List Action)
    (hlegal : (session stack).Legal sessionStart (pre ++ post)) :
    (((session stack).after sessionStart pre).shouldExit = true →
      ((session stack).after sessionStart (pre ++ post)).shouldExit = true ∧
      ∀ d, (writeStarts (sequel stack d pre post)).length ≤ 1 ∧
        ∀ w ∈ writeStarts (sequel stack d pre post),
          w = (writeFd d, held [] (events (history stack d pre))) ∧ w.2 ≠ [] ∧
            (d = .tcpToUsb → ∃ f : Frame, f.bytes = w.2)) ∧
    ∀ d, .answered ⟨.raiseExit, ()⟩ ∈ history stack d pre →
      ∀ m ∈ sequel stack d pre post, m.isSignal = true := by
  obtain ⟨hpre, hpost⟩ := (legal_append _ _ _).mp hlegal
  refine ⟨fun hexit => ?_, fun d hraise => after_raise hpre hpost hraise⟩
  obtain ⟨hset, hwrites⟩ := after_stop hpre hpost hexit
  refine ⟨hset, fun d => ⟨?_, fun w hw => ?_⟩⟩
  · exact (hwrites d).length_le.trans (nextWrite_length _ d)
  · exact ((underWay hpre).course d).held w ((hwrites d).subset hw)

/-- The accessory has sent a byte and its thread has looked at the flag when the phone
hangs up and the other thread raises it. -/
def stopBeforeWrite : List Action :=
  [.client, .client, .client, .client, .run .usbToTcp, .enter .usbToTcp,
    .returns .usbToTcp ⟨.read .usb 0 maxFrame, .data [7] (by decide) (by decide)⟩, .run .usbToTcp,
    .run .tcpToUsb, .enter .tcpToUsb, .returns .tcpToUsb ⟨.read .tcp 0 headerLength, .eof⟩,
    .run .tcpToUsb]

theorem forwarding_stops_before_write :
    ((session zeroStack).after sessionStart (stopBeforeWrite ++ [.enter .usbToTcp])).shouldExit =
      true ∧
    (writeStarts (sequel zeroStack .usbToTcp stopBeforeWrite [.enter .usbToTcp])).length ≤ 1 := by
  have h := (forwarding_stops zeroStack stopBeforeWrite [.enter .usbToTcp] (by decide +kernel)).1
    (by decide +kernel)
  exact ⟨h.1, (h.2 .usbToTcp).1⟩

end Aawgd
