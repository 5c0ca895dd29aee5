import Aawgd.ForwardTrace

/-! Which bytes reach the destination descriptor: nothing is lost from the middle
of the stream exactly when no byte is taken after a short write. -/
namespace Aawgd
open ByteStream CallProgram

/-- A write that took fewer bytes than it was given, possibly none. -/
def isShort : Event Call Answer → Bool
  | ⟨.write _ b, .accepted k _⟩ => decide (k < b.length)
  | _ => false

/-- The stream positions of the bytes the destination took, when c bytes were
consumed before the trace begins. -/
def acceptedAt (c : Nat) : Trace → List Nat
  | [] => []
  | ev :: tr => match block? ev with
    | some b => List.range' (c - b.length) (eventAccepted ev).length ++ acceptedAt c tr
    | none => acceptedAt (c + (eventBytes ev).length) tr

theorem acceptedAt_block {c : Nat} {b : List UInt8} {ev : Event Call Answer} {tr : Trace}
    (h : block? ev = some b) : acceptedAt c (ev :: tr) =
      List.range' (c - b.length) (eventAccepted ev).length ++ acceptedAt c tr := by
  simp only [acceptedAt, h]

theorem acceptedAt_other {c : Nat} {ev : Event Call Answer} {tr : Trace} (h : block? ev = none) :
    acceptedAt c (ev :: tr) = acceptedAt (c + (eventBytes ev).length) tr := by
  simp only [acceptedAt, h]

/-- The destination took an initial piece of the stream, position by position. -/
def NothingSkipped (tr : Trace) : Prop :=
  acceptedAt 0 tr = List.range' 0 (accepted tr).length

theorem block?_eq_some {ev : Event Call Answer} {b : List UInt8} (h : block? ev = some b) :
    ∃ fd r, ev = ⟨.write fd b, r⟩ := by
  obtain ⟨c, r⟩ := ev
  cases c with
  | write fd b' =>
    simp only [block?, Option.some.injEq] at h
    subst h
    exact ⟨fd, r, rfl⟩
  | _ => simp [block?] at h

theorem accepted_cons_none {ev : Event Call Answer} {tr : Trace} (h : block? ev = none) :
    accepted (ev :: tr) = accepted tr := by
  obtain ⟨c, r⟩ := ev
  cases c with
  | write fd b => simp [block?] at h
  | _ => rfl

theorem isShort_eq_false {ev : Event Call Answer} (h : block? ev = none) :
    isShort ev = false := by
  obtain ⟨c, r⟩ := ev
  cases c <;> simp_all [block?, isShort]

theorem range'_filterMap (pre l : List UInt8) (k : Nat) :
    (List.range' pre.length k).filterMap (fun i => (pre ++ l)[i]?) = l.take k := by
  induction l generalizing pre k with
  | nil =>
    rw [List.take_nil, List.append_nil, List.filterMap_eq_nil_iff]
    intro i hi
    have hle := (List.mem_range'_1.mp hi).1
    exact List.getElem?_eq_none hle
  | cons a l ih =>
    cases k with
    | zero => rfl
    | succ k =>
      have hnext := ih (pre ++ [a]) k
      simp only [List.length_append, List.length_singleton, List.append_assoc,
        List.singleton_append] at hnext
      rw [List.range'_succ, List.filterMap_cons, List.take_succ_cons]
      simp [hnext]

/-- The accepted bytes are the bytes of the stream at the accepted positions. -/
theorem accepted_eq_at (pre : List UInt8) {acc : List UInt8} {tr : Trace} (h : Carried acc tr) :
    accepted tr = (acceptedAt (pre.length + acc.length) tr).filterMap
      (fun i => (pre ++ (acc ++ consumed tr))[i]?) := by
  induction tr generalizing pre acc with
  | nil => rfl
  | cons ev tr ih =>
    cases hb : block? ev with
    | some b =>
      obtain ⟨rfl, htail⟩ := (carried_block hb).mp h
      obtain ⟨fd, r, rfl⟩ := block?_eq_some hb
      have hcount : min r.count b.length = r.count := Nat.min_eq_left r.count_le
      have hnext := ih (pre ++ b) htail
      simp only [List.length_append, List.length_nil, Nat.add_zero, List.nil_append,
        List.append_assoc] at hnext
      have hpiece := range'_filterMap pre (b ++ consumed tr) r.count
      rw [List.take_append_of_le_length r.count_le] at hpiece
      simp only [acceptedAt_block hb, accepted_write, eventAccepted, List.length_take, hcount,
        consumed_cons, eventBytes, List.nil_append, Nat.add_sub_cancel, List.filterMap_append,
        hpiece, hnext]
    | none =>
      have hnext := ih pre ((carried_other hb).mp h)
      rw [List.length_append, ← Nat.add_assoc] at hnext
      rw [acceptedAt_other hb, accepted_cons_none hb, hnext]
      simp only [consumed_cons, List.append_assoc]

theorem prefix_of_nothingSkipped {tr : Trace} (h : Carried [] tr) (hs : NothingSkipped tr) :
    accepted tr <+: consumed tr := by
  have ha := accepted_eq_at [] h
  have ht := range'_filterMap [] (consumed tr) (accepted tr).length
  simp only [List.length_nil, Nat.add_zero, List.nil_append] at ha ht
  rw [hs, ht] at ha
  rw [ha]
  exact List.take_prefix _ _

/-- Later bytes stand at later positions. -/
theorem acceptedAt_ge {c : Nat} {acc : List UInt8} {tr : Trace} (h : Carried acc tr) :
    ∀ i ∈ acceptedAt c tr, c - acc.length ≤ i := by
  induction tr generalizing c acc with
  | nil => simp [acceptedAt]
  | cons ev tr ih =>
    intro i hi
    cases hb : block? ev with
    | some b =>
      obtain ⟨rfl, htail⟩ := (carried_block hb).mp h
      rw [acceptedAt_block hb] at hi
      cases List.mem_append.mp hi with
      | inl hr => exact (List.mem_range'_1.mp hr).1
      | inr ht =>
        have hge := ih htail i ht
        simp only [List.length_nil] at hge
        omega
    | none =>
      rw [acceptedAt_other hb] at hi
      have hge := ih ((carried_other hb).mp h) i hi
      simp only [List.length_append] at hge
      omega

theorem acceptedAt_length {c : Nat} {tr : Trace} :
    (acceptedAt c tr).length = (accepted tr).length := by
  induction tr generalizing c with
  | nil => rfl
  | cons ev tr ih =>
    cases hb : block? ev with
    | some b =>
      obtain ⟨fd, r, rfl⟩ := block?_eq_some hb
      simp [acceptedAt_block hb, ih, eventAccepted]
    | none => rw [acceptedAt_other hb, ih, accepted_cons_none hb]

/-- Step and run of the loss argument at once: the positions stay contiguous as
long as no byte is taken after a short write. -/
theorem contiguous_iff {c : Nat} {acc : List UInt8} {tr : Trace} (h : Carried acc tr)
    (hc : acc.length ≤ c) (hfail : LastOf isFailed tr) :
    acceptedAt c tr = List.range' (c - acc.length) (accepted tr).length ↔ LastOf isShort tr := by
  induction tr generalizing c acc with
  | nil => simp [acceptedAt, accepted, LastOf]
  | cons ev tr ih =>
    cases hb : block? ev with
    | some b =>
      obtain ⟨rfl, htail⟩ := (carried_block hb).mp h
      obtain ⟨fd, r, rfl⟩ := block?_eq_some hb
      have hle := r.count_le
      have hih := ih (c := c) htail (Nat.zero_le c) hfail.2
      rw [List.length_nil, Nat.sub_zero] at hih
      have hcut : acceptedAt c (⟨.write fd b, r⟩ :: tr) =
            List.range' (c - b.length) (accepted (⟨.write fd b, r⟩ :: tr)).length ↔
          acceptedAt c tr = List.range' (c - b.length + r.count) (accepted tr).length := by
        have hlen : (b.take r.count).length = r.count := by
          rw [List.length_take, Nat.min_eq_left hle]
        rw [acceptedAt_block hb, accepted_write, List.length_append]
        simp only [eventAccepted, hlen]
        rw [← List.range'_append_1]
        exact List.append_right_inj _
      rw [hcut, LastOf]
      by_cases hfull : r.count = b.length
      · have hpos : c - b.length + r.count = c := by omega
        have hnot : isShort ⟨.write fd b, r⟩ = false := by
          cases r with
          | error => rfl
          | accepted k le =>
            simp only [WriteResult.count] at hfull
            simp [isShort, hfull]
        simp [hpos, hih, hnot]
      · by_cases hnil : accepted tr = []
        · have hempty : acceptedAt c tr = [] := by
            rw [← List.length_eq_zero_iff, acceptedAt_length, hnil, List.length_nil]
          simp [hnil, hempty, lastOf_of_accepted_nil hnil]
        · have hshort : isShort ⟨.write fd b, r⟩ = true := by
            cases r with
            | error => exact absurd (hfail.1 rfl) hnil
            | accepted k le =>
              simp only [WriteResult.count] at hfull
              simp only [isShort, decide_eq_true_eq]
              omega
          refine iff_of_false (fun heq => ?_) (fun hl => hnil (hl.1 hshort))
          -- the first position after a short write would be one of a byte of that write
          have hpos : 0 < (accepted tr).length := List.length_pos_iff.mpr hnil
          have hmem : c - b.length + r.count ∈ acceptedAt c tr := by
            rw [heq, List.mem_range'_1]
            omega
          have hge := acceptedAt_ge htail _ hmem
          simp only [List.length_nil] at hge
          omega
    | none =>
      have hih := ih (c := c + (eventBytes ev).length) ((carried_other hb).mp h)
        (by simp only [List.length_append]; omega) hfail.2
      have hsub : c + (eventBytes ev).length - (acc ++ eventBytes ev).length = c - acc.length := by
        simp only [List.length_append]
        omega
      rw [hsub] at hih
      rw [acceptedAt_other hb, accepted_cons_none hb, LastOf, isShort_eq_false hb]
      simpa using hih

/-- The bytes the destination took are an initial piece of the bytes consumed, with
nothing left out, exactly when no byte is taken after a short write. -/
theorem forward_loses_nothing_iff {n : Nat} {d : ProxyDirection} {buffer : Buffer} {tr : Trace}
    {o : Option Bool} (h : Traces (forward n d buffer) tr o) :
    (accepted tr <+: consumed tr ∧ NothingSkipped tr) ↔ LastOf isShort tr := by
  have hs := forward_sound h
  have hiff : NothingSkipped tr ↔ LastOf isShort tr :=
    contiguous_iff hs.carried (Nat.zero_le 0) hs.failedLast
  exact ⟨fun hp => hiff.mp hp.2,
    fun hl => ⟨prefix_of_nothingSkipped hs.carried (hiff.mpr hl), hiff.mpr hl⟩⟩

/-- A kernel that follows a script: what each read brings and how many bytes each
write takes. Past the script reads find the end and writes fail. -/
def scriptEnv : List (List UInt8) × List Nat → (c : Call) →
    Answer c × (List (List UInt8) × List Nat)
  | (bs :: reads, writes), .read _ _ n =>
    if h : 0 < bs.length ∧ bs.length ≤ n then (.data bs h.1 h.2, (reads, writes))
    else (.error, (reads, writes))
  | ([], writes), .read _ _ _ => (.eof, ([], writes))
  | (reads, k :: writes), .write _ b =>
    if h : k ≤ b.length then (.accepted k h, (reads, writes)) else (.error, (reads, writes))
  | (reads, []), .write _ _ => (.error, (reads, []))
  | s, .shouldExit => (false, s)
  | s, .hasThread _ => (true, s)
  | s, .raiseExit | s, .setErrnoEmsgsize | s, .kill _ => ((), s)

/-- From the car to the phone, with the given script and an empty buffer. -/
def scriptTrace (reads : List (List UInt8)) (writes : List Nat) : Trace :=
  (run scriptEnv (forward 3 .usbToTcp fun _ => 0) (reads, writes)).trace

theorem forward_loses_nothing_full :
    accepted (scriptTrace [[1, 2], [3]] [2, 0]) <+: consumed (scriptTrace [[1, 2], [3]] [2, 0]) ∧
      NothingSkipped (scriptTrace [[1, 2], [3]] [2, 0]) :=
  (forward_loses_nothing_iff (run_traces scriptEnv (forward 3 .usbToTcp fun _ => 0)
    ([[1, 2], [3]], [2, 0]))).mpr (by decide)

/-- Of the first block one byte is taken, then the second block: byte 2 is lost. -/
theorem forward_loses_after_short_write :
    Traces (forward 3 .usbToTcp fun _ => 0) (scriptTrace [[1, 2], [3]] [1, 1]) (some true) ∧
      consumed (scriptTrace [[1, 2], [3]] [1, 1]) = [1, 2, 3] ∧
      accepted (scriptTrace [[1, 2], [3]] [1, 1]) = [1, 3] ∧
      ¬ accepted (scriptTrace [[1, 2], [3]] [1, 1]) <+:
        consumed (scriptTrace [[1, 2], [3]] [1, 1]) :=
  ⟨run_traces scriptEnv (forward 3 .usbToTcp fun _ => 0) ([[1, 2], [3]], [1, 1]),
    by decide, by decide, by decide⟩

end Aawgd
