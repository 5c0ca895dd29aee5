import Aawgd.CString
import Aawgd.Usb

/-! The parser of the uevent monitor, load by load, and the environment of a datagram. -/
namespace Aawgd
open CallProgram CString

def netlinkMsgSize : Nat := 8 * 1024

/-- The array `msg`: the datagram, the NUL put behind it, and what older and longer
messages left there. -/
def messageArray (old : Nat → UInt8) (datagram : Bytes) (i : Nat) : UInt8 :=
  (datagram ++ [0])[i]?.getD (old i)

/-- `std::map::emplace`, which keeps a value that is there. -/
def emplace (envMap : UeventEnv) (name value : Bytes) : UeventEnv :=
  if (envMap.lookup name).isSome then envMap else envMap ++ [(name, value)]

/-- `'='`. -/
def equalsSign : UInt8 := 61

/-- The first statement of the loop in `monitorLoop`. -/
def parseVariable (current : Nat) (envMap : UeventEnv) : Scan UeventEnv := do
  match ← strchr (netlinkMsgSize + 1) current equalsSign with
  | none => return envMap
  | some split =>
    if split ≤ current then return envMap
    let envName ← copy current (split - current)
    let envValue ← string (netlinkMsgSize + 1) (split + 1)
    return emplace envMap envName envValue

/-- The loop of `monitorLoop` up to `end`, without a result when it is not left after
some number of rounds. -/
def parseLoop (last : Nat) : Nat → Nat → UeventEnv → Scan (Option UeventEnv)
  | 0, current, envMap => return if current < last then none else some envMap
  | rounds+1, current, envMap =>
    if current < last then do
      let envMap ← parseVariable current envMap
      let length ← strlen (netlinkMsgSize + 1) current
      parseLoop last rounds (current + (length + 1)) envMap
    else return some envMap

/-! The environment of a datagram -/

/-- A segment binds what stands before its first `=` to what stands behind, unless
nothing stands before it. -/
def bindSegment (envMap : UeventEnv) (segment : Bytes) : UeventEnv :=
  let i := segment.idxOf equalsSign
  if 0 < i ∧ i < segment.length then emplace envMap (segment.take i) (segment.drop (i+1))
  else envMap

def environment (datagram : Bytes) : UeventEnv := (datagram.splitOn 0).foldl bindSegment []

theorem idxOf_split {name : Bytes} (value : Bytes) (h : equalsSign ∉ name) :
    (name ++ equalsSign :: value).idxOf equalsSign = name.length := by
  rw [List.idxOf_append_of_notMem h, List.idxOf_cons_self, Nat.add_zero]

theorem drop_split (name value : Bytes) :
    (name ++ equalsSign :: value).drop (name.length + 1) = value := by
  rw [← List.drop_drop, List.drop_left]
  rfl

theorem bindSegment_without (envMap : UeventEnv) {segment : Bytes} (h : equalsSign ∉ segment) :
    bindSegment envMap segment = envMap := by
  rw [bindSegment, List.idxOf_of_notMem h]
  simp

theorem bindSegment_split (envMap : UeventEnv) {name : Bytes} (value : Bytes)
    (h : equalsSign ∉ name) : bindSegment envMap (name ++ equalsSign :: value) =
      if name = [] then envMap else emplace envMap name value := by
  rw [bindSegment, idxOf_split value h, drop_split, List.take_left]
  cases name with
  | nil => simp
  | cons b name => simp

/-! The environment by its names -/

/-- The name and the value of a segment that binds one. -/
def binding? (segment : Bytes) : Option (Bytes × Bytes) :=
  let i := segment.idxOf equalsSign
  if 0 < i ∧ i < segment.length then some (segment.take i, segment.drop (i+1)) else none

theorem binding?_without {segment : Bytes} (h : equalsSign ∉ segment) : binding? segment = none := by
  rw [binding?, List.idxOf_of_notMem h]
  simp

theorem binding?_split {name : Bytes} (value : Bytes) (h : equalsSign ∉ name) :
    binding? (name ++ equalsSign :: value) = if name = [] then none else some (name, value) := by
  rw [binding?, idxOf_split value h, drop_split, List.take_left]
  cases name with
  | nil => simp
  | cons b name => simp

/-- A segment binds a name exactly when it begins with it and a `=`. -/
theorem binding?_eq_some {segment name value : Bytes} : binding? segment = some (name, value) ↔
    segment = name ++ equalsSign :: value ∧ equalsSign ∉ name ∧ name ≠ [] := by
  constructor
  · intro h
    by_cases hmem : equalsSign ∈ segment
    · obtain ⟨first, rest, rfl, hfirst⟩ := List.eq_append_cons_of_mem hmem
      rw [binding?_split rest hfirst] at h
      by_cases hempty : first = []
      · rw [if_pos hempty] at h
        cases h
      · rw [if_neg hempty] at h
        cases h
        exact ⟨rfl, hfirst, hempty⟩
    · rw [binding?_without hmem] at h
      cases h
  · rintro ⟨rfl, hname, hne⟩
    rw [binding?_split value hname, if_neg hne]

theorem bindSegment_eq (envMap : UeventEnv) (segment : Bytes) : bindSegment envMap segment =
    match binding? segment with
    | none => envMap
    | some (name, value) => emplace envMap name value := by
  by_cases hmem : equalsSign ∈ segment
  · obtain ⟨name, value, rfl, hname⟩ := List.eq_append_cons_of_mem hmem
    rw [bindSegment_split envMap value hname, binding?_split value hname]
    by_cases hempty : name = []
    · rw [if_pos hempty, if_pos hempty]
    · rw [if_neg hempty, if_neg hempty]
  · rw [bindSegment_without envMap hmem, binding?_without hmem]

theorem emplace_lookup (envMap : UeventEnv) (name value key : Bytes) :
    (emplace envMap name value).lookup key = (envMap ++ [(name, value)]).lookup key := by
  unfold emplace
  split
  next hbound =>
    rw [List.lookup_append]
    by_cases hkey : key = name
    · subst hkey
      obtain ⟨v, hv⟩ := Option.isSome_iff_exists.mp hbound
      rw [hv, Option.some_or]
    · have hother : [(name, value)].lookup key = none := by
        rw [List.lookup_cons, beq_eq_false_iff_ne.mpr hkey]
        rfl
      rw [hother, Option.or_none]
  next => rfl

theorem foldl_bindSegment_lookup (envMap : UeventEnv) (segments : List Bytes) (key : Bytes) :
    (segments.foldl bindSegment envMap).lookup key =
      (envMap ++ segments.filterMap binding?).lookup key := by
  induction segments generalizing envMap with
  | nil =>
    rw [List.filterMap_nil, List.append_nil]
    rfl
  | cons segment segments ih =>
    rw [List.foldl_cons, ih, bindSegment_eq]
    cases hb : binding? segment with
    | none => rw [List.filterMap_cons_none hb]
    | some v =>
      rw [List.filterMap_cons_some hb, List.lookup_append, emplace_lookup,
        ← List.lookup_append, List.append_assoc]
      rfl

/-- Whatever is read of a name is what the first segment that binds it says. -/
theorem environment_lookup (datagram key : Bytes) : (environment datagram).lookup key =
    ((datagram.splitOn 0).filterMap binding?).lookup key :=
  foldl_bindSegment_lookup [] (datagram.splitOn 0) key

/-! One round, then all of them -/

section memory
variable {memory : Nat → UInt8} {current : Nat}

theorem parseVariable_looks {segment rest : Bytes} (envMap : UeventEnv)
    (h : Holds memory current (segment ++ 0 :: rest)) (hsize : current + segment.length ≤ netlinkMsgSize)
    (hseg : 0 ∉ segment) : Looks memory (parseVariable current envMap)
      (bindSegment envMap segment) (current + segment.length) := by
  by_cases heq : equalsSign ∈ segment
  · obtain ⟨name, value, rfl, hname⟩ := List.eq_append_cons_of_mem heq
    have hlen : (name ++ equalsSign :: value).length = name.length + 1 + value.length := by
      rw [List.length_append, List.length_cons]
      omega
    rw [hlen] at hsize ⊢
    rw [List.append_assoc, List.cons_append] at h
    have hzero : 0 ∉ name ∧ 0 ∉ value := by
      simp only [List.mem_append, List.mem_cons, not_or] at hseg
      exact ⟨hseg.1, hseg.2.2⟩
    have hfound := strchr_found (netlinkMsgSize + 1) h (by omega) hzero.1 hname
    apply (hfound.mono (by omega)).bind
    dsimp only
    rw [bindSegment_split envMap value hname]
    by_cases hempty : name = []
    · rw [if_pos hempty, if_pos (by simp [hempty])]
      exact .ret _
    · have hpos : 0 < name.length := List.length_pos_iff.mpr hempty
      rw [if_neg hempty, if_neg (by omega), Nat.add_sub_cancel_left]
      have hvalue := string_looks (netlinkMsgSize + 1) h.right.tail (by omega) hzero.2
      apply ((copy_looks h).mono (by omega)).bind
      exact (hvalue.mono (by omega)).bind (.ret _)
  · rw [bindSegment_without envMap heq]
    have hmissing := strchr_missing (netlinkMsgSize + 1) h (Nat.lt_succ_of_le hsize) hseg heq (by decide)
    exact hmissing.bind (.ret _)

theorem parseLoop_left {last rounds : Nat} (envMap : UeventEnv) (h : last ≤ current) :
    Looks memory (parseLoop last rounds current envMap) (some envMap) last := by
  cases rounds with
  | zero =>
    rw [parseLoop, if_neg (by omega)]
    exact .ret _
  | succ rounds =>
    rw [parseLoop, if_neg (by omega)]
    exact .ret _

/-- One round takes one segment. -/
theorem parseLoop_round {last rounds : Nat} {envMap : UeventEnv} {segment rest : Bytes}
    {result : Option UeventEnv} (h : Holds memory current (segment ++ 0 :: rest))
    (hlt : current < last) (hlast : current + segment.length ≤ last) (hsize : last ≤ netlinkMsgSize)
    (hseg : 0 ∉ segment)
    (hnext : Looks memory (parseLoop last rounds (current + (segment.length + 1))
      (bindSegment envMap segment)) result last) :
    Looks memory (parseLoop last (rounds + 1) current envMap) result last := by
  rw [parseLoop, if_pos hlt]
  have hbind := parseVariable_looks envMap h (by omega) hseg
  have hlength := strlen_looks (netlinkMsgSize + 1) h (by omega) hseg
  apply (hbind.mono hlast).bind
  exact (hlength.mono hlast).bind hnext

/-- From the start of a segment on, within one round for each byte left. -/
theorem parseLoop_looks {last rounds : Nat} {rest : Bytes} (envMap : UeventEnv)
    (h : Holds memory current (rest ++ [0])) (hlast : current + rest.length = last)
    (hsize : last ≤ netlinkMsgSize) (hrounds : rest.length ≤ rounds) :
    Looks memory (parseLoop last rounds current envMap)
      (some ((rest.splitOn 0).foldl bindSegment envMap)) last := by
  induction hn : rest.length using Nat.strongRecOn generalizing rest current rounds envMap with
  | ind n ih =>
    by_cases hempty : rest = []
    · subst hempty
      exact parseLoop_left envMap (by simp at hlast; omega)
    have hpos := List.length_pos_iff.mpr hempty
    obtain ⟨rounds, rfl⟩ := Nat.exists_eq_add_of_lt (Nat.lt_of_lt_of_le hpos hrounds)
    rw [Nat.zero_add]
    by_cases hzero : 0 ∈ rest
    · obtain ⟨segment, rest', rfl, hseg⟩ := List.eq_append_cons_of_mem hzero
      rw [List.append_assoc, List.cons_append] at h
      rw [List.length_append, List.length_cons] at hlast hrounds hn
      have hnext : Looks memory (parseLoop last rounds (current + (segment.length + 1))
          (bindSegment envMap segment)) (some ((rest'.splitOn 0).foldl bindSegment _)) last :=
        ih rest'.length (by omega) _ h.right.tail (by omega) (by omega) rfl
      rw [List.splitOn_append_cons_self_of_not_mem hseg, List.foldl_cons]
      exact parseLoop_round h (by omega) (by omega) hsize hseg hnext
    · have hnext : Looks memory (parseLoop last rounds (current + (rest.length + 1))
          (bindSegment envMap rest)) (some (bindSegment envMap rest)) last :=
        parseLoop_left _ (by omega)
      rw [List.splitOn_eq_singleton hzero]
      exact parseLoop_round h (by omega) (by omega) hsize hzero hnext

end memory

theorem messageArray_holds (old : Nat → UInt8) (datagram : Bytes) :
    Holds (messageArray old datagram) 0 (datagram ++ [0]) := by
  intro j b hb
  rw [Nat.zero_add, messageArray, hb]
  rfl

/-! The environment as the kernel encodes it -/

/-- A header and the variables, each closed by a NUL. -/
def encodeEnvironment (header : Bytes) (vars : List (Bytes × Bytes)) : Bytes :=
  header ++ 0 :: vars.flatMap fun v => v.1 ++ equalsSign :: v.2 ++ [0]

/-- Names are distinct, not empty and free of `=`; there is no NUL in anything, and no
`=` in the header. -/
structure Encodable (header : Bytes) (vars : List (Bytes × Bytes)) : Prop where
  header_nul : 0 ∉ header
  header_equals : equalsSign ∉ header
  distinct : (vars.map Prod.fst).Nodup
  name_nonempty : ∀ v ∈ vars, v.1 ≠ []
  name_equals : ∀ v ∈ vars, equalsSign ∉ v.1
  name_nul : ∀ v ∈ vars, 0 ∉ v.1
  value_nul : ∀ v ∈ vars, 0 ∉ v.2

theorem emplace_new {envMap : UeventEnv} {name : Bytes} (h : name ∉ envMap.map Prod.fst)
    (value : Bytes) : emplace envMap name value = envMap ++ [(name, value)] := by
  have hnone : envMap.lookup name = none := by
    apply List.lookup_eq_none_iff.mpr
    intro v hv
    simpa using fun he : name = v.1 => h (he ▸ List.mem_map_of_mem hv)
  rw [emplace, hnone]
  rfl

/-- Variables with new names are added one by one. -/
theorem bind_variables {envMap vars : UeventEnv} (hnew : ((envMap ++ vars).map Prod.fst).Nodup)
    (hname : ∀ v ∈ vars, v.1 ≠ [] ∧ equalsSign ∉ v.1 ∧ 0 ∉ v.1 ∧ 0 ∉ v.2) :
    ((vars.flatMap fun v => v.1 ++ equalsSign :: v.2 ++ [0]).splitOn 0).foldl bindSegment envMap =
      envMap ++ vars := by
  induction vars generalizing envMap with
  | nil => simp [bindSegment]
  | cons v vars ih =>
    obtain ⟨hempty, hequals, hnul, hvalue⟩ := hname v List.mem_cons_self
    have hseg : 0 ∉ v.1 ++ equalsSign :: v.2 := by
      simp only [List.mem_append, List.mem_cons, not_or]
      exact ⟨hnul, by decide, hvalue⟩
    have hfresh : v.1 ∉ envMap.map Prod.fst := by
      rw [List.map_append, List.map_cons] at hnew
      exact fun h => List.disjoint_of_nodup_append hnew h List.mem_cons_self
    have hrest := @ih (envMap ++ [v]) (by simpa using hnew) fun w hw =>
      hname w (List.mem_cons_of_mem v hw)
    rw [List.flatMap_cons, List.append_assoc (v.1 ++ _), List.singleton_append,
      List.splitOn_append_cons_self_of_not_mem hseg, List.foldl_cons,
      bindSegment_split envMap v.2 hequals, if_neg hempty, emplace_new hfresh, hrest,
      List.append_assoc, List.singleton_append]

theorem environment_encode {header : Bytes} {vars : List (Bytes × Bytes)}
    (h : Encodable header vars) : environment (encodeEnvironment header vars) = vars := by
  rw [environment, encodeEnvironment, List.splitOn_append_cons_self_of_not_mem h.header_nul,
    List.foldl_cons, bindSegment_without [] h.header_equals, bind_variables]
  · rfl
  · exact h.distinct
  · intro v hv
    exact ⟨h.name_nonempty v hv, h.name_equals v hv, h.name_nul v hv, h.value_nul v hv⟩

/-- Whatever the datagram and whatever the array held before: the loop is left within one
round for each byte, looks at nothing behind the NUL it put there, and gives the
environment of the datagram. An encoded environment comes back as it was. -/
theorem uevent_parsed :
    (∀ old (datagram : Bytes), 1 ≤ datagram.length → datagram.length ≤ netlinkMsgSize →
      Looks (messageArray old datagram) (parseLoop datagram.length datagram.length 0 [])
        (some (environment datagram)) datagram.length) ∧
    ∀ old header vars, Encodable header vars →
      (encodeEnvironment header vars).length ≤ netlinkMsgSize →
      (look (messageArray old (encodeEnvironment header vars))
        (parseLoop (encodeEnvironment header vars).length
          (encodeEnvironment header vars).length 0 [])).value = some vars := by
  have hparse : ∀ old (datagram : Bytes), datagram.length ≤ netlinkMsgSize →
      Looks (messageArray old datagram) (parseLoop datagram.length datagram.length 0 [])
        (some (environment datagram)) datagram.length := by
    intro old datagram hmax
    exact parseLoop_looks [] (messageArray_holds old datagram) (Nat.zero_add _) hmax
      (Nat.le_refl _)
  constructor
  · intro old datagram _ hmax
    exact hparse old datagram hmax
  · intro old header vars hvars hmax
    rw [(hparse old _ hmax).value, environment_encode hvars]

def startHeader : Bytes := bytes "change@/devices/virtual/misc/usb_accessory"

theorem startEvent_encodable : Encodable startHeader startEvent where
  header_nul := by decide
  header_equals := by decide
  distinct := by decide
  name_nonempty := by decide
  name_equals := by decide
  name_nul := by decide
  value_nul := by decide

/-- The start event, behind an older message that filled the array with `=`. -/
theorem uevent_parsed_start :
    Looks (messageArray (fun _ => equalsSign) startHeader)
      (parseLoop startHeader.length startHeader.length 0 []) (some (environment startHeader))
      startHeader.length ∧
    (look (messageArray (fun _ => equalsSign) (encodeEnvironment startHeader startEvent))
      (parseLoop (encodeEnvironment startHeader startEvent).length
        (encodeEnvironment startHeader startEvent).length 0 [])).value = some startEvent :=
  ⟨uevent_parsed.1 _ startHeader (by decide) (by decide),
    uevent_parsed.2 _ startHeader startEvent startEvent_encodable (by decide)⟩

end Aawgd
