import Aawgd.Config
import Aawgd.GuardedSystem
import Aawgd.LineEdit

/-! Who owns wlan0: NetworkManager's configuration file under the scripts that install
the dongle, go home and come back. -/
namespace Aawgd.NetworkManager
open LineEdit

/-- The lines of NetworkManager.conf, and whether the last one ends in a newline. -/
structure Conf where
  lines : List Bytes
  terminated : Bool
  deriving DecidableEq

def option : Bytes := bytes "unmanaged-devices="

def wlan0 : Bytes := bytes "interface-name:wlan0"

/-- `#`. -/
def hash : UInt8 := 35

def guardPattern : Bytes := option ++ wlan0

/-- The `grep -q` of install.sh succeeds. -/
def Guarded (c : Conf) : Prop := ∃ line ∈ c.lines, Matches guardPattern line

instance (c : Conf) : Decidable (Guarded c) := inferInstanceAs (Decidable (∃ line ∈ _, _))

/-- The edit of install.sh: unless the guard is there, a section is appended, after an
empty line where the file ends in a newline. -/
def install (c : Conf) : Conf :=
  if Guarded c then c
  else
    { lines := c.lines ++ (if c.terminated = true then [[]] else []) ++
        [bytes "[keyfile]", option ++ wlan0],
      terminated := true }

/-- `sed -i s/^old/new/`. -/
def sed (old new : Bytes) (c : Conf) : Conf :=
  { c with lines := c.lines.map (substituteStart old new) }

/-- The edit of connect_home.sh. -/
def connectHome (c : Conf) : Conf := sed option (hash :: option) c

/-- The edit of modo_dongle.sh. -/
def modoDongle (c : Conf) : Conf := sed (hash :: option) option c

inductive Script where
  | install | connectHome | modoDongle
  deriving DecidableEq

def Script.run (c : Conf) : Script → Conf
  | .install => NetworkManager.install c
  | .connectHome => NetworkManager.connectHome c
  | .modoDongle => NetworkManager.modoDongle c

/-- The scripts run one after another. -/
def scripts (c : Conf) : GuardedSystem Conf Script where
  init := c
  guard _ _ := True
  effect := Script.run

/-! Who owns the interface -/

/-- The entries of a value, separated by `;` or `,`, without blanks around them. -/
def entries (value : Bytes) : List Bytes :=
  (value.splitOnP fun c => c == 59 || c == 44).map fun e =>
    ((e.dropWhile isSpace).reverse.dropWhile isSpace).reverse

/-- An uncommented line that names wlan0. -/
def Names (line : Bytes) : Prop := ∃ value, line = option ++ value ∧ wlan0 ∈ entries value

/-- The dongle owns wlan0. -/
def Unmanaged (c : Conf) : Prop := ∃ line ∈ c.lines, Names line

/-- NetworkManager owns every interface. -/
def Released (c : Conf) : Prop := ∀ line ∈ c.lines, ¬ option <+: line

/-- What a script leaves behind. -/
def Leaves (c : Conf) : Script → Prop
  | .install | .modoDongle => Unmanaged c
  | .connectHome => Released c

/-- A line that modo_dongle.sh makes one of the dongle's. -/
def Parked (c : Conf) : Prop := ∃ line, hash :: line ∈ c.lines ∧ Names line

/-! One edit -/

theorem mem_sed (old new : Bytes) {c : Conf} {line : Bytes} (h : line ∈ c.lines) :
    substituteStart old new line ∈ (sed old new c).lines := List.mem_map_of_mem h

theorem option_eq : option = 117 :: bytes "nmanaged-devices=" := by decide

theorem Names.option_prefix {line : Bytes} (h : Names line) : option <+: line := by
  obtain ⟨value, rfl, -⟩ := h
  exact List.prefix_append option value

theorem not_option_hash (line : Bytes) : ¬ option <+: hash :: line := by
  rw [option_eq]
  exact not_prefix_cons (by decide) _ line

theorem not_hash_option {line : Bytes} (h : option <+: line) (rest : Bytes) :
    ¬ hash :: rest <+: line := by
  obtain ⟨value, rfl⟩ := h
  rw [option_eq]
  exact not_prefix_cons (by decide) rest _

theorem matches_hash (line : Bytes) :
    Matches guardPattern (hash :: line) ↔ Matches guardPattern line := by
  rw [guardPattern, option_eq]
  exact matches_cons (by decide) _ line

theorem names_guard : Names guardPattern := ⟨wlan0, rfl, by decide⟩

theorem guard_appended (c : Conf) (h : ¬ Guarded c) : guardPattern ∈ (install c).lines := by
  rw [install, if_neg h]
  simp [guardPattern]

theorem install_guarded (c : Conf) : Guarded (install c) := by
  by_cases h : Guarded c
  · rwa [install, if_pos h]
  · exact ⟨guardPattern, guard_appended c h, List.infix_refl _⟩

theorem install_unmanaged_iff (c : Conf) :
    Unmanaged (install c) ↔ Unmanaged c ∨ ¬ Guarded c := by
  by_cases h : Guarded c
  · rw [install, if_pos h]
    simp [h]
  · refine iff_of_true ⟨guardPattern, guard_appended c h, names_guard⟩ (.inr h)

/-- Neither substitution takes the guard's text out of a line. -/
theorem home_matches (line : Bytes) :
    Matches guardPattern (substituteStart option (hash :: option) line) ↔
      Matches guardPattern line := by
  by_cases h : option <+: line
  · obtain ⟨value, rfl⟩ := h
    rw [substituteStart_append]
    exact matches_hash _
  · rw [substituteStart_other h]

theorem dongle_matches (line : Bytes) :
    Matches guardPattern (substituteStart (hash :: option) option line) ↔
      Matches guardPattern line := by
  by_cases h : hash :: option <+: line
  · obtain ⟨value, rfl⟩ := h
    rw [substituteStart_append]
    exact (matches_hash _).symm
  · rw [substituteStart_other h]

theorem connectHome_guarded {c : Conf} (h : Guarded c) : Guarded (connectHome c) := by
  obtain ⟨line, hline, hmatch⟩ := h
  exact ⟨_, mem_sed _ _ hline, (home_matches line).mpr hmatch⟩

theorem modoDongle_guarded {c : Conf} (h : Guarded c) : Guarded (modoDongle c) := by
  obtain ⟨line, hline, hmatch⟩ := h
  exact ⟨_, mem_sed _ _ hline, (dongle_matches line).mpr hmatch⟩

theorem connectHome_released (c : Conf) : Released (connectHome c) := by
  intro line hline
  obtain ⟨before, -, rfl⟩ := List.mem_map.mp hline
  by_cases h : option <+: before
  · obtain ⟨value, rfl⟩ := h
    rw [substituteStart_append]
    exact not_option_hash _
  · rwa [substituteStart_other h]

theorem connectHome_parks {c : Conf} (h : Unmanaged c) : Parked (connectHome c) := by
  obtain ⟨line, hline, hnames⟩ := h
  obtain ⟨value, rfl, hvalue⟩ := id hnames
  refine ⟨option ++ value, ?_, hnames⟩
  have hmem := mem_sed option (hash :: option) hline
  rwa [substituteStart_append] at hmem

theorem connectHome_keeps {c : Conf} (h : Parked c) : Parked (connectHome c) := by
  obtain ⟨line, hline, hnames⟩ := h
  refine ⟨line, ?_, hnames⟩
  have hmem := mem_sed option (hash :: option) hline
  rwa [substituteStart_other (not_option_hash line)] at hmem

theorem modoDongle_restores {c : Conf} (h : Parked c) : Unmanaged (modoDongle c) := by
  obtain ⟨line, hline, hnames⟩ := h
  obtain ⟨value, rfl, hvalue⟩ := id hnames
  refine ⟨option ++ value, ?_, hnames⟩
  have hmem := mem_sed (hash :: option) option hline
  rwa [← List.cons_append, substituteStart_append] at hmem

theorem modoDongle_keeps {c : Conf} (h : Unmanaged c) : Unmanaged (modoDongle c) := by
  obtain ⟨line, hline, hnames⟩ := h
  refine ⟨line, ?_, hnames⟩
  have hmem := mem_sed (hash :: option) option hline
  rwa [substituteStart_other (not_hash_option hnames.option_prefix _)] at hmem

theorem Released.not_unmanaged {c : Conf} (h : Released c) : ¬ Unmanaged c := by
  intro hu
  obtain ⟨line, hline, hnames⟩ := hu
  exact h line hline hnames.option_prefix

/-! Sequences of runs -/

/-- Between a connect_home.sh and the next install.sh there is a modo_dongle.sh; `home`
tells whether a connect_home.sh is waiting for one. -/
def Orderly : Bool → List Script → Prop
  | _, [] => True
  | home, .install :: as => home = false ∧ Orderly home as
  | _, .connectHome :: as => Orderly true as
  | _, .modoDongle :: as => Orderly false as

instance decidableOrderly : (home : Bool) → (as : List Script) → Decidable (Orderly home as)
  | _, [] => .isTrue trivial
  | home, .install :: as => @instDecidableAnd _ _ _ (decidableOrderly home as)
  | _, .connectHome :: as => decidableOrderly true as
  | _, .modoDongle :: as => decidableOrderly false as

def LeavesAfter (c : Conf) (a : Script) : Prop := Leaves (a.run c) a

/-- Every script of the sequence leaves behind what it is for. -/
def Agree (c : Conf) (as : List Script) : Prop :=
  ∀ pre a, pre ++ [a] <+: as → Leaves ((scripts c).after c (pre ++ [a])) a

/-- Once the guard is there: the line is in one of its two forms, as the last mode switch
left it. -/
structure Switched (home : Bool) (c : Conf) : Prop where
  guarded : Guarded c
  form : if home = true then Released c ∧ Parked c else Unmanaged c

/-- In one form or the other, the line is there to be switched. -/
theorem Switched.home {home : Bool} {c : Conf} (h : Switched home c) :
    Switched true (connectHome c) := by
  refine ⟨connectHome_guarded h.guarded, connectHome_released c, ?_⟩
  have hform := h.form
  cases home with
  | true => exact connectHome_keeps hform.2
  | false => exact connectHome_parks hform

theorem Switched.dongle {home : Bool} {c : Conf} (h : Switched home c) :
    Switched false (modoDongle c) := by
  refine ⟨modoDongle_guarded h.guarded, ?_⟩
  have hform := h.form
  cases home with
  | true => exact modoDongle_restores hform.2
  | false => exact modoDongle_keeps hform

theorem Switched.install_same {home : Bool} {c : Conf} (h : Switched home c) : install c = c :=
  if_pos h.guarded

theorem agree_meets (c : Conf) (as : List Script) :
    Agree c as ↔ (scripts c).Meets LeavesAfter c as := by
  rw [GuardedSystem.meets_iff_prefix]
  constructor
  · intro h pre a hpre
    have hleaves := h pre a hpre
    rwa [GuardedSystem.after_append] at hleaves
  · intro h pre a hpre
    rw [GuardedSystem.after_append]
    exact h pre a hpre

theorem switched_agree_iff {home : Bool} {c₀ c : Conf} (h : Switched home c) (as : List Script) :
    (scripts c₀).Meets LeavesAfter c as ↔ Orderly home as := by
  induction as generalizing home c with
  | nil => exact Iff.rfl
  | cons a as ih =>
    cases a with
    | install =>
      have hsame : Script.install.run c = c := h.install_same
      have hrest : (scripts c₀).Meets LeavesAfter ((scripts c₀).effect c .install) as ↔ Orderly home as := by
        rw [show (scripts c₀).effect c .install = c from hsame]
        exact ih h
      have hform := h.form
      cases home with
      | true =>
        refine iff_of_false (fun hm => ?_) (fun ho => Bool.noConfusion ho.1)
        have hu : Unmanaged (Script.install.run c) := hm.1
        rw [hsame] at hu
        exact hform.1.not_unmanaged hu
      | false =>
        have hleaves : Leaves (Script.install.run c) .install := hsame.symm ▸ hform
        exact and_congr (iff_of_true hleaves rfl) hrest
    | connectHome =>
      have hrest := ih h.home
      exact (and_iff_right (connectHome_released c)).trans hrest
    | modoDongle =>
      have hrest := ih h.dongle
      exact (and_iff_right h.dongle.form).trans hrest

/-- After an install.sh on any file, the scripts leave what they are for exactly when the
dongle's line stood uncommented or nothing in the file held the guard off, and no
install.sh comes between a connect_home.sh and its modo_dongle.sh. -/
theorem scripts_agree_iff (c : Conf) (as : List Script) :
    Agree c (.install :: as) ↔ (Unmanaged c ∨ ¬ Guarded c) ∧ Orderly false as := by
  rw [agree_meets]
  constructor
  · intro h
    have hfirst : Unmanaged (install c) := h.1
    have hswitched : Switched false (install c) := ⟨install_guarded c, hfirst⟩
    exact ⟨(install_unmanaged_iff c).mp hfirst, (switched_agree_iff hswitched as).mp h.2⟩
  · intro h
    have hfirst := (install_unmanaged_iff c).mpr h.1
    have hswitched : Switched false (install c) := ⟨install_guarded c, hfirst⟩
    exact ⟨hfirst, (switched_agree_iff hswitched as).mpr h.2⟩

/-- Installed, sent home and installed again, the line stays commented. -/
theorem reinstall_disagrees : ¬ Agree ⟨[], true⟩ [.install, .connectHome, .install] := by
  intro h
  have hlast : Unmanaged (install (connectHome (install ⟨[], true⟩))) :=
    h [.install, .connectHome] .install (List.prefix_refl _)
  rw [install, if_pos (connectHome_guarded (install_guarded _))] at hlast
  exact (connectHome_released _).not_unmanaged hlast

end Aawgd.NetworkManager
