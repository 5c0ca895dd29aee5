import Mathlib.Data.List.Basic

/-! The output of `bluetoothctl devices`, whatever it is, and the two places that take
devices out of it: the button script splits at blanks, the start script uses `cut`. -/
namespace Aawgd.DeviceListing

abbrev Text := List Char

/-! The loop of `reset_bluetooth` over the output -/

def deviceWord : Text := ['D', 'e', 'v', 'i', 'c', 'e']

/-- `line.startswith('Device ')` -/
def isDeviceLine (line : Text) : Bool := (deviceWord ++ [' ']).isPrefixOf line

/-- `line.split(' ')[1]` -/
def secondField? (line : Text) : Option Text := (line.splitOn ' ')[1]?

def deviceAddresses (stdout : Text) : List Text :=
  ((stdout.splitOn '\n').filter isDeviceLine).filterMap secondField?

/-- What `text=True` makes of the output: every line end becomes a newline. -/
def universalNewlines : Text → Text
  | [] => []
  | '\r' :: '\n' :: t => '\n' :: universalNewlines t
  | '\r' :: t => '\n' :: universalNewlines t
  | c :: t => c :: universalNewlines t

/-! `for mac in $(bluetoothctl devices | cut -f2 -d' ')` in `auto_trust_daemon` -/

/-- What comes behind the last newline is a line only if it is not empty. -/
def lines (t : Text) : List Text :=
  let pieces := t.splitOn '\n'
  if pieces.getLast? = some [] then pieces.dropLast else pieces

/-- A line without the delimiter is printed whole. -/
def cutSecond (line : Text) : Text :=
  if line.contains ' ' then (secondField? line).getD [] else line

def isBlank (c : Char) : Bool := c == ' ' || c == '\t' || c == '\n'

def words (t : Text) : List Text := (t.splitOnP isBlank).filter fun w => !w.isEmpty

/-- The substitution drops null characters. Its words go through pathname expansion, and the
empty ones are passed over. -/
def trustedAddresses (expand : Text → List Text) (output : Text) : List Text :=
  let substituted := ((lines output).flatMap fun line => cutSecond line ++ ['\n']).filter
    fun c => c != '\x00'
  ((words substituted).flatMap expand).filter fun mac => !mac.isEmpty

/-- A line that starts as a device line has a second field, so that the index never fails. -/
theorem secondField?_isSome {line : Text} (h : isDeviceLine line = true) :
    (secondField? line).isSome = true := by
  obtain ⟨rest, rfl⟩ := List.isPrefixOf_iff_prefix.mp h
  have hword : ' ' ∉ deviceWord := by decide
  rw [secondField?, List.append_assoc, List.singleton_append,
    List.splitOn_append_cons_self_of_not_mem hword]
  cases hrest : rest.splitOn ' ' with
  | nil => exact absurd hrest (List.splitOn_ne_nil ' ' rest)
  | cons field fields => rfl

/-! Words -/

/-- What the shell takes for one word. -/
def IsWord (w : Text) : Prop := w ≠ [] ∧ ∀ c ∈ w, isBlank c = false

theorem mem_splitOnP {p : Char → Bool} {t w : Text} (h : w ∈ t.splitOnP p) :
    ∀ c ∈ w, c ∈ t ∧ p c = false := by
  induction t generalizing w with
  | nil =>
    rw [List.splitOnP_nil, List.mem_singleton] at h
    simp [h]
  | cons x t ih =>
    rw [List.splitOnP_cons_eq_if_modifyHead] at h
    by_cases hx : p x = true
    · rw [if_pos hx, List.mem_cons] at h
      cases h with
      | inl hnil => simp [hnil]
      | inr htail => exact fun c hc => (ih htail c hc).imp_left (List.mem_cons_of_mem x)
    · obtain ⟨piece, pieces, hpieces⟩ := List.exists_cons_of_ne_nil (List.splitOnP_ne_nil p t)
      rw [if_neg hx, hpieces, List.modifyHead_cons, List.mem_cons] at h
      rw [hpieces] at ih
      obtain rfl | htail := h
      · intro c hc
        obtain rfl | hrest := List.mem_cons.mp hc
        · exact ⟨List.mem_cons_self, by simpa using hx⟩
        · exact (ih List.mem_cons_self c hrest).imp_left (List.mem_cons_of_mem x)
      · exact fun c hc => (ih (List.mem_cons_of_mem _ htail) c hc).imp_left (List.mem_cons_of_mem x)

theorem mem_words {t w : Text} (h : w ∈ words t) : IsWord w ∧ ∀ c ∈ w, c ∈ t := by
  obtain ⟨hpiece, hne⟩ := List.mem_filter.mp h
  have hmem := mem_splitOnP hpiece
  exact ⟨⟨by simpa using hne, fun c hc => (hmem c hc).2⟩, fun c hc => (hmem c hc).1⟩

theorem words_append_newline (s t : Text) : words (s ++ '\n' :: t) = words s ++ words t := by
  rw [words, List.splitOnP_append_cons s t (by rfl), List.filter_append]
  rfl

theorem IsWord.words_eq {w : Text} (h : IsWord w) : words w = [w] := by
  rw [words, List.splitOnP_eq_singleton h.2]
  simp [h.1]

theorem words_lines (ls : List Text) :
    words (ls.flatMap fun line => cutSecond line ++ ['\n']) =
      ls.flatMap fun line => words (cutSecond line) := by
  induction ls with
  | nil => rfl
  | cons line ls ih =>
    rw [List.flatMap_cons, List.append_assoc, List.singleton_append, words_append_newline, ih,
      List.flatMap_cons]

/-! Characters without a meaning of their own -/

/-- No line end but the newline, not null, and nothing that makes a word a pattern. -/
def Plain (c : Char) : Prop := c ∉ ['\r', '\x00', '*', '?', '[']

instance (c : Char) : Decidable (Plain c) := inferInstanceAs (Decidable (c ∉ _))

theorem universalNewlines_plain {t : Text} (h : ∀ c ∈ t, Plain c) : universalNewlines t = t := by
  induction t using universalNewlines.induct with
  | case1 => rfl
  | case2 t ih => exact absurd (h '\r' List.mem_cons_self) (by simp [Plain])
  | case3 t hnext ih => exact absurd (h '\r' List.mem_cons_self) (by simp [Plain])
  | case4 c t hpair hreturn ih =>
    rw [universalNewlines, ih fun c' hc' => h c' (List.mem_cons_of_mem c hc')]
    · exact hpair
    · exact hreturn

theorem mem_lines {t line : Text} (h : line ∈ lines t) : ∀ c ∈ line, c ∈ t := by
  have hpiece : line ∈ t.splitOnP (· == '\n') := by
    rw [← List.splitOn_eq_splitOnP]
    unfold lines at h
    dsimp only at h
    split at h
    · exact List.dropLast_subset _ h
    · exact h
  exact fun c hc => (mem_splitOnP hpiece c hc).1

theorem mem_cutSecond {line : Text} : ∀ c ∈ cutSecond line, c ∈ line := by
  intro c hc
  unfold cutSecond at hc
  split at hc
  · cases hfield : secondField? line with
    | none => simp [hfield] at hc
    | some field =>
      rw [hfield, Option.getD_some] at hc
      exact (mem_splitOnP (List.mem_of_getElem? hfield) c hc).1
  · exact hc

/-! Line by line -/

/-- What the button script takes out of a line. -/
def removedIn (line : Text) : List Text :=
  if isDeviceLine line = true then (secondField? line).toList else []

/-- What the start script takes out of a line of plain characters. -/
def trustedIn (line : Text) : List Text := words (cutSecond line)

/-- A device line with a whole word behind its first blank, or a line without a word to cut. -/
def Regular (line : Text) : Prop :=
  if isDeviceLine line = true then ∃ mac, secondField? line = some mac ∧ IsWord mac
  else words (cutSecond line) = []

theorem flatMap_removedIn (ls : List Text) :
    (ls.filter isDeviceLine).filterMap secondField? = ls.flatMap removedIn := by
  induction ls with
  | nil => rfl
  | cons line ls ih =>
    by_cases hline : isDeviceLine line = true
    · obtain ⟨mac, hmac⟩ := Option.isSome_iff_exists.mp (secondField?_isSome hline)
      rw [List.filter_cons_of_pos hline, List.filterMap_cons_some hmac, ih, List.flatMap_cons,
        removedIn, if_pos hline, hmac]
      rfl
    · rw [List.filter_cons_of_neg hline, ih, List.flatMap_cons, removedIn, if_neg hline]
      rfl

theorem deviceAddresses_lines (t : Text) : deviceAddresses t = (lines t).flatMap removedIn := by
  rw [deviceAddresses, flatMap_removedIn, lines]
  split
  next hlast =>
    have hempty : removedIn [] = [] := rfl
    have hpieces := List.dropLast_append_getLast? [] hlast
    rw [← hpieces, List.flatMap_append, List.flatMap_singleton, hempty, List.append_nil, hpieces]
  next => rfl

theorem trustedAddresses_lines {expand : Text → List Text}
    (hexpand : ∀ w, (∀ c ∈ w, Plain c) → expand w = [w]) {output : Text}
    (hplain : ∀ c ∈ output, Plain c) :
    trustedAddresses expand output = (lines output).flatMap trustedIn := by
  have hcut : ∀ c ∈ (lines output).flatMap fun line => cutSecond line ++ ['\n'], Plain c := by
    intro c hc
    obtain ⟨line, hline, hc⟩ := List.mem_flatMap.mp hc
    obtain hc | hc := List.mem_append.mp hc
    · exact hplain c (mem_lines hline c (mem_cutSecond c hc))
    · rw [List.mem_singleton.mp hc]
      simp [Plain]
  have hnull : ((lines output).flatMap fun line => cutSecond line ++ ['\n']).filter
      (fun c => c != '\x00') = (lines output).flatMap fun line => cutSecond line ++ ['\n'] := by
    refine List.filter_eq_self.mpr fun c hc => ?_
    have hc := hcut c hc
    simp only [Plain, List.mem_cons, not_or] at hc
    exact bne_iff_ne.mpr hc.2.1
  have hwords (w : Text) (hw : w ∈ words ((lines output).flatMap fun line =>
      cutSecond line ++ ['\n'])) : expand w = [w] ∧ w ≠ [] := by
    obtain ⟨hword, hmem⟩ := mem_words hw
    exact ⟨hexpand w fun c hc => hcut c (hmem c hc), hword.1⟩
  unfold trustedAddresses
  dsimp only
  rw [hnull, List.flatMap_congr fun w hw => (hwords w hw).1, List.flatMap_singleton',
    List.filter_eq_self.mpr fun w hw => by simpa using (hwords w hw).2, words_lines]
  rfl

theorem regular_iff (line : Text) : Regular line ↔ removedIn line = trustedIn line := by
  by_cases hline : isDeviceLine line = true
  · obtain ⟨mac, hmac⟩ := Option.isSome_iff_exists.mp (secondField?_isSome hline)
    have hblank : line.contains ' ' = true := by
      obtain ⟨rest, rfl⟩ := List.isPrefixOf_iff_prefix.mp hline
      simp
    rw [Regular, if_pos hline, removedIn, if_pos hline, trustedIn, cutSecond, if_pos hblank, hmac,
      Option.getD_some]
    constructor
    · rintro ⟨mac', heq, hword⟩
      cases heq
      exact hword.words_eq.symm
    · intro h
      exact ⟨mac, rfl, (mem_words (h ▸ List.mem_singleton.mpr rfl : mac ∈ words mac)).1⟩
  · rw [Regular, if_neg hline, removedIn, if_neg hline, trustedIn]
    exact eq_comm

/-- What the button script takes out of a line is one of the start script's words, or the two
have nothing in common there. -/
theorem removedIn_cases {line : Text} (h : ∀ mac ∈ removedIn line, IsWord mac) :
    removedIn line = trustedIn line ∨ removedIn line = [] := by
  by_cases hline : isDeviceLine line = true
  · obtain ⟨mac, hmac⟩ := Option.isSome_iff_exists.mp (secondField?_isSome hline)
    refine .inl ((regular_iff line).mp ?_)
    rw [Regular, if_pos hline]
    refine ⟨mac, hmac, h mac ?_⟩
    rw [removedIn, if_pos hline, hmac]
    exact List.mem_singleton.mpr rfl
  · exact .inr (by rw [removedIn, if_neg hline])

theorem length_flatMap_le {α β : Type} {f g : α → List β} {xs : List α}
    (hsame : ∀ x ∈ xs, f x = g x ∨ f x = []) :
    (xs.flatMap f).length ≤ (xs.flatMap g).length := by
  induction xs with
  | nil => exact Nat.le_refl 0
  | cons x xs ih =>
    have hrest := ih fun y hy => hsame y (List.mem_cons_of_mem x hy)
    simp only [List.flatMap_cons, List.length_append]
    cases hsame x List.mem_cons_self with
    | inl heq =>
      rw [heq]
      omega
    | inr hnil =>
      rw [hnil, List.length_nil]
      omega

/-- Pieces that are the same or missing have to be the same to give the same list. -/
theorem eq_of_flatMap_eq {α β : Type} {f g : α → List β} {xs : List α}
    (hsame : ∀ x ∈ xs, f x = g x ∨ f x = []) (h : xs.flatMap f = xs.flatMap g) :
    ∀ x ∈ xs, f x = g x := by
  induction xs with
  | nil => simp
  | cons x xs ih =>
    have htail : ∀ y ∈ xs, f y = g y ∨ f y = [] := fun y hy => hsame y (List.mem_cons_of_mem x hy)
    rw [List.flatMap_cons, List.flatMap_cons] at h
    have hx : f x = g x := by
      cases hsame x List.mem_cons_self with
      | inl heq => exact heq
      | inr hnil =>
        have hlength := congrArg List.length h
        have hxs := length_flatMap_le htail
        rw [hnil, List.nil_append, List.length_append] at hlength
        rw [hnil, List.length_eq_zero_iff.mp (by omega : (g x).length = 0)]
    rw [hx] at h
    rintro y hy
    obtain rfl | hy := List.mem_cons.mp hy
    · exact hx
    · exact ih htail (List.append_cancel_left h) y hy

/-- On any output of plain characters the two scripts take out the same devices exactly when
every line is regular. -/
theorem readers_agree {expand : Text → List Text}
    (hexpand : ∀ w, (∀ c ∈ w, Plain c) → expand w = [w]) {output : Text}
    (hplain : ∀ c ∈ output, Plain c) :
    deviceAddresses (universalNewlines output) = trustedAddresses expand output ↔
      ∀ line ∈ lines output, Regular line := by
  rw [universalNewlines_plain hplain, deviceAddresses_lines, trustedAddresses_lines hexpand hplain]
  constructor
  · intro h line hline
    refine (regular_iff line).mpr (eq_of_flatMap_eq (fun l hl => removedIn_cases ?_) h line hline)
    intro mac hmac
    have htrusted : mac ∈ (lines output).flatMap trustedIn := h ▸ List.mem_flatMap.mpr ⟨l, hl, hmac⟩
    obtain ⟨l', -, hword⟩ := List.mem_flatMap.mp htrusted
    exact (mem_words hword).1
  · intro h
    exact List.flatMap_congr fun line hline => (regular_iff line).mp (h line hline)

/-- A known device, and a message of the agent. -/
def chatty : Text :=
  deviceWord ++ [' ', '0', ':', 'A', ' ', 'C', 'a', 'r', '\n', 'A', 'g', 'e', 'n', 't', ' ', 'o',
    'n', '\n']

theorem readers_agree_chatty :
    deviceAddresses (universalNewlines chatty) ≠ trustedAddresses (fun w => [w]) chatty := by
  intro h
  have hplain : ∀ c ∈ chatty, Plain c := by simp [chatty, deviceWord, Plain]
  have hregular := (readers_agree (fun _ _ => rfl) hplain).mp h
    ['A', 'g', 'e', 'n', 't', ' ', 'o', 'n'] (by decide +kernel)
  rw [Regular, if_neg (by decide)] at hregular
  exact absurd hregular (by decide +kernel)

end Aawgd.DeviceListing
