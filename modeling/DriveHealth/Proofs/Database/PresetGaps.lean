import DriveHealth.Proofs.Database.WrittenPresets

/-! Blanks and tabs between the options of a preset text. A tab separates options as a blank does as
long as there is a blank in front of it; directly behind an argument it belongs to the argument. -/
namespace DriveHealth

namespace PresetText

def IsGapText (g : Text) : Prop := ∀ c ∈ g, isGap c = true

instance (g : Text) : Decidable (IsGapText g) := List.decidableBAll (fun c => isGap c = true) g

theorem isGap_iff {c : Char} : isGap c = true ↔ c = ' ' ∨ c = '\t' := by
  rw [isGap, Bool.or_eq_true, decide_eq_true_iff, decide_eq_true_iff]

theorem isBlank_of_isGap {c : Char} (h : isGap c = true) : isBlank c = true := by
  rcases isGap_iff.mp h with rfl | rfl
  · rfl
  · rfl

theorem scan_gapText {g : Text} (h : IsGapText g) (t : Text) : scan (g ++ t) = scan t := by
  induction g with
  | nil => rfl
  | cons c g ih =>
    obtain ⟨first, rest⟩ := List.forall_mem_cons.mp h
    rw [List.cons_append, scan_gap first, ih rest]

theorem setting?_of_ne {c : Char} (h : c ≠ '-') (t : Text) : setting? (c :: t) = none := by
  rw [setting?]
  intro letter r same
  exact h (List.cons.inj same).1

/-! ### Texts with other gaps -/

/-- Texts that differ in the gaps behind a blank only. -/
inductive Respaced : Text → Text → Prop where
  | nil : Respaced [] []
  | char (c) {s t} : Respaced s t → Respaced (c :: s) (c :: t)
  | gap {g h s t} : IsGapText g → IsGapText h → Respaced s t →
      Respaced (' ' :: (g ++ s)) (' ' :: (h ++ t))

namespace Respaced

theorem append_left (s : Text) {t u : Text} (h : Respaced t u) : Respaced (s ++ t) (s ++ u) := by
  induction s with
  | nil => exact h
  | cons c s ih => exact .char c ih

theorem isEmpty_eq {s t : Text} (h : Respaced s t) : s.isEmpty = t.isEmpty := by
  cases h <;> rfl

/-- Skipping what includes the gaps skips them on both sides. -/
theorem dropWhile {p : Char → Bool} (hp : ∀ c, isGap c = true → p c = true) {s t : Text}
    (h : Respaced s t) : Respaced (s.dropWhile p) (t.dropWhile p) := by
  induction h with
  | nil => exact .nil
  | @char c s t h ih =>
    rw [List.dropWhile_cons, List.dropWhile_cons]
    split
    · exact ih
    · exact .char c h
  | @gap g h s t hg hh _ ih =>
    rw [List.dropWhile_cons_of_pos (hp ' ' rfl), List.dropWhile_cons_of_pos (hp ' ' rfl),
      List.dropWhile_append_of_pos fun c hc => hp c (hg c hc),
      List.dropWhile_append_of_pos fun c hc => hp c (hh c hc)]
    exact ih

/-- An argument ends in front of the first gap, so it is the same on both sides, and so is what follows
up to the gaps. -/
theorem argument {s t : Text} (h : Respaced s t) (n : Nat) :
    ∃ argument, (s.take n).takeWhile (· ≠ ' ') = argument ∧
      (t.take n).takeWhile (· ≠ ' ') = argument ∧
      Respaced (s.drop argument.length) (t.drop argument.length) := by
  induction h generalizing n with
  | nil => exact ⟨[], by simp, by simp, .nil⟩
  | @char c s t h ih =>
    cases n with
    | zero => exact ⟨[], rfl, rfl, .char c h⟩
    | succ n =>
      by_cases blank : c = ' '
      · subst blank
        exact ⟨[], rfl, rfl, .char ' ' h⟩
      · obtain ⟨rest, hs, ht, left⟩ := ih n
        refine ⟨c :: rest, ?_, ?_, left⟩
        · rw [List.take_succ_cons, List.takeWhile_cons_of_pos (by simpa using blank), hs]
        · rw [List.take_succ_cons, List.takeWhile_cons_of_pos (by simpa using blank), ht]
  | gap hg hh h _ =>
    cases n with
    | zero => exact ⟨[], rfl, rfl, .gap hg hh h⟩
    | succ n => exact ⟨[], rfl, rfl, .gap hg hh h⟩

/-- What stands behind an option's letter. -/
theorem setting?_body {letter : Char} {r u : Text} (h : Respaced (skipBlanks r) (skipBlanks u)) :
    (setting? ('-' :: letter :: r) = none ∧ setting? ('-' :: letter :: u) = none) ∨
      ∃ x s t, setting? ('-' :: letter :: r) = some (x, s) ∧
        setting? ('-' :: letter :: u) = some (x, t) ∧ Respaced s t := by
  obtain ⟨argument, hr, hu, left⟩ := h.argument maxArgument
  simp only [setting?, hr, hu]
  split
  · exact .inl ⟨rfl, rfl⟩
  · exact .inr ⟨_, _, _, rfl, rfl, left⟩

theorem setting? {s t : Text} (h : Respaced s t) :
    (PresetText.setting? s = none ∧ PresetText.setting? t = none) ∨
      ∃ x s' t', PresetText.setting? s = some (x, s') ∧ PresetText.setting? t = some (x, t') ∧
        Respaced s' t' := by
  cases h with
  | nil => exact .inl ⟨rfl, rfl⟩
  | gap => exact .inl ⟨setting?_of_ne (by decide) _, setting?_of_ne (by decide) _⟩
  | char c h =>
    by_cases option : c = '-'
    · subst option
      cases h with
      | nil => exact .inl ⟨rfl, rfl⟩
      | char letter h => exact setting?_body (h.dropWhile fun _ => isBlank_of_isGap)
      | gap hg hh h =>
        -- the letter of the option is a blank itself
        refine setting?_body ?_
        rw [skipBlanks, skipBlanks, List.dropWhile_append_of_pos fun c hc => isBlank_of_isGap (hg c hc),
          List.dropWhile_append_of_pos fun c hc => isBlank_of_isGap (hh c hc)]
        exact h.dropWhile fun _ => isBlank_of_isGap
    · exact .inl ⟨setting?_of_ne option _, setting?_of_ne option _⟩

/-- The options of a text do not depend on its gaps behind a blank. -/
theorem scan_eq {s t : Text} (h : Respaced s t) : scan s = scan t := by
  induction length : s.length using Nat.strongRecOn generalizing s t with
  | ind n ih =>
    have same := h.dropWhile (p := isGap) fun _ hc => hc
    rw [PresetText.scan_eq s, PresetText.scan_eq t, same.isEmpty_eq]
    split
    · rfl
    · rcases same.setting? with ⟨bad, bad'⟩ | ⟨x, s', t', read, read', left⟩
      · rw [bad, bad']
      · have skipped := (List.dropWhile_sublist isGap (l := s)).length_le
        have shorter := setting?_shorter read
        rw [read, read']
        simp only [ih s'.length (by omega) left rfl]

end Respaced

/-! ### Options with gaps behind them -/

/-- An option and the gap that follows it. -/
structure SpacedOption where
  setting : Setting
  gap : Text

/-- The same gap with blanks for tabs. -/
def blanks (gap : Text) : Text := gap.map fun _ => ' '

namespace SpacedOption

def text (o : SpacedOption) : Text :=
  '-' :: o.setting.letter :: ' ' :: (o.setting.argument ++ o.gap)

def blanked (o : SpacedOption) : SpacedOption := { o with gap := blanks o.gap }

/-- An option whose argument can be read: it does not start with white space, has no blank and fits. -/
structure IsComplete (o : SpacedOption) : Prop where
  ne_nil : o.setting.argument ≠ []
  start : ∀ c ∈ o.setting.argument.head?, isBlank c = false
  solid : ' ' ∉ o.setting.argument
  fits : o.setting.argument.length ≤ maxArgument

/-- The argument ends where its gap begins: at a blank, or because no more fits. -/
def Ends (o : SpacedOption) : Prop :=
  o.setting.argument.length = maxArgument ∨ o.gap.head? ≠ some '\t'

/-- What is read beyond the argument when more follows it. -/
def runsOn (o : SpacedOption) (behind : Text) : Text :=
  ((o.gap ++ behind).take (maxArgument - o.setting.argument.length)).takeWhile (· ≠ ' ')

theorem IsComplete.scan {o : SpacedOption} (h : o.IsComplete) (behind : Text) :
    scan (o.text ++ behind) =
      let left := scan ((o.gap ++ behind).drop (o.runsOn behind).length)
      ⟨⟨o.setting.letter, o.setting.argument ++ o.runsOn behind⟩ :: left.settings,
        left.isComplete⟩ := by
  obtain ⟨⟨letter, argument⟩, gap⟩ := o
  obtain ⟨c, r, rfl⟩ := List.exists_cons_of_ne_nil h.ne_nil
  refine scan_setting (c := '-') rfl ?_
  have read := setting?_runsOn letter (h.start c rfl) h.solid h.fits (gap ++ behind)
  rw [← List.append_assoc] at read
  exact read

theorem runsOn_eq_nil_iff {o : SpacedOption} (h : o.IsComplete) (gap : IsGapText o.gap)
    {behind : Text} (apart : o.gap = [] → behind = []) : o.runsOn behind = [] ↔ o.Ends := by
  have fits := h.fits
  rw [runsOn, PresetText.runsOn_eq_nil_iff, Ends]
  refine or_congr (by omega) ?_
  cases gap_eq : o.gap with
  | nil => simp [apart gap_eq, EndsArgument]
  | cons c g =>
    have first := gap c (gap_eq ▸ List.mem_cons_self)
    rcases isGap_iff.mp first with rfl | rfl
    · simp [EndsArgument]
    · simp [EndsArgument]

end SpacedOption

def spread (lead : Text) (os : List SpacedOption) : Text := lead ++ os.flatMap SpacedOption.text

/-- Options stay apart if only the last one has no gap. -/
def Apart (os : List SpacedOption) : Prop := ∀ o ∈ os.dropLast, o.gap ≠ []

/-- A text is read as the options it was written with if and only if every argument ends in time. -/
theorem scan_spread_iff {lead : Text} {os : List SpacedOption} (lead_gap : IsGapText lead)
    (gaps : ∀ o ∈ os, IsGapText o.gap) (apart : Apart os) (complete : ∀ o ∈ os, o.IsComplete) :
    scan (spread lead os) = ⟨os.map SpacedOption.setting, true⟩ ↔ ∀ o ∈ os, o.Ends := by
  rw [spread, scan_gapText lead_gap]
  induction os with
  | nil => simp [scan_nil]
  | cons o r ih =>
    obtain ⟨gap, gaps⟩ := List.forall_mem_cons.mp gaps
    obtain ⟨first, rest⟩ := List.forall_mem_cons.mp complete
    have behind : o.gap = [] → r.flatMap SpacedOption.text = [] := by
      intro none
      cases r with
      | nil => rfl
      | cons => exact absurd none (apart o List.mem_cons_self)
    have apart_rest : Apart r := by
      intro x hx
      cases r with
      | nil => cases hx
      | cons => exact apart x (List.mem_cons_of_mem o hx)
    rw [List.flatMap_cons, first.scan, List.forall_mem_cons,
      ← SpacedOption.runsOn_eq_nil_iff first gap behind, ← ih gaps apart_rest rest, List.map_cons]
    constructor
    · intro same
      injection same with settings isComplete
      injection settings with setting settings
      have none : o.runsOn (r.flatMap SpacedOption.text) = [] :=
        List.append_right_eq_self.mp (congrArg Setting.argument setting)
      rw [none, List.length_nil, List.drop_zero, scan_gapText gap] at settings isComplete
      refine ⟨none, ?_⟩
      rw [← settings, ← isComplete]
    · rintro ⟨none, same⟩
      simp only [none, List.append_nil, List.length_nil, List.drop_zero, scan_gapText gap, same]

theorem isGapText_blanks (g : Text) : IsGapText (blanks g) := by
  intro c hc
  obtain ⟨-, -, rfl⟩ := List.mem_map.mp hc
  rfl

theorem SpacedOption.ends_blanked (o : SpacedOption) : o.blanked.Ends := by
  refine .inr ?_
  rw [blanked, blanks, List.head?_map]
  cases o.gap.head? with
  | none => exact (Option.some_ne_none _).symm
  | some c => simp

/-- With blanks alone a text is read as the options it was written with. -/
theorem scan_blanked (lead : Text) {os : List SpacedOption} (apart : Apart os)
    (complete : ∀ o ∈ os, o.IsComplete) :
    scan (spread (blanks lead) (os.map SpacedOption.blanked)) =
      ⟨os.map SpacedOption.setting, true⟩ := by
  have settings : (os.map SpacedOption.blanked).map SpacedOption.setting =
      os.map SpacedOption.setting := List.map_map
  rw [← settings, scan_spread_iff (isGapText_blanks lead)]
  · intro x hx
    obtain ⟨o, -, rfl⟩ := List.mem_map.mp hx
    exact o.ends_blanked
  · intro x hx
    obtain ⟨o, -, rfl⟩ := List.mem_map.mp hx
    exact isGapText_blanks o.gap
  · intro x hx
    rw [← List.map_dropLast] at hx
    obtain ⟨o, ho, rfl⟩ := List.mem_map.mp hx
    exact mt List.map_eq_nil_iff.mp (apart o ho)
  · intro x hx
    obtain ⟨o, ho, rfl⟩ := List.mem_map.mp hx
    obtain ⟨ne_nil, start, solid, fits⟩ := complete o ho
    exact ⟨ne_nil, start, solid, fits⟩

theorem Respaced.blanks_append {g s t : Text} (gap : IsGapText g) (follow : g.head? ≠ some '\t')
    (h : Respaced s t) : Respaced (g ++ s) (blanks g ++ t) := by
  cases g with
  | nil => exact h
  | cons c g =>
    obtain ⟨first, rest⟩ := List.forall_mem_cons.mp gap
    rcases isGap_iff.mp first with rfl | rfl
    · exact .gap rest (isGapText_blanks g) h
    · exact absurd rfl follow

/-- Behind arguments that are followed by a blank, or by nothing, all gaps are alike. -/
theorem respaced_blanked {os : List SpacedOption} (gaps : ∀ o ∈ os, IsGapText o.gap)
    (follow : ∀ o ∈ os, o.gap.head? ≠ some '\t') :
    Respaced (os.flatMap SpacedOption.text)
      ((os.map SpacedOption.blanked).flatMap SpacedOption.text) := by
  induction os with
  | nil => exact .nil
  | cons o r ih =>
    obtain ⟨gap, gaps⟩ := List.forall_mem_cons.mp gaps
    obtain ⟨first, follow⟩ := List.forall_mem_cons.mp follow
    have behind := (ih gaps follow).blanks_append gap first
    have option := behind.append_left ('-' :: o.setting.letter :: ' ' :: o.setting.argument)
    rw [← List.append_assoc, ← List.append_assoc] at option
    exact option

end PresetText

namespace Settings

open PresetText

/-- A conversion looks at the options of a preset text only. -/
theorem convert_eq_of_scan {s : Settings} {t : Text} (h : scan s.presets = scan t) :
    s.convert = { s with presets := t }.convert := by
  have drive : readPresets .empty s.presets = readPresets .empty t := by
    rw [readPresets, h, readPresets]
  have usb : readUsbType [] s.presets = readUsbType [] t := by
    rw [readUsbType, h, readUsbType]
  simp only [convert, drive, usb]

/-- Tabs in place of blanks make no difference to what options are converted to, their problems
included, where the gaps behind arguments begin with a blank. Options that can be read are read as they
were written if and only if no tab stands directly behind an argument that is not as long as it can be:
such a tab, with all up to the next blank, belongs to the argument. -/
theorem tabs_separate_behind_blanks {s : Settings} {lead : Text} {os : List SpacedOption}
    (lead_gap : IsGapText lead) (gaps : ∀ o ∈ os, IsGapText o.gap)
    (text : s.presets = spread lead os) :
    let blank : Settings :=
      { s with presets := spread (blanks lead) (os.map SpacedOption.blanked) }
    ((∀ o ∈ os, o.gap.head? ≠ some '\t') → s.convert = blank.convert) ∧
    (Apart os → (∀ o ∈ os, o.IsComplete) →
      scan blank.presets = ⟨os.map SpacedOption.setting, true⟩ ∧
      (scan s.presets = scan blank.presets ↔ ∀ o ∈ os, o.Ends) ∧
      ((∀ o ∈ os, o.Ends) → s.convert = blank.convert)) := by
  intro blank
  refine ⟨?_, ?_⟩
  · intro follow
    refine convert_eq_of_scan ?_
    rw [text, spread, spread, scan_gapText lead_gap, scan_gapText (isGapText_blanks lead)]
    exact (respaced_blanked gaps follow).scan_eq
  · intro apart complete
    have blank_read : scan blank.presets = ⟨os.map SpacedOption.setting, true⟩ :=
      scan_blanked lead apart complete
    have read_iff := scan_spread_iff lead_gap gaps apart complete
    rw [← text, ← blank_read] at read_iff
    exact ⟨blank_read, read_iff, fun ends => convert_eq_of_scan (read_iff.mpr ends)⟩

/-- Two definitions with a tab behind a blank between them, and a gap behind the second one. -/
def twoHours (last : Text) : List SpacedOption :=
  [⟨⟨'v', "9,min2hour,Hours"⟩, " \t"⟩, ⟨⟨'v', "240,raw48"⟩, last⟩]

theorem tabs_separate_behind_blanks_hours :
    ({ model := "A", presets := "\t-v 9,min2hour,Hours \t-v 240,raw48 " } : Settings).convert =
      ({ model := "A", presets := " -v 9,min2hour,Hours  -v 240,raw48 " } : Settings).convert ∧
    scan "\t-v 9,min2hour,Hours \t-v 240,raw48\t" ≠ scan " -v 9,min2hour,Hours  -v 240,raw48 " := by
  have lead_gap : IsGapText "\t" := by decide
  have gaps : ∀ o ∈ twoHours " ", IsGapText o.gap := by decide
  have gaps_tab : ∀ o ∈ twoHours "\t", IsGapText o.gap := by decide
  have good := tabs_separate_behind_blanks lead_gap gaps
    (s := { model := "A", presets := "\t-v 9,min2hour,Hours \t-v 240,raw48 " }) rfl
  have bad := tabs_separate_behind_blanks lead_gap gaps_tab
    (s := { model := "A", presets := "\t-v 9,min2hour,Hours \t-v 240,raw48\t" }) rfl
  have apart : Apart (twoHours "\t") := (by decide : ∀ o ∈ (twoHours "\t").dropLast, o.gap ≠ [])
  have complete : ∀ o ∈ twoHours "\t", o.IsComplete := by
    have first (c : Char) (h : c ∈ ("9,min2hour,Hours" : Text).head?) : isBlank c = false := by
      obtain rfl : '9' = c := Option.some.inj h
      rfl
    have second (c : Char) (h : c ∈ ("240,raw48" : Text).head?) : isBlank c = false := by
      obtain rfl : '2' = c := Option.some.inj h
      rfl
    simp only [twoHours, List.forall_mem_cons]
    exact ⟨⟨by decide, first, by decide, by decide⟩, ⟨by decide, second, by decide, by decide⟩,
      List.forall_mem_nil _⟩
  refine ⟨good.1 (by decide), ?_⟩
  intro same
  have ends := (bad.2 apart complete).2.1.mp same _ (List.mem_cons_of_mem _ List.mem_cons_self)
  rcases ends with full | blank
  · exact absurd full (by decide)
  · exact blank rfl

end Settings

end DriveHealth
