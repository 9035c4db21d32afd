import DriveHealth.Database.Settings
import DriveHealth.Proofs.Attribute.DefinitionText
import DriveHealth.Proofs.Database.Conversion

/-! Preset texts that are written option by option. Reading such a text gives the definitions it was
written for, and in a collection the order in which they were written makes no difference. -/
namespace DriveHealth

/-! ### Scanning -/

namespace PresetText

/-- One step of a scan. -/
theorem scan_eq (t : Text) :
    scan t =
      if (t.dropWhile isGap).isEmpty then ⟨[], true⟩
      else match setting? (t.dropWhile isGap) with
        | none => ⟨[], false⟩
        | some (s, r) => ⟨s :: (scan r).settings, (scan r).isComplete⟩ := by
  rw [scan]
  simp only
  split
  · rfl
  · split <;> rename_i h <;> simp only [h]

theorem scan_nil : scan [] = ⟨[], true⟩ := by
  rw [scan_eq]
  rfl

theorem scan_gap {c : Char} (h : isGap c = true) (t : Text) : scan (c :: t) = scan t := by
  rw [scan_eq, List.dropWhile_cons_of_pos h, ← scan_eq]

theorem scan_setting {c : Char} {t r : Text} {s : Setting} (solid : isGap c = false)
    (h : setting? (c :: t) = some (s, r)) :
    scan (c :: t) = ⟨s :: (scan r).settings, (scan r).isComplete⟩ := by
  rw [scan_eq, List.dropWhile_cons_of_neg (ne_true_of_eq_false solid), h]
  rfl

/-- The end of an argument: the end of the text or a blank. -/
def EndsArgument (r : Text) : Prop := ∀ c ∈ r.head?, c = ' '

theorem runsOn_eq_nil_iff {r : Text} {n : Nat} :
    (r.take n).takeWhile (· ≠ ' ') = [] ↔ n = 0 ∨ EndsArgument r := by
  cases n with
  | zero => simp
  | succ n =>
    cases r with
    | nil => simp [EndsArgument]
    | cons c r => simp [EndsArgument, List.takeWhile_cons]

/-- An argument runs on up to the next blank, as far as it fits. -/
theorem setting?_runsOn (letter : Char) {c : Char} {argument : Text} (start : isBlank c = false)
    (solid : ' ' ∉ c :: argument) (fits : (c :: argument).length ≤ maxArgument) (r : Text) :
    let more := (r.take (maxArgument - (c :: argument).length)).takeWhile (· ≠ ' ')
    setting? ('-' :: letter :: ' ' :: (c :: argument ++ r)) =
      some (⟨letter, c :: argument ++ more⟩, r.drop more.length) := by
  intro more
  have body : skipBlanks (' ' :: (c :: argument ++ r)) = c :: argument ++ r := by
    rw [skipBlanks, List.dropWhile_cons_of_pos rfl, List.cons_append,
      List.dropWhile_cons_of_neg (ne_true_of_eq_false start)]
  have inside : ∀ d ∈ c :: argument, decide (d ≠ ' ') = true := by
    intro d hd
    refine decide_eq_true ?_
    rintro rfl
    exact solid hd
  have taken : ((c :: argument ++ r).take maxArgument).takeWhile (· ≠ ' ') =
      c :: argument ++ more := by
    rw [List.take_append, List.take_of_length_le fits, List.takeWhile_append_of_pos inside]
  have left : (c :: argument ++ r).drop (c :: argument ++ more).length = r.drop more.length := by
    rw [List.length_append, ← List.drop_drop, List.drop_left]
  rw [setting?]
  simp only [body, taken, left]
  rfl

/-- An argument is read whole if it fits and starts with no blank. -/
theorem setting?_option {letter c : Char} {argument r : Text} (start : isBlank c = false)
    (solid : ' ' ∉ c :: argument) (fits : (c :: argument).length ≤ maxArgument)
    (ends : EndsArgument r) :
    setting? ('-' :: letter :: ' ' :: (c :: argument ++ r)) =
      some (⟨letter, c :: argument⟩, r) := by
  have read := setting?_runsOn letter start solid fits r
  simp only [runsOn_eq_nil_iff.mpr (.inr ends), List.append_nil, List.length_nil, List.drop_zero] at read
  exact read

/-! ### Writing -/

/-- The option that enters a definition. -/
def option (d : Definition) : Text := "-v " ++ d.text

/-- Texts with one option for each definition in a row. At least one blank stands between two options,
and any number of blanks in front of the first and behind the last. -/
inductive Written : List Definition → Text → Prop where
  | nil : Written [] []
  | blank {ds t} : Written ds t → Written ds (' ' :: t)
  | last (d) : Written [d] (option d)
  | option (d) {ds t} : Written ds t → Written (d :: ds) (option d ++ ' ' :: t)

def settingOf (d : Definition) : Setting := ⟨'v', d.text⟩

theorem scan_option {d : Definition} (h : d.IsWritable) {r : Text} (ends : EndsArgument r) :
    scan (option d ++ r) = ⟨settingOf d :: (scan r).settings, (scan r).isComplete⟩ := by
  obtain ⟨c, digits, key⟩ := List.exists_cons_of_ne_nil (decimal_ne_nil d.id.toNat)
  have digit : c.isDigit = true := isDigit_of_mem_decimal (n := d.id.toNat) (key ▸ List.mem_cons_self)
  have text : d.text = c :: (digits ++ ',' :: (d.preset.rule.text ++
      onlyIf (d.preset.name ≠ []) (',' :: d.preset.name))) := by
    rw [Definition.text, Definition.key, key, List.cons_append]
  have fits : d.text.length ≤ maxArgument := Nat.le_trans h.length_text_le (by decide)
  have solid := h.no_blank
  refine scan_setting (c := '-') rfl ?_
  rw [settingOf]
  rw [text] at fits solid ⊢
  exact setting?_option (not_isBlank_of_isDigit digit) solid fits ends

theorem Written.scan {ds : List Definition} {t : Text} (w : Written ds t)
    (h : ∀ d ∈ ds, d.IsWritable) : scan t = ⟨ds.map settingOf, true⟩ := by
  induction w with
  | nil => exact scan_nil
  | blank _ ih => rw [scan_gap rfl, ih h]
  | last d =>
    have ends : EndsArgument [] := fun c hc => absurd hc (Option.not_mem_none c)
    have alone := scan_option (h d List.mem_cons_self) ends
    rw [List.append_nil, scan_nil] at alone
    exact alone
  | option d _ ih =>
    obtain ⟨first, rest⟩ := List.forall_mem_cons.mp h
    rw [scan_option first fun c hc => (Option.mem_some.mp hc).symm, scan_gap rfl, ih rest]
    rfl

theorem applyToPresets_settings (p : Presets) {ds : List Definition}
    (h : ∀ d ∈ ds, d.IsWritable) :
    applyToPresets p (ds.map settingOf) = { value := ds.foldl Presets.define p, isGood := true } := by
  induction ds generalizing p with
  | nil => rfl
  | cons d ds ih =>
    obtain ⟨first, rest⟩ := List.forall_mem_cons.mp h
    rw [List.map_cons, applyToPresets]
    simp only [settingOf, if_true, first.parse?_text, first.known]
    exact ih (p.define d) rest

theorem Written.readPresets {ds : List Definition} {t : Text} (w : Written ds t)
    (h : ∀ d ∈ ds, d.IsWritable) (p : Presets) :
    readPresets p t = { value := ds.foldl Presets.define p, isGood := true } := by
  rw [PresetText.readPresets, w.scan h]
  simp only [applyToPresets_settings p h]
  rfl

end PresetText

namespace Settings

/-- With presets that are good and have known rules, all that can be wrong are the expressions. -/
theorem convert_of_readPresets {s : Settings} (drive : Family.isUsb s.family = false)
    (model : s.ModelCompiles) {p : Presets}
    (h : PresetText.readPresets .empty s.presets = { value := p, isGood := true }) :
    s.convert.entry.presets = p ∧ s.convert.problems = expressionProblem (expression s.firmware) := by
  obtain ⟨model_ne_nil, good⟩ := model
  have no_problem : expressionProblem (expression s.model) = [] := by
    rw [expression_of_ne_nil model_ne_nil, expressionProblem, good]
    rfl
  rw [convert, if_neg (ne_true_of_eq_false drive), h]
  refine ⟨rfl, ?_⟩
  simp [model_ne_nil, no_problem]

/-- Presets come back from the text that they were written as, in whatever order and with whatever
blanks between them, and nothing is reported about them. -/
theorem written_presets_read_back {ds : List Definition} {s : Settings}
    (distinct : (ds.map Definition.id).Nodup) (writable : ∀ d ∈ ds, d.IsWritable)
    (written : PresetText.Written ds s.presets) (drive : Family.isUsb s.family = false)
    (model : s.ModelCompiles) :
    s.convert.entry.presets.entries.Perm (ds.map fun d => (d.key, d.preset)) ∧
    s.convert.problems = expressionProblem (expression s.firmware) ∧
    ((expression s.firmware).problem = none →
      s.convert.isGood = true ∧ ∀ location, s.convert.messages location = []) := by
  have read := written.readPresets writable .empty
  obtain ⟨presets, problems⟩ := convert_of_readPresets drive model read
  refine ⟨?_, problems, ?_⟩
  · rw [presets]
    have fresh : ∀ d ∈ ds, d.key ∉ Presets.empty.entries.map Prod.fst := fun _ _ => List.not_mem_nil
    exact Definition.foldl_define_perm (Definition.keys_nodup distinct) .empty fresh
  · intro firmware
    have none : s.convert.problems = [] := by
      rw [problems, expressionProblem, firmware]
      rfl
    refine ⟨?_, fun location => ?_⟩
    · rw [Conversion.isGood, none]
      rfl
    · rw [Conversion.messages, none]
      rfl

/-- Three attributes, not in the order of their ids and with different gaps. -/
def threePresets : List Definition :=
  [⟨194, { rule := .known .tempminmax none }⟩,
   ⟨9, { rule := .known .min2hour none, name := "Power_On_Minutes" }⟩,
   ⟨10, { rule := .known .raw48 (some [.worst, .current]), name := "Retries" }⟩]

def threeSettings : Settings where
  family := "A"
  model := "A1"
  presets := "  -v 194,tempminmax -v 9,min2hour,Power_On_Minutes   -v 10,raw48:wv,Retries "

theorem written_presets_read_back_three :
    (threePresets.map Definition.id).Nodup ∧ (∀ d ∈ threePresets, d.IsWritable) ∧
    PresetText.Written threePresets threeSettings.presets ∧
    Family.isUsb threeSettings.family = false ∧ threeSettings.ModelCompiles ∧
    threeSettings.convert.entry.presets.entries.Perm
      (threePresets.map fun d => (d.key, d.preset)) ∧
    threeSettings.convert.problems = [] := by
  have distinct : (threePresets.map Definition.id).Nodup := by decide
  have writable : ∀ d ∈ threePresets, d.IsWritable := by
    simp only [threePresets, List.forall_mem_cons]
    refine ⟨⟨by decide, rfl, ⟨"tempminmax", by decide +kernel⟩, ⟨by decide, by decide, by decide⟩⟩,
      ⟨by decide, rfl, ⟨"min2hour", by decide +kernel⟩, ⟨by decide, by decide, by decide⟩⟩,
      ⟨by decide, rfl, ⟨"raw48:wv", by decide +kernel⟩, ⟨by decide, by decide, by decide⟩⟩,
      List.forall_mem_nil _⟩
  have written : PresetText.Written threePresets threeSettings.presets :=
    .blank (.blank (.option _ (.option _ (.blank (.blank (.option _ .nil))))))
  have drive : Family.isUsb threeSettings.family = false := by decide
  have model : threeSettings.ModelCompiles := by decide +kernel
  obtain ⟨presets, problems, -⟩ :=
    written_presets_read_back distinct writable written drive model
  exact ⟨distinct, writable, written, drive, model, presets, problems⟩

end Settings

end DriveHealth
