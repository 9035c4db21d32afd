import DriveHealth.Database.Listing
import DriveHealth.Proofs.Database.Conversion
import DriveHealth.Proofs.Text.Number
import Mathlib.Algebra.GroupWithZero.Nat

/-! What the listing of an entry says about its presets. The listing asks for the ids one by one while
the presets stand under decimal texts in the order of texts, so that nothing is left out only as long as
every key is the decimal text of an id. Definitions and defaults give no other keys. -/
namespace DriveHealth

namespace Presets

/-- What definitions and defaults make of no presets. -/
inductive Built : Presets → Prop where
  | empty : Built .empty
  | entered {p : Presets} (built : Built p) (key t : Text) : Built (p.enter key t).presets
  | withDefaults {p defaults : Presets} (built : Built p) (builtDefaults : Built defaults) :
    Built (p.withDefaults defaults)

theorem mem_iff_lookup {l : List (Text × Preset)} (ascending : l.Pairwise fun a b => a.1 < b.1)
    (key : Text) (preset : Preset) : (key, preset) ∈ l ↔ l.lookup key = some preset := by
  induction l with
  | nil => simp
  | cons e r ih =>
    obtain ⟨k, q⟩ := e
    obtain ⟨first, rest⟩ := List.pairwise_cons.mp ascending
    rw [List.mem_cons, List.lookup_cons]
    by_cases hk : key = k
    · subst key
      have fresh : (k, preset) ∉ r := fun h => List.lt_irrefl k (first _ h)
      simp [fresh, eq_comm]
    · simp [hk, beq_eq_false_iff_ne.mpr hk, ih rest]

theorem mem_entries_iff {p : Presets} {key : Text} {preset : Preset} :
    (key, preset) ∈ p.entries ↔ p.get? key = some preset :=
  mem_iff_lookup p.ascending key preset

/-- The keys with defaults are keys of one side or the other. -/
theorem keyed_withDefaults {p defaults : Presets} (h : p.Keyed) (hd : defaults.Keyed) :
    (p.withDefaults defaults).Keyed := by
  rintro ⟨key, preset⟩ he
  rw [mem_entries_iff, get_withDefaults] at he
  cases own : p.get? key with
  | some q => exact h (key, q) (mem_entries_iff.mpr own)
  | none =>
    rw [own] at he
    exact hd (key, preset) (mem_entries_iff.mpr he)

theorem Built.keyed {p : Presets} (h : p.Built) : p.Keyed := by
  induction h with
  | empty => exact keyed_empty
  | entered built key t ih =>
    rw [enter]
    cases hd : Definition.parse? t with
    | none => exact ih
    | some d => exact keyed_define ih hd
  | withDefaults built builtDefaults ih ihd => exact keyed_withDefaults ih ihd

theorem Built.define {p : Presets} (h : p.Built) {t : Text} {d : Definition}
    (hd : Definition.parse? t = some d) : (p.define d).Built := by
  have entered := h.entered [] t
  rw [enter, hd] at entered
  exact entered

theorem mem_byId_iff {p : Presets} {id : Nat} {preset : Preset} :
    (id, preset) ∈ p.byId ↔ 1 ≤ id ∧ id ≤ 255 ∧ p.get? (decimal id) = some preset := by
  simp only [byId, List.mem_filterMap, List.mem_range'_1, Option.map_eq_some_iff, Prod.mk.injEq]
  constructor
  · rintro ⟨i, ⟨positive, bound⟩, q, found, rfl, rfl⟩
    exact ⟨positive, by omega, found⟩
  · rintro ⟨positive, bound, found⟩
    exact ⟨id, ⟨positive, by omega⟩, preset, found, rfl, rfl⟩

theorem byId_ascending (p : Presets) : p.byId.Pairwise fun a b => a.1 < b.1 := by
  rw [byId, List.pairwise_filterMap]
  refine (List.pairwise_lt_range' 1).imp fun {i j} less a ha b hb => ?_
  obtain ⟨-, -, rfl⟩ := Option.map_eq_some_iff.mp ha
  obtain ⟨-, -, rfl⟩ := Option.map_eq_some_iff.mp hb
  exact less

/-- Under ids as keys the listing finds every preset, and each once. -/
theorem byId_perm {p : Presets} (h : p.Keyed) :
    (p.byId.map fun o => (decimal o.1, o.2)).Perm p.entries := by
  have distinct : (p.byId.map fun o => (decimal o.1, o.2)).Nodup := by
    rw [List.Nodup, List.pairwise_map]
    refine p.byId_ascending.imp fun {a b} less same => ?_
    exact Nat.ne_of_lt less (decimal_injective (Prod.mk.inj same).1)
  have distinctEntries : p.entries.Nodup := by
    refine p.ascending.imp fun {a b} less same => ?_
    rw [same] at less
    exact List.lt_irrefl b.1 less
  refine (List.perm_ext_iff_of_nodup distinct distinctEntries).mpr ?_
  rintro ⟨key, preset⟩
  rw [mem_entries_iff, List.mem_map]
  constructor
  · rintro ⟨⟨id, q⟩, found, same⟩
    obtain ⟨rfl, rfl⟩ := Prod.mk.inj same
    exact (mem_byId_iff.mp found).2.2
  · intro found
    obtain ⟨id, positive, bound, rfl⟩ := h _ (mem_entries_iff.mpr found)
    exact ⟨(id, preset), mem_byId_iff.mpr ⟨positive, bound, found⟩, rfl⟩

theorem byId_eq_nil_iff {p : Presets} (h : p.Keyed) : p.byId = [] ↔ p.entries = [] := by
  have lengths := (byId_perm h).length_eq
  rw [List.length_map] at lengths
  rw [← List.length_eq_zero_iff, ← List.length_eq_zero_iff, lengths]

end Presets

/-! ### Lines about presets -/

namespace Listing

open Line

/-- The line about one option. Only the first option has the title. -/
def optionLine (place : Nat) (o : Nat × Preset) : Line :=
  value (if place = 0 then "ATTRIBUTE OPTIONS:" else [])
    (decimalFill 3 o.1 ++ " " ++ padRight 23 (if o.2.name = [] then "-" else o.2.name) ++ " " ++
      o.2.rule.text)

def noOptions : Line := value "ATTRIBUTE OPTIONS:" "None preset; no -v options are required."

/-- The errors of one option; it may have both. -/
def complaints (p : Preset) : List Line :=
  (if 23 < p.name.length then [longName] else []) ++ (if p.rule.isKnown then [] else [unknownFormat])

/-- One line for each option in this order, with the errors of the option behind it. -/
def optionLines (options : List (Nat × Preset)) : List Line :=
  if options = [] then [noOptions]
  else options.zipIdx.flatMap fun o => optionLine o.2 o.1 :: complaints o.1.2

theorem preset_lines_eq (p : Preset) (id place : Nat) :
    p.lines (if place = 0 then "ATTRIBUTE OPTIONS:" else []) id =
      optionLine place (id, p) :: complaints p := by
  have name : orElse p.name "-" = if p.name = [] then "-".toList else p.name := by
    simp only [orElse, List.isEmpty_iff]
  rw [Preset.lines, name]
  rfl

/-- Behind the first option no line has a title. -/
theorem further_lines_eq (options : List (Nat × Preset)) (place : Nat) :
    ((options.zipIdx (place + 1)).flatMap fun o => optionLine o.2 o.1 :: complaints o.1.2) =
      options.flatMap fun (id, preset) => preset.lines [] id := by
  induction options generalizing place with
  | nil => rfl
  | cons o r ih =>
    rw [List.zipIdx_cons, List.flatMap_cons, List.flatMap_cons, ih]
    dsimp only
    rw [← preset_lines_eq, if_neg (Nat.succ_ne_zero place)]

theorem presets_lines_eq (p : Presets) : p.lines = optionLines p.byId := by
  rw [Presets.lines, optionLines]
  cases p.byId with
  | nil => rfl
  | cons o r =>
    rw [if_neg (List.cons_ne_nil o r), List.zipIdx_cons, List.flatMap_cons, further_lines_eq]
    dsimp only
    rw [← preset_lines_eq, if_pos rfl]

theorem errors_complaints (p : Preset) :
    errors (complaints p) =
      (if 23 < p.name.length then 1 else 0) + (if p.rule.isKnown then 0 else 1) := by
  rw [errors, complaints, List.countP_append]
  congr 1
  · split
    · rfl
    · rfl
  · split
    · rfl
    · rfl

theorem errors_append (a b : List Line) : errors (a ++ b) = errors a + errors b := List.countP_append

theorem errors_options (options : List (Nat × Preset)) (place : Nat) :
    errors ((options.zipIdx place).flatMap fun o => optionLine o.2 o.1 :: complaints o.1.2) =
      options.countP (fun o => 23 < o.2.name.length) + options.countP (fun o => !o.2.rule.isKnown) := by
  induction options generalizing place with
  | nil => rfl
  | cons o r ih =>
    have option : errors [optionLine place o] = 0 := rfl
    rw [List.zipIdx_cons, List.flatMap_cons, ← List.singleton_append, errors_append, errors_append, ih,
      option, errors_complaints, List.countP_cons, List.countP_cons]
    cases o.2.rule.isKnown with
    | true => simp; omega
    | false => simp; omega

theorem errors_optionLines (options : List (Nat × Preset)) :
    errors (optionLines options) =
      options.countP (fun o => 23 < o.2.name.length) + options.countP (fun o => !o.2.rule.isKnown) := by
  rw [optionLines]
  split
  · rename_i none
    rw [none]
    rfl
  · exact errors_options options 0

/-- No option line is the line for no options: it begins with the id. -/
theorem optionLine_ne_noOptions (place : Nat) (o : Nat × Preset) : optionLine place o ≠ noOptions := by
  intro same
  obtain ⟨-, texts⟩ := Line.value.inj same
  cases hd : decimalFill 3 o.1 with
  | nil => exact decimalFill_ne_nil 3 o.1 hd
  | cons c r =>
    have digit : c.isDigit = true := isDigit_of_mem_decimalFill (hd ▸ List.mem_cons_self)
    rw [hd] at texts
    have letter : c = 'N' := (List.cons.inj texts).1
    rw [letter] at digit
    exact absurd digit (by decide)

theorem noOptions_not_mem_complaints (p : Preset) : noOptions ∉ complaints p := by
  intro here
  rcases List.mem_append.mp here with here | here
  · split at here
    · cases List.mem_singleton.mp here
    · cases here
  · split at here
    · cases here
    · cases List.mem_singleton.mp here

theorem noOptions_mem_iff (options : List (Nat × Preset)) :
    noOptions ∈ optionLines options ↔ options = [] := by
  rw [optionLines]
  split
  · rename_i none
    exact iff_of_true List.mem_cons_self none
  · rename_i some
    refine iff_of_false (fun here => ?_) some
    obtain ⟨o, -, here⟩ := List.mem_flatMap.mp here
    rcases List.mem_cons.mp here with here | here
    · exact optionLine_ne_noOptions o.2 o.1 here.symm
    · exact noOptions_not_mem_complaints o.1.2 here

end Listing

/-! ### Entries and databases -/

namespace Entry

open Listing Line

/-- The expression for models is missing or bad. -/
def HasNoModel (e : Entry) : Prop := e.model.source = [] ∨ e.model.problem ≠ none

instance (e : Entry) : Decidable e.HasNoModel :=
  inferInstanceAs (Decidable (e.model.source = [] ∨ e.model.problem ≠ none))

/-- What the listing of an entry for drives says in front of its options. -/
def linesBefore (e : Entry) : List Line :=
  [value "MODEL REGEXP:" e.model.source] ++ (if e.HasNoModel then [badExpression] else []) ++
    [value "FIRMWARE REGEXP:" (if e.firmware.source = [] then ".*" else e.firmware.source),
     value "MODEL FAMILY:" e.family]

def linesBehind (e : Entry) : List Line := if e.warning = [] then [] else [value "WARNINGS:" e.warning]

theorem isEmpty_model_iff (e : Entry) : e.model.isEmpty = true ↔ e.HasNoModel := by
  rw [RegularExpression.isEmpty, HasNoModel, Bool.or_eq_true, List.isEmpty_iff, Option.isSome_iff_ne_none]

theorem lines_of_drive {e : Entry} (drive : Family.isUsb e.family = false) :
    e.lines = e.linesBefore ++ optionLines e.presets.byId ++ e.linesBehind := by
  have model : (if e.model.isEmpty then [badExpression] else []) =
      if e.HasNoModel then [badExpression] else [] := by
    simp only [isEmpty_model_iff]
  have firmware : orElse e.firmware.source ".*" =
      if e.firmware.source = [] then ".*".toList else e.firmware.source := by
    simp only [orElse, List.isEmpty_iff]
  have behind : (if e.warning.isEmpty then [] else [value "WARNINGS:" e.warning]) = e.linesBehind := by
    simp only [List.isEmpty_iff, linesBehind]
  rw [lines, drive, model, firmware, behind, if_neg Bool.false_ne_true, driveLines, presets_lines_eq]
  simp only [linesBefore, List.append_assoc, List.cons_append, List.nil_append]
  rfl

theorem errors_linesBefore (e : Entry) :
    Listing.errors e.linesBefore = if e.HasNoModel then 1 else 0 := by
  rw [linesBefore]
  split
  · rfl
  · rfl

theorem errors_linesBehind (e : Entry) : Listing.errors e.linesBehind = 0 := by
  rw [linesBehind]
  split
  · rfl
  · rfl

theorem noOptions_not_mem_before (e : Entry) : noOptions ∉ e.linesBefore := by
  rw [linesBefore]
  split
  · simp [noOptions]
  · simp [noOptions]

theorem noOptions_not_mem_behind (e : Entry) : noOptions ∉ e.linesBehind := by
  rw [linesBehind]
  split
  · simp
  · simp [noOptions]

end Entry

/-- The presets of a converted entry are among those the listing is complete for. -/
theorem Settings.convert_built (s : Settings) : s.convert.entry.presets.Built := by
  rw [convert]
  split
  · exact .empty
  · exact PresetText.applyToPresets_preserves .empty (PresetText.scan s.presets).settings
      fun built hd => built.define hd

open Listing Line

/-- What the listing of an entry for drives has to say, given the presets under their ids. -/
structure Entry.ListedExactly (e : Entry) (options : List (Nat × Preset)) : Prop where
  ascending : options.Pairwise fun a b => a.1 < b.1
  complete : (options.map fun o => (decimal o.1, o.2)).Perm e.presets.entries
  printed : e.listing = e.lines.flatMap Line.text
  lines : e.lines = e.linesBefore ++ optionLines options ++ e.linesBehind
  none_iff : noOptions ∈ e.lines ↔ e.presets.entries = []
  errors_printed : e.errors = e.lines.countP (· ∈ [badExpression, longName, unknownFormat])
  errors_exact : e.errors = (if e.HasNoModel then 1 else 0) +
    e.presets.entries.countP (fun x => 23 < x.2.name.length) +
    e.presets.entries.countP (fun x => !x.2.rule.isKnown)

theorem Line.isError_eq_decide (l : Line) :
    l.isError = decide (l ∈ [badExpression, longName, unknownFormat]) := by
  cases l with
  | value title text => simp [isError]
  | badExpression => rfl
  | longName => rfl
  | unknownFormat => rfl

theorem Entry.listedExactly {e : Entry} (drive : Family.isUsb e.family = false) (keyed : e.presets.Keyed) :
    e.ListedExactly e.presets.byId where
  ascending := e.presets.byId_ascending
  complete := Presets.byId_perm keyed
  printed := rfl
  lines := lines_of_drive drive
  none_iff := by
    rw [lines_of_drive drive, List.mem_append, List.mem_append, noOptions_mem_iff,
      Presets.byId_eq_nil_iff keyed]
    simp only [noOptions_not_mem_before, noOptions_not_mem_behind, false_or, or_false]
  errors_printed := List.countP_congr fun l _ => by rw [Line.isError_eq_decide]
  errors_exact := by
    have long := (Presets.byId_perm keyed).countP_eq fun x => decide (23 < x.2.name.length)
    have unknown := (Presets.byId_perm keyed).countP_eq fun x => !x.2.rule.isKnown
    rw [List.countP_map] at long unknown
    rw [errors, lines_of_drive drive, errors_append, errors_append, errors_linesBefore, errors_linesBehind,
      errors_optionLines, ← long, ← unknown, Nat.add_zero, ← Nat.add_assoc]
    rfl

namespace Database

theorem errors_eq_sum (db : Database) : db.errors = (db.entries.map Entry.errors).sum := by
  rw [errors, Listing.errors, List.countP_flatMap]
  rfl

def foundErrors (count : Nat) : Text := "Found " ++ decimal count ++ " syntax error(s) in database.\n"

/-- What a listing of all entries says in any case. -/
def listed (db : Database) : Text :=
  (db.entries.flatMap fun e => e.listing ++ "\n".toList) ++
    "Total number of entries  :" ++ padLeft 5 (decimal db.size) ++ "\n" ++
    "Entries read from file(s):" ++ padLeft 5 (decimal db.custom.length) ++ "\n\n"

theorem listing_eq (db : Database) :
    db.listing = db.listed ++ if 0 < db.errors then foundErrors db.errors else [] := rfl

theorem foundErrors_ends (count : Nat) :
    ∃ front : Text, foundErrors count = front ++ ".\n" :=
  ⟨"Found " ++ decimal count ++ " syntax error(s) in database", by
    rw [List.append_assoc]
    rfl⟩

theorem listed_ends (db : Database) : ∃ front : Text, db.listed = front ++ "\n\n" := ⟨_, rfl⟩

/-- Without errors a listing ends with an empty line. -/
theorem not_foundErrors_suffix (db : Database) (count : Nat) : ¬ foundErrors count <:+ db.listed := by
  rintro ⟨front, same⟩
  obtain ⟨sentence, found⟩ := foundErrors_ends count
  obtain ⟨totals, listed⟩ := listed_ends db
  rw [found, listed, ← List.append_assoc] at same
  have ends : ".\n".toList = "\n\n".toList := List.append_inj_right' same rfl
  exact absurd ends (by decide)

theorem foundErrors_suffix_iff (db : Database) : foundErrors db.errors <:+ db.listing ↔ 0 < db.errors := by
  rw [listing_eq]
  constructor
  · intro suffix
    by_contra none
    rw [if_neg none, List.append_nil] at suffix
    exact not_foundErrors_suffix db db.errors suffix
  · intro some
    rw [if_pos some]
    exact List.suffix_append db.listed (foundErrors db.errors)

/-- Defaults below definitions of the attributes 9 and 10, one of them with both errors. -/
def mistaken : Entry :=
  { family := "Example"
    presets := ((((Presets.empty.enter [] "10,raw48").presets.enter [] "9,minutes").presets.enter []
      "9,none,A_name_with_many_letters").presets).withDefaults
        (Presets.empty.enter [] "100,raw16,Written").presets }

theorem mistaken_built : mistaken.presets.Built :=
  .withDefaults (.entered (.entered (.entered .empty [] "10,raw48") [] "9,minutes") []
    "9,none,A_name_with_many_letters") (.entered .empty [] "100,raw16,Written")

end Database

end DriveHealth
