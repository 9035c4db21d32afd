import DriveHealth.File.Tree
import DriveHealth.Proofs.CommandLine.Endings
import DriveHealth.Proofs.Database.FirstMatch
import Mathlib.Data.List.ReduceOption

/-! Which rule and which name an attribute has in a whole run. Definitions of the user, the entry that
describes the model and the defaults in front of it are overwritten by each other in three places; what
comes out of them is the first rule there is, and the first name that is not empty. -/
namespace DriveHealth

namespace Preset

/-- What an attribute gets from sources in their order: the first rule that is defined, and the first
name that is not empty. -/
def decided (sources : List (Option Preset)) : Preset where
  rule := (sources.reduceOption.head?.map Preset.rule).getD .none
  name := ((sources.reduceOption.map Preset.name).find? (· ≠ [])).getD []

theorem decided_none_cons (sources : List (Option Preset)) :
    decided (none :: sources) = decided sources := by
  rw [decided, decided, List.reduceOption_cons_of_none]

theorem decided_some_cons (p : Preset) (sources : List (Option Preset)) :
    decided (some p :: sources) = p.orName (decided sources) := by
  rw [decided, orName, List.reduceOption_cons_of_some, List.map_cons]
  by_cases h : p.name = []
  · rw [List.find?_cons_of_neg (by simpa using h)]
    simp [h, decided]
  · rw [List.find?_cons_of_pos (by simpa using h)]
    simp [h]

theorem decided_nil : decided [] = {} := rfl

theorem orName_empty (p : Preset) : p.orName {} = p := by
  obtain ⟨rule, name⟩ := p
  cases name with
  | nil => rfl
  | cons c r => rfl

theorem decided_merged (own base : Option Preset) :
    (Presets.merged own base).getD {} = decided [own, base] := by
  cases own with
  | none =>
    rw [decided_none_cons]
    cases base with
    | none => rfl
    | some base =>
      rw [decided_some_cons, decided_nil, orName_empty]
      rfl
  | some own =>
    rw [decided_some_cons]
    cases base with
    | none =>
      rw [decided_none_cons, decided_nil, orName_empty]
      rfl
    | some base =>
      rw [decided_some_cons, decided_nil, orName_empty]
      simp [Presets.merged, orName]

end Preset

theorem Presets.ofId_overriddenBy {p : Presets} {id : UInt8} {own base : Option Preset}
    (h : p.get? (decimal id.toNat) = merged own base) (user : Presets) :
    (p.overriddenBy user).ofId id = Preset.decided [user.get? (decimal id.toNat), own, base] := by
  rw [ofId, get_overriddenBy, h, Preset.decided_merged]
  cases user.get? (decimal id.toNat) with
  | none => rw [Option.map_none, Option.none_or, Preset.decided_merged, Preset.decided_none_cons]
  | some preset => rw [Option.map_some, Option.some_or, Option.getD_some, Preset.decided_some_cons]

namespace Database

/-- What a database knows about an attribute of a model: the preset of the first entry that answers
and that of the last defaults in front of it, or else that of the last defaults of all. -/
inductive Knows (db : Database) (model key : Text) : Option Preset → Option Preset → Prop where
  | matched {i e} : FirstMatch db model i e →
      Knows db model key (e.presets.get? key) ((db.baseline i).get? key)
  | unmatched : (∀ e ∈ db.entries, ¬ Answers e model) →
      Knows db model key none ((db.baseline db.entries.length).get? key)

theorem FirstMatch.lookup_presets {db : Database} {model : Text} {i : Nat} {e : Entry}
    (first : FirstMatch db model i e) (key : Text) :
    (db.lookup model).entry.presets.get? key =
      Presets.merged (e.presets.get? key) ((db.baseline i).get? key) := by
  rw [lookup, first.search_eq, baseline]
  cases lastDefault (db.entries.take i) with
  | none => exact (Presets.merged_none _).symm
  | some d => exact Presets.get_withDefaults e.presets d.presets key

theorem lookup_presets_of_none {db : Database} {model : Text}
    (h : ∀ e ∈ db.entries, ¬ Answers e model) :
    (db.lookup model).entry.presets = db.baseline db.entries.length := by
  have hs := search_skips h none 0 []
  rw [List.append_nil, Option.or_none] at hs
  rw [lookup, hs, baseline, List.take_length]
  cases lastDefault db.entries with
  | none => rfl
  | some d => rfl

/-- A look-up merges what the database knows. -/
theorem exists_knows (db : Database) (model key : Text) :
    ∃ own base, Knows db model key own base ∧
      (db.lookup model).entry.presets.get? key = Presets.merged own base := by
  by_cases h : ∃ e ∈ db.entries, Answers e model
  · obtain ⟨f, hf, answers⟩ := h
    obtain ⟨i, e, first⟩ := exists_first_match hf answers
    exact ⟨_, _, .matched first, first.lookup_presets key⟩
  · push Not at h
    refine ⟨none, _, .unmatched h, ?_⟩
    rw [lookup_presets_of_none h]
    rfl

end Database

namespace CommandLine

/-! ### Definitions of the user -/

/-- The preset of the last definition of an attribute. -/
def lastDefinition (definitions : List Text) (id : UInt8) : Option Preset :=
  ((definitions.filterMap Definition.parse?).filter (·.id = id)).getLast?.map Definition.preset

theorem lastDefinition_cons {t : Text} {d : Definition} (h : Definition.parse? t = some d)
    (r : List Text) (id : UInt8) :
    lastDefinition (t :: r) id =
      (lastDefinition r id).or (if d.id = id then some d.preset else none) := by
  rw [lastDefinition, lastDefinition, List.filterMap_cons_some h]
  by_cases hd : d.id = id
  · rw [List.filter_cons_of_pos (by simpa using hd), List.getLast?_cons, if_pos hd]
    cases ((r.filterMap Definition.parse?).filter (·.id = id)).getLast? with
    | none => rfl
    | some e => rfl
  · rw [List.filter_cons_of_neg (by simpa using hd), if_neg hd, Option.or_none]

/-- Of all definitions of an attribute the user's presets keep the last one. -/
theorem userPresets_get {definitions : List Text} {p user : Presets}
    (h : userPresets p definitions = .ok user) (id : UInt8) :
    user.get? (decimal id.toNat) =
      (lastDefinition definitions id).or (p.get? (decimal id.toNat)) := by
  induction definitions generalizing p with
  | nil =>
    cases h
    rfl
  | cons t r ih =>
    rw [userPresets] at h
    cases hd : Definition.parse? t with
    | none => simp [hd] at h
    | some d =>
      simp only [hd] at h
      split at h
      · rw [ih h, lastDefinition_cons hd, Option.or_assoc, Presets.define, Presets.get_insert]
        have same : decimal id.toNat = d.key ↔ d.id = id :=
          ⟨fun hk => (UInt8.toNat_inj.mp (decimal_injective hk)).symm, fun hk => by rw [← hk]; rfl⟩
        by_cases hk : d.id = id
        · rw [if_pos (same.mpr hk), if_pos hk, Option.some_or]
        · rw [if_neg (mt same.mp hk), if_neg hk, Option.none_or]
      · cases h

/-! ### Options with and without definitions -/

/-- The definitions among the arguments, in their order. -/
def definitionsOf : List Text → List Text
  | ['-', 'a'] :: r => definitionsOf r
  | ['-', letter] :: argument :: r =>
    if letter = 'v' then argument :: definitionsOf r else definitionsOf r
  | _ => []

/-- The arguments that are left when definitions are taken out. -/
def withoutDefinitions : List Text → List Text
  | ['-', 'a'] :: r => ['-', 'a'] :: withoutDefinitions r
  | ['-', letter] :: argument :: r =>
    if letter = 'v' then withoutDefinitions r
    else ['-', letter] :: argument :: withoutDefinitions r
  | operands => operands

def Options.defining (o : Options) (definitions : List Text) : Options :=
  { o with definitions := definitions }

/-- No option but `-v` looks at the definitions. -/
theorem set_defining {letter : Char} (hl : letter ≠ 'v') (o : Options) (argument : Text)
    (definitions : List Text) :
    (o.defining definitions).set? letter argument =
      (o.set? letter argument).map (·.defining definitions) := by
  unfold Options.set?
  split
  case h_4 => exact absurd rfl hl
  all_goals simp only [Options.defining, apply_ite (Option.map _), Option.map_some, Option.map_none]
  case h_2 | h_3 => rfl

theorem set_definitions {o o' : Options} {letter : Char} {argument : Text} (hl : letter ≠ 'v')
    (h : o.set? letter argument = some o') : o'.definitions = o.definitions := by
  have same : o.set? letter argument = (o.set? letter argument).map (·.defining o.definitions) :=
    set_defining hl o argument o.definitions
  rw [h, Option.map_some] at same
  rw [Option.some.inj same]
  rfl

theorem parse_run {arguments operands : List Text} {o o' : Options}
    (h : o.parse arguments = .run o' operands) :
    o'.definitions = o.definitions ++ definitionsOf arguments ∧ ∀ definitions,
      (o.defining definitions).parse (withoutDefinitions arguments) =
        .run (o'.defining definitions) operands := by
  fun_induction Options.parse o arguments with
  | case1 o r ih =>
    obtain ⟨defined, same⟩ := ih h
    exact ⟨defined, same⟩
  | case2 | case3 | case4 | case6 | case7 => cases h
  | case5 o letter argument r notAll notHelp notRelease notList o₁ hs ih =>
    obtain ⟨defined, same⟩ := ih h
    rw [definitionsOf, withoutDefinitions]
    · by_cases hl : letter = 'v'
      · subst hl
        cases hs
        rw [if_pos rfl, if_pos rfl]
        refine ⟨?_, fun definitions => same definitions⟩
        rw [defined, List.append_assoc]
        rfl
      · rw [if_neg hl, if_neg hl]
        refine ⟨by rw [defined, set_definitions hl hs], fun definitions => ?_⟩
        rw [Options.parse, set_defining hl, hs]
        · exact same definitions
        · exact notAll
        · exact notHelp
        · exact notRelease
        · exact fun hv => absurd hv hl
    · exact notAll
    · exact notAll
  | case8 o rest notAll notHelp notRelease notList notOption notDashed =>
    cases h
    rw [definitionsOf, withoutDefinitions, List.append_nil]
    · refine ⟨rfl, fun definitions => ?_⟩
      rw [Options.parse]
      all_goals assumption
    all_goals assumption

/-! ### Whole runs -/

variable {fs : FileSystem} {o : Options} {path : Text} {user : Presets} {d : Drive}
  {r : SmartPage.Reading}

theorem PrintsTable.output (h : PrintsTable fs o path user d r) :
    ((Request.run o [path]).output fs).status = .success ∧
      ((Request.run o [path]).output fs).report =
        smartReport o user d ((loading o fs).database.lookup d.model) r.page := by
  obtain ⟨bytes, hb, hr⟩ := h.page
  have loaded : Database.addSource {} fs (.ofArgument o.database) = loading o fs := rfl
  have good : (loading o fs).isGood = true := h.database
  simp [Request.output, h.isAta, attributeOutput, h.definitions, loaded, loading_fault, good,
    databaseOutput, h.listsNothing, h.drive, driveOutput, smartOutput, hb, hr, Output.behind]

/-- Without definitions everything but the user's presets stays as it was. -/
theorem PrintsTable.undefined (h : PrintsTable fs o path user d r) :
    PrintsTable fs (o.defining []) path .empty d r :=
  ⟨h.isAta, h.listsNothing, rfl, h.database, h.drive, h.page⟩

/-- What a run that prints the attributes of a page takes for an attribute: the rule and the name that
its last definition, the entry for the model and the defaults in front of that entry decide on.
Attributes without a definition are printed as if nothing was defined. -/
theorem rule_precedence {arguments : List Text}
    (request : Request.ofArguments arguments = .run o [path]) (h : PrintsTable fs o path user d r) :
    ∃ (start : Text) (presets plain : Presets),
      (run arguments fs).status = .success ∧
      (run arguments fs).report = start ++ r.page.table presets o.style ∧
      (run (withoutDefinitions arguments) fs).status = .success ∧
      (run (withoutDefinitions arguments) fs).report = start ++ r.page.table plain o.style ∧
      ∀ id : UInt8, ∃ own base,
        (loading o fs).database.Knows d.model (decimal id.toNat) own base ∧
        presets.ofId id =
          .decided [lastDefinition (definitionsOf arguments) id, own, base] ∧
        plain.ofId id = .decided [own, base] ∧
        (lastDefinition (definitionsOf arguments) id = none → presets.ofId id = plain.ofId id) := by
  obtain ⟨defined, parsed⟩ := parse_run request
  have withoutRequest : Request.ofArguments (withoutDefinitions arguments) =
      .run (o.defining []) [path] := parsed []
  obtain ⟨status, report⟩ := h.output
  obtain ⟨plainStatus, plainReport⟩ := h.undefined.output
  let found := (loading o fs).database.lookup d.model
  refine ⟨onlyIf o.namesDrive (DriveInfo.text ⟨d.page, d.model, found.entry, found.isMatch⟩ ++ "\n"),
    found.entry.presets.overriddenBy user, found.entry.presets.overriddenBy .empty, ?_, ?_, ?_, ?_, ?_⟩
  · rw [run, request, status]
  · rw [run, request, report]
    rfl
  · rw [run, withoutRequest, plainStatus]
  · rw [run, withoutRequest, plainReport]
    rfl
  · intro id
    obtain ⟨own, base, knows, merged⟩ :=
      (loading o fs).database.exists_knows d.model (decimal id.toNat)
    have users : user.get? (decimal id.toNat) = lastDefinition (definitionsOf arguments) id := by
      rw [userPresets_get h.definitions, defined]
      exact Option.or_none
    have overridden := Presets.ofId_overriddenBy merged user
    have plain := Presets.ofId_overriddenBy merged .empty
    rw [users] at overridden
    refine ⟨own, base, knows, overridden, ?_, ?_⟩
    · rw [plain]
      exact Preset.decided_none_cons _
    · intro undefined
      rw [overridden, plain, undefined]
      rfl

/-- A page with a record of the attribute 9. -/
def hoursPage : Text := ['\x10', '\x00', '\x09'] ++ List.replicate 359 '\x00'

/-- Defaults with a name for the attribute 9 and an entry with a rule for it. -/
def hoursFiles : FileSystem := FileTree.fileSystem <| .ofList
  [("d", "\x7b \"DEFAULT\", \"-\", \"\", \"\", \"-v 9,raw8,Hours\" \x7d,\n" ++
    "\x7b \"A\", \"A1\", \"\", \"\", \"-v 9,hex48\" \x7d"),
   ("p", hoursPage)]

def hoursArguments : List Text :=
  ["-B", "d", "-v", "9,sec2hour,Seconds", "-m", "A1", "-v", "9,min2hour", "p"]

def hoursOptions : Options where
  database := some "d"
  model := some "A1"
  definitions := ["9,sec2hour,Seconds", "9,min2hour"]

theorem rule_precedence_hours :
    ∃ (user : Presets) (r : SmartPage.Reading),
      Request.ofArguments hoursArguments = .run hoursOptions ["p"] ∧
      PrintsTable hoursFiles hoursOptions "p" user { model := "A1" } r ∧
      lastDefinition (definitionsOf hoursArguments) 9 = some { rule := .parse "min2hour" } ∧
      ∃ (start : Text) (presets : Presets),
        (run hoursArguments hoursFiles).report = start ++ r.page.table presets {} ∧
        ∃ own base, (loading hoursOptions hoursFiles).database.Knows "A1" "9" own base ∧
          presets.ofId 9 = .decided [some { rule := .parse "min2hour" }, own, base] := by
  have request : Request.ofArguments hoursArguments = .run hoursOptions ["p"] := by decide +kernel
  have last : lastDefinition (definitionsOf hoursArguments) 9 =
      some { rule := .parse "min2hour" } := by decide +kernel
  have good : (loading hoursOptions hoursFiles).isGood = true := by decide +kernel
  have filled : hoursFiles.data "p" SmartPage.size = .ok (bytesOfText hoursPage) := by
    decide +kernel
  have defined : (userPresets .empty hoursOptions.definitions).toBool = true := by decide +kernel
  obtain ⟨user, users⟩ : ∃ user, userPresets .empty hoursOptions.definitions = .ok user := by
    cases h : userPresets .empty hoursOptions.definitions with
    | ok user => exact ⟨user, rfl⟩
    | error e =>
      rw [h] at defined
      cases defined
  obtain ⟨r, page⟩ : ∃ r, SmartPage.read .host (bytesOfText hoursPage) = .ok r := by
    rw [SmartPage.read, if_neg (by decide +kernel)]
    exact ⟨_, rfl⟩
  have prints : PrintsTable hoursFiles hoursOptions "p" user { model := "A1" } r :=
    ⟨rfl, rfl, users, good, rfl, _, filled, page⟩
  obtain ⟨start, presets, plain, -, report, -, -, decided⟩ := rule_precedence request prints
  obtain ⟨own, base, knows, nine, -⟩ := decided 9
  rw [last] at nine
  exact ⟨user, r, request, prints, last, start, presets, report, own, base, knows, nine⟩

end CommandLine

end DriveHealth
