import DriveHealth.Attribute.Definition
/-!
Preset texts of database entries: options of one letter with an argument, separated by blanks. Entries
of drives have attribute definitions and the names of firmware bugs, entries of adapters have a type.
-/

namespace DriveHealth.PresetText

structure Setting where
  letter : Char
  argument : Text
  deriving DecidableEq, Repr

/-- The settings of a text up to the first place that is none. -/
structure Scan where
  settings : List Setting
  isComplete : Bool
  deriving DecidableEq, Repr

/-- Blanks and tabs stand between settings. -/
def isGap (c : Char) : Bool := c = ' ' || c = '\t'

def maxArgument : Nat := 80

/-- The setting at the start of a text and what follows it. Only a blank ends an argument, and a longer
argument is cut. -/
def setting? : Text → Option (Setting × Text)
  | '-' :: letter :: r =>
    let body := skipBlanks r
    let argument := (body.take maxArgument).takeWhile (· ≠ ' ')
    if argument.isEmpty then none else some (⟨letter, argument⟩, body.drop argument.length)
  | _ => none

theorem setting?_shorter {t r : Text} {s : Setting} (h : setting? t = some (s, r)) :
    r.length < t.length := by
  unfold setting? at h
  split at h
  · rename_i letter u
    have := length_skipBlanks_le u
    dsimp only at h
    split at h
    · cases h
    · cases h
      simp only [List.length_drop, List.length_cons]
      omega
  · cases h

def scan (t : Text) : Scan :=
  let body := t.dropWhile isGap
  if body.isEmpty then ⟨[], true⟩
  else
    match h : setting? body with
    | none => ⟨[], false⟩
    | some (s, r) =>
      have : r.length < t.length :=
        Nat.lt_of_lt_of_le (setting?_shorter h) (List.dropWhile_sublist isGap).length_le
      let rest := scan r
      ⟨s :: rest.settings, rest.isComplete⟩
termination_by t.length

/-- What settings made of a value, up to the first bad one. -/
structure Outcome (α : Type) where
  value : α
  doubtful : List Text := []
  isGood : Bool
  deriving DecidableEq, Repr

/-- Firmware bugs that an entry may name. They do not matter for attributes. -/
def firmwareBugs : List Text := ["none", "nologdir", "samsung", "samsung2", "samsung3", "xerrorlba"]

def applyToPresets (presets : Presets) : List Setting → Outcome Presets
  | [] => { value := presets, isGood := true }
  | s :: r =>
    if s.letter = 'v' then
      match Definition.parse? s.argument with
      | none => { value := presets, isGood := false }
      | some d =>
        let rest := applyToPresets (presets.define d) r
        { rest with
          doubtful := if d.preset.rule.isKnown then rest.doubtful else s.argument :: rest.doubtful }
    else if s.letter = 'F' ∧ s.argument ∈ firmwareBugs then applyToPresets presets r
    else { value := presets, isGood := false }

def applyToUsbType (usbType : Text) : List Setting → Outcome Text
  | [] => { value := usbType, isGood := true }
  | s :: r =>
    if s.letter = 'd' then applyToUsbType s.argument r
    else { value := usbType, isGood := false }

/-- Reads a preset text for drives on top of presets. -/
def readPresets (presets : Presets) (t : Text) : Outcome Presets :=
  let scan := scan t
  let outcome := applyToPresets presets scan.settings
  { outcome with isGood := outcome.isGood && scan.isComplete }

def readUsbType (usbType t : Text) : Outcome Text :=
  let scan := scan t
  let outcome := applyToUsbType usbType scan.settings
  { outcome with isGood := outcome.isGood && scan.isComplete }

end DriveHealth.PresetText
