import DriveHealth.Attribute.Preset
/-!
Attribute definitions as users and databases write them: `ID,RULE` or `ID,RULE,NAME`. Some old
spellings stand for such definitions.
-/

namespace DriveHealth

structure Definition where
  id : UInt8
  preset : Preset
  deriving DecidableEq, Repr

namespace Definition

/-- Old spellings and the definitions they stand for. -/
def oldSpellings : List (Text × Text) :=
  [("9,halfminutes", "9,halfmin2hour,Power_On_Half_Minutes"),
   ("9,minutes", "9,min2hour,Power_On_Minutes"),
   ("9,seconds", "9,sec2hour,Power_On_Seconds"),
   ("9,temp", "9,tempminmax,Temperature_Celsius"),
   ("192,emergencyretractcyclect", "192,raw48,Emerg_Retract_Cycle_Ct"),
   ("193,loadunload", "193,raw24/raw24"),
   ("194,10xCelsius", "194,temp10x,Temperature_Celsius_x10"),
   ("194,unknown", "194,raw48,Unknown_Attribute"),
   ("197,increasing", "197,raw48,Total_Pending_Sectors"),
   ("198,offlinescanuncsectorct", "198,raw48,Offline_Scan_UNC_SectCt"),
   ("198,increasing", "198,raw48,Total_Offl_Uncorrectabl"),
   ("200,writeerrorcount", "200,raw48,Write_Error_Count"),
   ("201,detectedtacount", "201,raw48,Detected_TA_Count"),
   ("220,temp", "220,tempminmax,Temperature_Celsius")]

def expand (t : Text) : Text := (oldSpellings.lookup t).getD t

def maxField : Nat := 32

def isField (t : Text) : Bool := 1 ≤ t.length && t.length ≤ maxField

def parsePreset? (t : Text) : Option Preset :=
  match cutAt ',' t with
  | (rule, none) => if isField rule then some ⟨.parse rule, []⟩ else none
  | (rule, some name) =>
    if isField rule && isField name && !name.contains ',' then some ⟨.parse rule, name⟩ else none

/-- Reads a definition. Every rule is taken, known or not; an id is at most 255 and not zero. -/
def parse? (t : Text) : Option Definition :=
  match scanInteger (expand t) with
  | some (id, ',' :: r) =>
    if 1 ≤ id ∧ id ≤ 255 then (parsePreset? r).map fun preset => ⟨id.toNat.toUInt8, preset⟩ else none
  | _ => none

def key (d : Definition) : Text := decimal d.id.toNat

/-- The ways to write a definition, one a line. -/
def help : Text := Format.help ++ oldSpellings.flatMap fun (spelling, _) => "\n\t".toList ++ spelling

end Definition

/-- Enters a definition, in place of an earlier one of the same attribute. -/
def Presets.define (p : Presets) (d : Definition) : Presets := p.insert d.key d.preset

/-- What a text made of presets, and the key under which its definition stands there. -/
structure Presets.Entering where
  isGood : Bool
  presets : Presets
  key : Text
  deriving DecidableEq, Repr

/-- Enters the definition of a text. A text that is no definition leaves presets and key alone. -/
def Presets.enter (p : Presets) (key t : Text) : Presets.Entering :=
  match Definition.parse? t with
  | some d => ⟨true, p.define d, d.key⟩
  | none => ⟨false, p, key⟩

end DriveHealth
