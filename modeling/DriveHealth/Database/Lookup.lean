import DriveHealth.Database.Store
import DriveHealth.Message
/-!
Looking a model up. The first entry that describes the model counts, together with the presets of the
last entry for all drives in front of it.
-/

namespace DriveHealth.Database

/-- The entry that describes a model and its place, or nothing, with the defaults seen before it. -/
structure Found where
  index : Option (Nat × Entry)
  defaults : Option Entry
  deriving DecidableEq, Repr

def search (model : Text) (defaults : Option Entry) (i : Nat) : List Entry → Found
  | [] => ⟨none, defaults⟩
  | e :: r =>
    if e.family = Family.default then search model (some e) (i + 1) r
    else if e.describes model then ⟨some (i, e), defaults⟩
    else search model defaults (i + 1) r

structure Lookup where
  entry : Entry
  isMatch : Bool
  message : Message
  deriving DecidableEq, Repr

def Found.lookup (model : Text) (f : Found) : Lookup :=
  match f.index with
  | some (i, e) =>
    { entry :=
        match f.defaults with
        | some d => { e with presets := e.presets.withDefaults d.presets }
        | none => e
      isMatch := true
      message := ⟨.debug, "Model \"" ++ model ++ "\" matches drive database entry #" ++ decimal i ++
        " \"" ++ e.family ++ "\""⟩ }
  | none =>
    { entry := f.defaults.getD {}
      isMatch := false
      message := ⟨.info, "Model \"" ++ model ++ "\" not found in drive database" ++
        onlyIf f.defaults.isSome ", using DEFAULT presets"⟩ }

def lookup (db : Database) (model : Text) : Lookup :=
  (search model none 0 db.entries).lookup model

def matching (db : Database) (model : Text) : List Entry := db.entries.filter (·.describes model)

end DriveHealth.Database
