import DriveHealth.Attribute.Rule
import DriveHealth.Text.Number
/-!
Presets: what is known about the attributes of a drive model before its data is read. A preset is kept
under the decimal text of the attribute's id, and presets stand in the order of these texts, so that 10
comes before 9 and two collections with the same content are equal.
-/

namespace DriveHealth

/-- How to read an attribute and what to call it. A name that is empty was not given. -/
structure Preset where
  rule : Rule := .none
  name : Text := []
  deriving DecidableEq, Repr

namespace Preset

/-- A name that was not given is taken from another preset. -/
def orName (p other : Preset) : Preset := { p with name := if p.name.isEmpty then other.name else p.name }

end Preset

structure Presets where
  entries : List (Text × Preset)
  ascending : entries.Pairwise (fun a b => a.1 < b.1)
  deriving DecidableEq

namespace Presets

instance : Repr Presets := ⟨fun p => reprPrec p.entries⟩

def empty : Presets := ⟨[], .nil⟩

def size (p : Presets) : Nat := p.entries.length

def isEmpty (p : Presets) : Bool := p.entries.isEmpty

def get? (p : Presets) (key : Text) : Option Preset := p.entries.lookup key

/-- Puts an entry into its place; one that stands there already is replaced. -/
def place (key : Text) (preset : Preset) : List (Text × Preset) → List (Text × Preset)
  | [] => [(key, preset)]
  | (k, q) :: r =>
    if key < k then (key, preset) :: (k, q) :: r
    else if k < key then (k, q) :: place key preset r
    else (k, preset) :: r

theorem mem_place {key : Text} {preset : Preset} {e : Text × Preset} {l : List (Text × Preset)}
    (h : e ∈ place key preset l) : e.1 = key ∨ ∃ f ∈ l, f.1 = e.1 := by
  induction l with
  | nil =>
    rw [place, List.mem_singleton] at h
    exact .inl (h ▸ rfl)
  | cons d r ih =>
    obtain ⟨k, q⟩ := d
    rw [place] at h
    split at h
    · rcases List.mem_cons.1 h with rfl | h
      · exact .inl rfl
      · exact .inr ⟨e, h, rfl⟩
    · split at h
      · rcases List.mem_cons.1 h with rfl | h
        · exact .inr ⟨(k, q), List.mem_cons_self, rfl⟩
        · rcases ih h with h | ⟨f, hf, h⟩
          · exact .inl h
          · exact .inr ⟨f, List.mem_cons_of_mem _ hf, h⟩
      · rcases List.mem_cons.1 h with rfl | h
        · exact .inr ⟨(k, q), List.mem_cons_self, rfl⟩
        · exact .inr ⟨e, List.mem_cons_of_mem _ h, rfl⟩

theorem ascending_place (key : Text) (preset : Preset) {l : List (Text × Preset)}
    (h : l.Pairwise (fun a b => a.1 < b.1)) :
    (place key preset l).Pairwise (fun a b => a.1 < b.1) := by
  induction l with
  | nil => simp [place]
  | cons d r ih =>
    obtain ⟨k, q⟩ := d
    have ⟨first, rest⟩ := List.pairwise_cons.1 h
    rw [place]
    split
    · rename_i less
      refine List.pairwise_cons.2 ⟨fun e he => ?_, h⟩
      rcases List.mem_cons.1 he with rfl | he
      · exact less
      · exact List.lt_trans less (first e he)
    · split
      · rename_i less
        refine List.pairwise_cons.2 ⟨fun e he => ?_, ih rest⟩
        rcases mem_place he with h | ⟨f, hf, h⟩
        · exact h ▸ less
        · exact h ▸ first f hf
      · exact List.pairwise_cons.2 ⟨first, rest⟩

def insert (p : Presets) (key : Text) (preset : Preset) : Presets :=
  ⟨place key preset p.entries, ascending_place key preset p.ascending⟩

def ofId (p : Presets) (id : UInt8) : Preset := (p.get? (decimal id.toNat)).getD {}

/-- Takes over the presets that are missing, and names for the presets that have none. -/
def withDefaults (p defaults : Presets) : Presets :=
  defaults.entries.foldl
    (fun all (key, preset) =>
      all.insert key (match p.get? key with
        | some own => own.orName preset
        | none => preset))
    p

/-- Lets the presets of a user win. A user's preset without a name keeps the name it had. -/
def overriddenBy (p user : Presets) : Presets :=
  user.entries.foldl
    (fun all (key, preset) => all.insert key (preset.orName ((p.get? key).getD {})))
    p

end Presets

end DriveHealth
