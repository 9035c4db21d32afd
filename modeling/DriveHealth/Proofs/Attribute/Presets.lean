import DriveHealth.Attribute.Preset
import Mathlib.Data.List.Basic

/-! Presets as a map from keys. Entering a preset changes one key, and taking over defaults or
overrides gives every key its own outcome, whatever the order of the keys is. -/
namespace DriveHealth.Presets

theorem lookup_place (key : Text) (preset : Preset) (l : List (Text × Preset)) (k : Text) :
    (place key preset l).lookup k = if k = key then some preset else l.lookup k := by
  induction l with
  | nil =>
    by_cases hk : k = key
    · simp [place, hk]
    · simp [place, hk, List.lookup_cons, beq_eq_false_iff_ne.mpr hk]
  | cons e r ih =>
    obtain ⟨m, q⟩ := e
    rw [place]
    by_cases h1 : key < m
    · rw [if_pos h1]
      by_cases hk : k = key
      · simp [hk]
      · simp [hk, List.lookup_cons, beq_eq_false_iff_ne.mpr hk]
    · rw [if_neg h1]
      by_cases h2 : m < key
      · rw [if_pos h2, List.lookup_cons, List.lookup_cons, ih]
        have hne : m ≠ key := fun h => List.lt_irrefl key (h ▸ h2)
        by_cases hm : k = m
        · simp [hm, hne]
        · simp [beq_eq_false_iff_ne.mpr hm]
      · rw [if_neg h2]
        have he : m = key := List.le_antisymm h1 h2
        subst m
        by_cases hk : k = key
        · simp [hk]
        · simp [hk, List.lookup_cons, beq_eq_false_iff_ne.mpr hk]

theorem get_insert (p : Presets) (key : Text) (preset : Preset) (k : Text) :
    (p.insert key preset).get? k = if k = key then some preset else p.get? k :=
  lookup_place key preset p.entries k

theorem lookup_eq_none_of_lt {key : Text} {l : List (Text × Preset)} (h : ∀ e ∈ l, key < e.1) :
    l.lookup key = none := by
  rw [List.lookup_eq_none_iff]
  intro e he
  have hne : key ≠ e.1 := fun hk => List.lt_irrefl e.1 (hk ▸ h e he)
  simpa using hne

/-- A preset under a new key comes to what was there. -/
theorem place_perm {key : Text} (preset : Preset) {l : List (Text × Preset)}
    (fresh : key ∉ l.map Prod.fst) : (place key preset l).Perm ((key, preset) :: l) := by
  induction l with
  | nil => exact .refl _
  | cons e r ih =>
    obtain ⟨k, q⟩ := e
    obtain ⟨other, rest⟩ := not_or.mp (mt List.mem_cons.mpr fresh)
    rw [place]
    split
    · exact .refl _
    · rename_i notLess
      split
      · exact ((ih rest).cons (k, q)).trans (.swap _ _ _)
      · rename_i notGreater
        exact absurd (List.le_antisymm notLess notGreater).symm other

/-- Entering presets for distinct keys gives each of these keys its own preset. -/
theorem get_foldl_insert (f : Text → Preset → Preset) {l : List (Text × Preset)}
    (h : l.Pairwise fun a b => a.1 < b.1) (p : Presets) (k : Text) :
    (l.foldl (fun all e => all.insert e.1 (f e.1 e.2)) p).get? k =
      ((l.lookup k).map (f k)).or (p.get? k) := by
  induction l generalizing p with
  | nil => rfl
  | cons e r ih =>
    obtain ⟨key, preset⟩ := e
    obtain ⟨first, rest⟩ := List.pairwise_cons.mp h
    rw [List.foldl_cons, ih rest, get_insert, List.lookup_cons]
    by_cases hk : k = key
    · subst k
      simp [lookup_eq_none_of_lt first]
    · simp [hk, beq_eq_false_iff_ne.mpr hk]

/-- What a key has with defaults: its own preset, with the default name for an empty one, or else
the default preset. -/
def merged : Option Preset → Option Preset → Option Preset
  | some own, some base =>
    some { rule := own.rule, name := if own.name = [] then base.name else own.name }
  | some own, none => some own
  | none, base => base

theorem merged_none (own : Option Preset) : merged own none = own := by
  cases own with
  | none => rfl
  | some own => rfl

def orDefault (own : Option Preset) (base : Preset) : Preset :=
  own.elim base fun own => own.orName base

theorem withDefaults_eq (p defaults : Presets) :
    p.withDefaults defaults =
      defaults.entries.foldl (fun all e => all.insert e.1 (orDefault (p.get? e.1) e.2)) p := by
  rw [withDefaults]
  refine List.foldl_ext _ _ p ?_
  intro all e _
  dsimp only
  cases p.get? e.1 with
  | none => rfl
  | some own => rfl

theorem get_withDefaults (p defaults : Presets) (k : Text) :
    (p.withDefaults defaults).get? k = merged (p.get? k) (defaults.get? k) := by
  have h : (p.withDefaults defaults).get? k =
      ((defaults.get? k).map (orDefault (p.get? k))).or (p.get? k) := by
    rw [withDefaults_eq]
    exact get_foldl_insert (fun key base => orDefault (p.get? key) base) defaults.ascending p k
  rw [h]
  cases p.get? k with
  | none => cases defaults.get? k with
    | none => rfl
    | some base => rfl
  | some own => cases defaults.get? k with
    | none => rfl
    | some base => simp [merged, orDefault, Preset.orName]

theorem get_overriddenBy (p user : Presets) (k : Text) :
    (p.overriddenBy user).get? k =
      ((user.get? k).map fun own => own.orName ((p.get? k).getD {})).or (p.get? k) :=
  get_foldl_insert (fun key own => own.orName ((p.get? key).getD {})) user.ascending p k

/-- An attribute has the preset of an entry or nothing. -/
theorem ofId_eq (p : Presets) (id : UInt8) : p.ofId id = {} ∨ ∃ e ∈ p.entries, e.2 = p.ofId id := by
  rw [ofId]
  cases h : p.get? (decimal id.toNat) with
  | none => exact .inl rfl
  | some preset =>
    obtain ⟨before, behind, split, -⟩ := List.lookup_eq_some_iff.mp h
    refine .inr ⟨(decimal id.toNat, preset), ?_, rfl⟩
    rw [split]
    exact List.mem_append_right before List.mem_cons_self

/-- The decimal text of an attribute's id. -/
def IsKey (key : Text) : Prop := ∃ id : Nat, 1 ≤ id ∧ id ≤ 255 ∧ key = decimal id

def Keyed (p : Presets) : Prop := ∀ e ∈ p.entries, IsKey e.1

theorem keyed_empty : empty.Keyed := by
  intro e he
  cases he

theorem Keyed.insert {p : Presets} (h : p.Keyed) {key : Text} (hk : IsKey key) (preset : Preset) :
    (p.insert key preset).Keyed := by
  intro e he
  rcases mem_place he with he | ⟨f, hf, he⟩
  · rw [he]
    exact hk
  · rw [← he]
    exact h f hf

end DriveHealth.Presets
