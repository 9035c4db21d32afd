import DriveHealth.Proofs.Attribute.Presets
import DriveHealth.Attribute.Definition
import DriveHealth.Proofs.Text.Parts

/-! The grammar of attribute definitions: a numeral of value 1 to 255 and one or two fields, with
commas between them. A text is entered exactly if it stands for such a definition, and then it
changes one key; any other text changes nothing. -/
namespace DriveHealth.Definition

/-! ### Old spellings -/

/-- A text stands for itself, but the old spellings stand for others. -/
inductive StandsFor : Text → Text → Prop where
  | old {s u} : (s, u) ∈ oldSpellings → StandsFor s u
  | itself {t} : t ∉ oldSpellings.map Prod.fst → StandsFor t t

theorem expand_oldSpelling : ∀ e ∈ oldSpellings, expand e.1 = e.2 := by
  unfold expand oldSpellings
  -- characters in place of the literals, which take the kernel long
  simp -index only [String.toList_ofList]
  decide +kernel

theorem expand_of_not_mem {t : Text} (h : t ∉ oldSpellings.map Prod.fst) : expand t = t := by
  have none : oldSpellings.lookup t = none := by
    rw [List.lookup_eq_none_iff]
    intro e he
    rw [bne_iff_ne]
    rintro rfl
    exact h (List.mem_map_of_mem he)
  rw [expand, none, Option.getD_none]

theorem standsFor_iff {t u : Text} : StandsFor t u ↔ expand t = u := by
  constructor
  · intro h
    cases h with
    | old mem => exact expand_oldSpelling _ mem
    | itself fresh => exact expand_of_not_mem fresh
  · rintro rfl
    by_cases h : t ∈ oldSpellings.map Prod.fst
    · obtain ⟨e, he, rfl⟩ := List.mem_map.mp h
      rw [expand_oldSpelling e he]
      exact .old he
    · rw [expand_of_not_mem h]
      exact .itself h

/-! ### Fields -/

/-- One to 32 characters without a comma. -/
def IsFieldText (t : Text) : Prop := 1 ≤ t.length ∧ t.length ≤ maxField ∧ ',' ∉ t

/-- A rule, and perhaps a name behind a comma. -/
inductive Fields : Text → Preset → Prop where
  | unnamed {rule} : IsFieldText rule → Fields rule ⟨.parse rule, []⟩
  | named {rule name} : IsFieldText rule → IsFieldText name →
      Fields (rule ++ ',' :: name) ⟨.parse rule, name⟩

theorem isField_iff (t : Text) : isField t = true ↔ 1 ≤ t.length ∧ t.length ≤ maxField := by
  simp [isField]

theorem parsePreset?_eq_some_iff {t : Text} {preset : Preset} :
    parsePreset? t = some preset ↔ Fields t preset := by
  constructor
  · intro h
    rw [parsePreset?] at h
    split at h
    · rename_i rule cut
      split at h
      · rename_i field
        cases h
        have whole : t = rule := by
          have := eq_of_cutAt cut
          rwa [Option.elim_none, List.append_nil] at this
        obtain ⟨some_chars, short⟩ := (isField_iff rule).mp field
        rw [whole]
        exact .unnamed ⟨some_chars, short, mark_not_mem_cut cut⟩
      · cases h
    · rename_i rule name cut
      split at h
      · rename_i fields
        cases h
        simp only [Bool.and_eq_true, Bool.not_eq_true', List.contains_eq_mem,
          decide_eq_false_iff_not, isField_iff] at fields
        obtain ⟨⟨rule_size, name_size⟩, no_comma⟩ := fields
        rw [eq_of_cutAt cut]
        exact .named ⟨rule_size.1, rule_size.2, mark_not_mem_cut cut⟩
          ⟨name_size.1, name_size.2, no_comma⟩
      · cases h
  · intro h
    cases h with
    | unnamed hr =>
      obtain ⟨some_chars, short, no_comma⟩ := hr
      rw [parsePreset?, cutAt_of_not_mem no_comma]
      exact if_pos ((isField_iff t).mpr ⟨some_chars, short⟩)
    | @named rule name hr hn =>
      obtain ⟨some_chars, short, no_comma⟩ := hr
      obtain ⟨some_name, short_name, no_third⟩ := hn
      have rule_field := (isField_iff rule).mpr ⟨some_chars, short⟩
      have name_field := (isField_iff name).mpr ⟨some_name, short_name⟩
      rw [parsePreset?, cutAt_append no_comma]
      simp [rule_field, name_field, no_third]

/-! ### Definitions -/

/-- The texts that define a preset for an attribute. -/
inductive Defines : Text → Nat → Preset → Prop where
  | intro {number fields preset} {id : Nat} : Numeral number id → 1 ≤ id → id ≤ 255 →
      Fields fields preset → Defines (number ++ ',' :: fields) id preset

/-- An id of an attribute fits into its byte. -/
theorem toNat_id {id : Nat} (h : id ≤ 255) : (id : Int).toNat.toUInt8.toNat = id := by
  have small : id % 256 = id := Nat.mod_eq_of_lt (by omega)
  rw [Int.toNat_natCast, Nat.toUInt8, UInt8.toNat_ofNat', small]

theorem parse?_of_defines {t u : Text} {id : Nat} {preset : Preset} (stands : StandsFor t u)
    (h : Defines u id preset) :
    ∃ d, parse? t = some d ∧ d.id.toNat = id ∧ d.preset = preset := by
  cases h with
  | @intro number fields _ _ numeral low high hf =>
    have expanded := standsFor_iff.mp stands
    have bounds : 1 ≤ (id : Int) ∧ (id : Int) ≤ 255 := by omega
    refine ⟨⟨(id : Int).toNat.toUInt8, preset⟩, ?_, toNat_id high, rfl⟩
    rw [parse?, expanded, numeral.scanInteger rfl]
    simp only
    rw [if_pos bounds, parsePreset?_eq_some_iff.mpr hf, Option.map_some]

theorem defines_of_parse? {t : Text} {d : Definition} (h : parse? t = some d) :
    ∃ u, StandsFor t u ∧ Defines u d.id.toNat d.preset := by
  refine ⟨expand t, standsFor_iff.mpr rfl, ?_⟩
  rw [parse?] at h
  split at h
  · rename_i id r scanned
    split at h
    · rename_i bounds
      obtain ⟨preset, fields, rfl⟩ := Option.map_eq_some_iff.mp h
      obtain ⟨number, text, numeral⟩ := numeral_of_scanInteger scanned
      lift id to Nat using by omega with id
      rw [toNat_id (by omega), text]
      exact .intro numeral (by omega) (by omega) (parsePreset?_eq_some_iff.mp fields)
    · cases h
  · cases h

/-- A text is entered exactly if it stands for a definition. It then sets the key of its id to the
preset that it defines and leaves all other keys alone; any other text leaves everything alone. -/
theorem entered_exactly_by_grammar (p : Presets) (key t : Text) :
    ((p.enter key t).isGood = true ↔ ∃ u id preset, StandsFor t u ∧ Defines u id preset) ∧
    (∀ u id preset, StandsFor t u → Defines u id preset →
      (p.enter key t).key = decimal id ∧
      ∀ k, (p.enter key t).presets.get? k = if k = decimal id then some preset else p.get? k) ∧
    ((p.enter key t).isGood = false →
      (p.enter key t).presets = p ∧ (p.enter key t).key = key) := by
  refine ⟨?_, ?_, ?_⟩
  · constructor
    · intro good
      cases parsed : parse? t with
      | none => simp [Presets.enter, parsed] at good
      | some d =>
        obtain ⟨u, stands, defines⟩ := defines_of_parse? parsed
        exact ⟨u, _, _, stands, defines⟩
    · rintro ⟨u, id, preset, stands, defines⟩
      obtain ⟨d, parsed, -, -⟩ := parse?_of_defines stands defines
      simp [Presets.enter, parsed]
  · intro u id preset stands defines
    obtain ⟨d, parsed, rfl, rfl⟩ := parse?_of_defines stands defines
    rw [Presets.enter, parsed]
    exact ⟨rfl, Presets.get_insert p d.key d.preset⟩
  · intro bad
    cases parsed : parse? t with
    | none =>
      rw [Presets.enter, parsed]
      exact ⟨rfl, rfl⟩
    | some d => simp [Presets.enter, parsed] at bad

end DriveHealth.Definition
