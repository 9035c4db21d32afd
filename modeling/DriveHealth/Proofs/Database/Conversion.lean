import DriveHealth.Database.Builtin
import DriveHealth.Proofs.Attribute.Presets

/-! Which entries a conversion can give. The keys of presets come from definitions only, and the two
halves of a conversion, for drives and for adapters, each fill one field that the other leaves empty. -/
namespace DriveHealth

theorem Definition.key_of_parse? {t : Text} {d : Definition} (h : Definition.parse? t = some d) :
    Presets.IsKey d.key := by
  rw [Definition.parse?] at h
  split at h
  · rename_i id r hs
    split at h
    · rename_i bounds
      obtain ⟨preset, -, rfl⟩ := Option.map_eq_some_iff.mp h
      refine ⟨id.toNat, by omega, by omega, ?_⟩
      have small : id.toNat % 256 = id.toNat := Nat.mod_eq_of_lt (by omega)
      rw [Definition.key, Nat.toUInt8, UInt8.toNat_ofNat', small]
    · cases h
  · cases h

theorem Presets.keyed_define {p : Presets} (h : p.Keyed) {t : Text} {d : Definition}
    (hd : Definition.parse? t = some d) : (p.define d).Keyed :=
  h.insert (Definition.key_of_parse? hd) d.preset

namespace PresetText

/-- What no definition breaks still holds of the presets that a text makes. -/
theorem applyToPresets_preserves {P : Presets → Prop} {p : Presets} (h : P p) (ss : List Setting)
    (define : ∀ {p : Presets} {t : Text} {d : Definition}, P p → Definition.parse? t = some d → P (p.define d)) :
    P (applyToPresets p ss).value := by
  induction ss generalizing p with
  | nil => exact h
  | cons s r ih =>
    rw [applyToPresets]
    split
    · split
      · exact h
      · rename_i d hd
        exact ih (define h hd)
    · split
      · exact ih h
      · exact h

theorem readPresets_keyed {p : Presets} (h : p.Keyed) (t : Text) : (readPresets p t).value.Keyed :=
  applyToPresets_preserves h (scan t).settings fun keyed hd => Presets.keyed_define keyed hd

end PresetText

/-- What every entry of a database fulfils: its expression for models is there and was compiled
without a problem, presets are kept under ids, and presets and a type exclude each other. -/
structure Entry.WellFormed (e : Entry) : Prop where
  model_ne_nil : e.model.source ≠ []
  model_compiled : e.model = .compile e.model.source
  model_good : e.model.problem = none
  keyed : e.presets.Keyed
  presets_of_usb : Family.isUsb e.family = true → e.presets = .empty
  usb_of_type : e.usbType ≠ [] → Family.isUsb e.family = true

theorem RegularExpression.source_compile (t : Text) : (compile t).source = t := by
  rw [compile]
  split
  · rfl
  · split <;> rfl

namespace Settings

theorem convert_family (s : Settings) : s.convert.entry.family = s.family := by
  rw [convert]
  split <;> rfl

theorem convert_model (s : Settings) : s.convert.entry.model = expression s.model := by
  rw [convert]
  split <;> rfl

theorem convert_keyed (s : Settings) : s.convert.entry.presets.Keyed := by
  rw [convert]
  split
  · exact Presets.keyed_empty
  · exact PresetText.readPresets_keyed Presets.keyed_empty s.presets

theorem convert_presets_of_usb {s : Settings} (h : Family.isUsb s.family = true) :
    s.convert.entry.presets = .empty := by
  rw [convert, if_pos h]

theorem convert_usbType_of_drive {s : Settings} (h : Family.isUsb s.family ≠ true) :
    s.convert.entry.usbType = [] := by
  rw [convert, if_neg h]

/-- The problems with the expressions are among those of the conversion. -/
theorem expressions_subset_problems (s : Settings) :
    (if s.model.isEmpty then [.missingModel] else expressionProblem (expression s.model)) ⊆
      s.convert.problems := by
  intro p hp
  rw [convert]
  split
  · exact List.mem_append_left _ (List.mem_append_left _ hp)
  · exact List.mem_append_left _ (List.mem_append_left _ (List.mem_append_left _ hp))

theorem level_ne_error_of_good {s : Settings} (h : s.convert.isGood = true) {p : Problem}
    (hp : p ∈ s.convert.problems) : p.level ≠ .error := by
  have h' := List.all_eq_true.mp h p hp
  simpa using h'

/-- Settings with an expression for models that compiles. -/
def ModelCompiles (s : Settings) : Prop :=
  s.model ≠ [] ∧ (RegularExpression.compile s.model).problem = none

instance (s : Settings) : Decidable s.ModelCompiles := inferInstanceAs (Decidable (_ ∧ _))

theorem expression_of_ne_nil {t : Text} (h : t ≠ []) : expression t = .compile t := by
  rw [expression, if_neg (by simpa using h)]

theorem modelCompiles_of_good {s : Settings} (h : s.convert.isGood = true) : s.ModelCompiles := by
  have errors := expressions_subset_problems s
  have model_ne_nil : s.model ≠ [] := by
    intro hm
    rw [hm] at errors
    exact level_ne_error_of_good h (errors List.mem_cons_self) rfl
  refine ⟨model_ne_nil, ?_⟩
  cases hp : (RegularExpression.compile s.model).problem with
  | none => rfl
  | some p =>
    rw [if_neg (by simpa using model_ne_nil), expression_of_ne_nil model_ne_nil, expressionProblem,
      hp] at errors
    exact absurd rfl (level_ne_error_of_good h (errors List.mem_cons_self))

theorem ModelCompiles.wellFormed {s : Settings} (h : s.ModelCompiles) :
    s.convert.entry.WellFormed := by
  obtain ⟨model_ne_nil, good⟩ := h
  have compiled : s.convert.entry.model = .compile s.model := by
    rw [convert_model, expression_of_ne_nil model_ne_nil]
  have source : s.convert.entry.model.source = s.model := by
    rw [compiled, RegularExpression.source_compile]
  constructor
  · rw [source]
    exact model_ne_nil
  · rw [source]
    exact compiled
  · rw [compiled]
    exact good
  · exact convert_keyed s
  · intro hu
    rw [convert_family] at hu
    exact convert_presets_of_usb hu
  · intro ht
    rw [convert_family]
    by_contra hu
    exact ht (convert_usbType_of_drive hu)

end Settings

theorem Builtin.settings_good : ∀ s ∈ Builtin.settings, s.convert.isGood = true := by
  -- The kernel decodes a literal from its bytes, from the front again for each character. Here its
  -- characters stand in its place before that. The index of `simp` does not see a literal as their list.
  simp -index only [Builtin.settings, Builtin.written, List.map, String.toList_ofList]
  decide +kernel

theorem Builtin.models_compile {s : Settings} (h : s ∈ Builtin.settings) : s.ModelCompiles :=
  Settings.modelCompiles_of_good (settings_good s h)

theorem Builtin.entries_wellFormed {e : Entry} (h : e ∈ Builtin.entries) : e.WellFormed := by
  obtain ⟨s, hs, rfl⟩ := List.mem_map.mp h
  exact (models_compile hs).wellFormed

end DriveHealth
