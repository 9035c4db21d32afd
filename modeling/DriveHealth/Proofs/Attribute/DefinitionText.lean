import DriveHealth.Attribute.Definition
import DriveHealth.Proofs.Attribute.Presets
import DriveHealth.Proofs.Attribute.RuleText
import Mathlib.Data.List.Nodup

/-! Definitions and their texts. What is written for a definition with a known rule is read as this
definition: no field is cut, and none of the old spellings gets in the way. -/
namespace DriveHealth

/-! ### Spellings of rules as a field -/

theorem Format.name_field (f : Format) :
    f.name ≠ [] ∧ f.name.length ≤ 12 ∧ ',' ∉ f.name ∧ ' ' ∉ f.name := by
  cases f <;> decide

theorem Rule.not_mem_orderText {c : Char} (h : c ∉ ("012345rvwz" : Text)) (order : List ByteSource) :
    c ∉ orderText order := by
  intro hc
  exact h (exists_orderText_iff.mp ⟨order, rfl⟩ c hc)

/-- A field of a definition that an option can hold. -/
structure IsWord (t : Text) : Prop where
  length_le : t.length ≤ Definition.maxField
  no_comma : ',' ∉ t
  no_blank : ' ' ∉ t

theorem Rule.Spells.isWord {t : Text} {f : Format} {order : Option (List ByteSource)}
    (h : Spells t f order) : t ≠ [] ∧ IsWord t := by
  obtain ⟨ne, short, no_comma, no_blank⟩ := f.name_field
  cases h with
  | plain => exact ⟨ne, Nat.le_trans short (by decide), no_comma, no_blank⟩
  | @ordered f order bounds =>
    have letters := Rule.length_orderText order
    have few : order.length ≤ 8 := bounds.2
    refine ⟨List.append_ne_nil_of_left_ne_nil ne _, ?_, ?_, ?_⟩
    · rw [List.length_append, List.length_cons, letters, Definition.maxField]
      omega
    · simp [no_comma, Rule.not_mem_orderText (c := ',') (by decide)]
    · simp [no_blank, Rule.not_mem_orderText (c := ' ') (by decide)]

namespace Definition

def text (d : Definition) : Text :=
  d.key ++ ',' :: (d.preset.rule.text ++ onlyIf (d.preset.name ≠ []) (',' :: d.preset.name))

/-- Definitions that can be written: of an attribute with an id, with a known rule as it can be read
from a text, and with a name, or none, that fits into its field. -/
structure IsWritable (d : Definition) : Prop where
  id_ne_zero : d.id ≠ 0
  known : d.preset.rule.isKnown = true
  rule_read : ∃ t, Rule.parse t = d.preset.rule
  name : IsWord d.preset.name

theorem IsWritable.spells {d : Definition} (h : d.IsWritable) :
    ∃ f order, Rule.Spells d.preset.rule.text f order := by
  obtain ⟨t, ht⟩ := h.rule_read
  have known := h.known
  rw [← ht, Rule.isKnown_parse_iff] at known
  rw [← ht, Rule.text_parse]
  exact known

theorem IsWritable.rule_word {d : Definition} (h : d.IsWritable) :
    d.preset.rule.text ≠ [] ∧ IsWord d.preset.rule.text := by
  obtain ⟨f, order, spells⟩ := h.spells
  exact spells.isWord

theorem IsWritable.parse_rule {d : Definition} (h : d.IsWritable) :
    Rule.parse d.preset.rule.text = d.preset.rule := by
  obtain ⟨t, ht⟩ := h.rule_read
  rw [← ht, Rule.text_parse]

theorem comma_not_mem_key (d : Definition) : ',' ∉ d.key := not_mem_decimal rfl d.id.toNat

/-- Behind the id the rule is what stands in front of the next comma. -/
theorem IsWritable.cutAt_fields {d : Definition} (h : d.IsWritable) :
    cutAt ',' (d.preset.rule.text ++ onlyIf (d.preset.name ≠ []) (',' :: d.preset.name)) =
      (d.preset.rule.text, if d.preset.name ≠ [] then some d.preset.name else none) := by
  have free := h.rule_word.2.no_comma
  rw [onlyIf]
  split
  · exact cutAt_append free d.preset.name
  · rw [List.append_nil, cutAt_of_not_mem free]

/-! ### Old spellings -/

/-- What stands between the first two commas. -/
def middle (t : Text) : Text := (cutAt ',' ((cutAt ',' t).2.getD [])).1

theorem IsWritable.middle_text {d : Definition} (h : d.IsWritable) :
    middle d.text = d.preset.rule.text := by
  rw [middle, text, cutAt_append d.comma_not_mem_key, Option.getD_some, h.cutAt_fields]

theorem middle_oldSpellings :
    ∀ old ∈ oldSpellings, (Rule.parse (middle old.1)).isKnown = false := by
  decide +kernel

/-- No definition with a known rule is written like an old spelling. -/
theorem IsWritable.expand_text {d : Definition} (h : d.IsWritable) : expand d.text = d.text := by
  have none : oldSpellings.lookup d.text = none := by
    rw [List.lookup_eq_none_iff]
    intro old mem
    have unknown := middle_oldSpellings old mem
    rw [bne_iff_ne]
    intro same
    rw [← same, h.middle_text, h.parse_rule, h.known] at unknown
    cases unknown
  rw [expand, none, Option.getD_none]

/-! ### Reading -/

theorem isField_of_word {t : Text} (ne : t ≠ []) (h : IsWord t) : isField t = true := by
  have some_chars : 1 ≤ t.length := List.length_pos_iff.mpr ne
  simp [isField, some_chars, h.length_le]

theorem IsWritable.parsePreset?_fields {d : Definition} (h : d.IsWritable) :
    parsePreset? (d.preset.rule.text ++ onlyIf (d.preset.name ≠ []) (',' :: d.preset.name)) =
      some d.preset := by
  obtain ⟨ne, word⟩ := h.rule_word
  rw [parsePreset?, h.cutAt_fields]
  by_cases named : d.preset.name ≠ []
  · rw [if_pos named]
    simp [isField_of_word ne word, isField_of_word named h.name, h.name.no_comma, h.parse_rule]
  · rw [if_neg named]
    simp only [isField_of_word ne word, if_true, h.parse_rule]
    rw [← not_not.mp named]

theorem IsWritable.parse?_text {d : Definition} (h : d.IsWritable) : parse? d.text = some d := by
  have positive : d.id.toNat ≠ 0 := fun zero => h.id_ne_zero (UInt8.toNat_inj.mp zero)
  have bound := d.id.toNat_lt
  have same : (Int.toNat d.id.toNat).toUInt8 = d.id := UInt8.ofNat_toNat
  rw [parse?, h.expand_text, text, key, scanInteger_decimal d.id.toNat rfl]
  simp only
  rw [if_pos (by omega), h.parsePreset?_fields, Option.map_some, same]

/-! ### Definitions as an argument -/

theorem IsWritable.no_blank {d : Definition} (h : d.IsWritable) : ' ' ∉ d.text := by
  have id : ' ' ∉ d.key := not_mem_decimal rfl d.id.toNat
  rw [text, onlyIf]
  split <;> simp [id, h.rule_word.2.no_blank, h.name.no_blank]

theorem IsWritable.length_text_le {d : Definition} (h : d.IsWritable) : d.text.length ≤ 69 := by
  have id : d.key.length ≤ 3 :=
    (Nat.length_toDigits_le_iff (by decide) (by decide)).mpr (Nat.lt_trans d.id.toNat_lt (by decide))
  have rule := h.rule_word.2.length_le
  have name := h.name.length_le
  rw [maxField] at rule name
  rw [text, onlyIf]
  split <;> simp <;> omega

/-! ### Collections -/

theorem keys_nodup {ds : List Definition} (distinct : (ds.map Definition.id).Nodup) :
    (ds.map Definition.key).Nodup := by
  have injective : Function.Injective fun id : UInt8 => decimal id.toNat :=
    fun _ _ h => UInt8.toNat_inj.mp (decimal_injective h)
  have keys : ds.map Definition.key = (ds.map Definition.id).map fun id => decimal id.toNat := by
    rw [List.map_map]
    rfl
  rw [keys]
  exact List.Nodup.map injective distinct

/-- Definitions of different attributes all have their place. -/
theorem foldl_define_perm {ds : List Definition} (distinct : (ds.map Definition.key).Nodup)
    (p : Presets) (fresh : ∀ d ∈ ds, d.key ∉ p.entries.map Prod.fst) :
    (ds.foldl Presets.define p).entries.Perm (p.entries ++ ds.map fun d => (d.key, d.preset)) := by
  induction ds generalizing p with
  | nil => simp
  | cons d ds ih =>
    obtain ⟨first, rest⟩ := List.nodup_cons.mp distinct
    obtain ⟨new, others⟩ := List.forall_mem_cons.mp fresh
    have placed : (p.define d).entries.Perm ((d.key, d.preset) :: p.entries) :=
      Presets.place_perm d.preset new
    have later : ∀ e ∈ ds, e.key ∉ (p.define d).entries.map Prod.fst := by
      intro e he
      rw [(placed.map Prod.fst).mem_iff, List.map_cons, List.mem_cons, not_or]
      refine ⟨?_, others e he⟩
      intro same
      have key : e.key = d.key := same
      exact first (key ▸ List.mem_map_of_mem he)
    rw [List.foldl_cons, List.map_cons]
    refine (ih rest (p.define d) later).trans ?_
    exact (placed.append_right _).trans List.perm_middle.symm

end Definition

end DriveHealth
