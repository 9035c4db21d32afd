import DriveHealth.Proofs.Attribute.RawValue
import DriveHealth.Proofs.Smart.Columns

/-! Which normalized values a line hides. A rule hides the values whose bytes go into the raw value, and
with the current value the worst one too. A value that is shown as a number has no part in the raw value
next to it. -/
namespace DriveHealth

/-! ### Rules -/

namespace Rule

theorem hidden_current_iff {rule : Rule} : rule.hidden.current = true ↔ .current ∈ rule.order := by
  cases rule with
  | unknown t => exact iff_of_false Bool.false_ne_true (by decide : .current ∉ Format.vendorOrder)
  | known f order =>
    cases order with
    | some order => exact List.contains_iff_mem
    | none => cases f <;> decide

/-- Without the current value the worst one is hidden too, whether its byte is selected or not. -/
theorem hidden_worst_iff {rule : Rule} :
    rule.hidden.worst = true ↔ .current ∈ rule.order ∨ .worst ∈ rule.order := by
  cases rule with
  | unknown t =>
    exact iff_of_false Bool.false_ne_true
      (by decide : ¬ (.current ∈ Format.vendorOrder ∨ .worst ∈ Format.vendorOrder))
  | known f order =>
    cases order with
    | some order =>
      have either := (Bool.or_eq_true (order.contains .current) (order.contains .worst)).to_iff
      exact either.trans (or_congr List.contains_iff_mem List.contains_iff_mem)
    | none => cases f <;> decide

end Rule

/-! ### Records that differ in their values -/

namespace AttributeRecord

/-- The record with other normalized values. -/
def withValues (r : AttributeRecord) (current worst : UInt8) : AttributeRecord :=
  { r with current, worst }

theorem byte_withValues {source : ByteSource} (other : source ≠ .current ∧ source ≠ .worst)
    (r : AttributeRecord) (current worst : UInt8) :
    (r.withValues current worst).byte source = r.byte source := by
  obtain ⟨not_current, not_worst⟩ := other
  cases source with
  | vendor | reserved | zero => rfl
  | current => exact absurd rfl not_current
  | worst => exact absurd rfl not_worst

variable {rule : Rule}

/-- A byte that is not selected has no part in the raw value. -/
theorem rawValue_withValues (few : rule.order.length ≤ Rule.maxOrder) {r : AttributeRecord}
    {current worst : UInt8} (keeps_current : .current ∈ rule.order → current = r.current)
    (keeps_worst : .worst ∈ rule.order → worst = r.worst) :
    (r.withValues current worst).rawValue rule = r.rawValue rule := by
  rw [rawValue_eq_iff few]
  intro source selected
  by_cases is_current : source = .current
  · subst source
    exact keeps_current selected
  · by_cases is_worst : source = .worst
    · subst source
      exact keeps_worst selected
    · exact byte_withValues ⟨is_current, is_worst⟩ r current worst

/-- The raw value depends on the current value if and only if its byte is selected. -/
theorem current_selected_iff (few : rule.order.length ≤ Rule.maxOrder) :
    .current ∈ rule.order ↔
      ∃ (r : AttributeRecord) (current : UInt8),
        (r.withValues current r.worst).rawValue rule ≠ r.rawValue rule := by
  constructor
  · intro selected
    refine ⟨.read .little [] 0, 1, ?_⟩
    intro same
    have bytes := (rawValue_eq_iff few).mp same .current selected
    exact absurd bytes (by decide)
  · rintro ⟨r, current, differ⟩
    by_contra not_selected
    exact differ (rawValue_withValues few (fun selected => absurd selected not_selected) fun _ => rfl)

theorem values_selected_iff (few : rule.order.length ≤ Rule.maxOrder) :
    .current ∈ rule.order ∨ .worst ∈ rule.order ↔
      ∃ (r : AttributeRecord) (current worst : UInt8),
        (r.withValues current worst).rawValue rule ≠ r.rawValue rule := by
  constructor
  · intro selected
    refine ⟨.read .little [] 0, 1, 1, ?_⟩
    intro same
    have bytes := (rawValue_eq_iff few).mp same
    rcases selected with current | worst
    · exact absurd (bytes .current current) (by decide)
    · exact absurd (bytes .worst worst) (by decide)
  · rintro ⟨r, current, worst, differ⟩
    by_contra not_selected
    obtain ⟨no_current, no_worst⟩ := not_or.mp not_selected
    exact differ (rawValue_withValues few (fun selected => absurd selected no_current)
      fun selected => absurd selected no_worst)

end AttributeRecord

/-! ### Lines -/

theorem Reads.unique {t : Text} {m n : Option Nat} (hm : Reads t m) (hn : Reads t n) : m = n := by
  have wide : t.length < t.length + 1 := Nat.lt_succ_self _
  rw [← hm.firstWord wide [] [], hn.firstWord wide [] []]

namespace TableStyle

/-- A cell holds the number of a value only where the value is not hidden. -/
theorem not_hidden_of_number (style : TableStyle) {isHidden : Bool} {value : UInt8}
    (h : style.normalizedText isHidden value = style.valueText value) : isHidden = false := by
  cases isHidden with
  | false => rfl
  | true =>
    have dashes := style.reads_normalizedText true value
    rw [h] at dashes
    exact absurd ((style.reads_valueText value).unique dashes) (Option.some_ne_none _)

/-- For every rule that can be written, the hidden values are those that the raw value depends on. So in
every style of line, a current or worst value whose cell shows its number leaves the raw value next to
it as it is, whatever the value is. -/
theorem hidden_values_are_consumed (t : Text) :
    let rule := Rule.parse t
    (rule.hidden.current = true ↔ ∃ (r : AttributeRecord) (current : UInt8),
      (r.withValues current r.worst).rawValue rule ≠ r.rawValue rule) ∧
    (rule.hidden.worst = true ↔ ∃ (r : AttributeRecord) (current worst : UInt8),
      (r.withValues current worst).rawValue rule ≠ r.rawValue rule) ∧
    ∀ (style : TableStyle) (name : Text) (r : AttributeRecord),
      let cells := style.cells { rule, name } r
      style.line { rule, name } r = layout style.widths cells ++ "\n" ∧
      (cells[3]? = some (style.valueText r.current) → ∀ current,
        (r.withValues current r.worst).rawValue rule = r.rawValue rule) ∧
      (cells[4]? = some (style.valueText r.worst) → ∀ current worst,
        (r.withValues current worst).rawValue rule = r.rawValue rule) := by
  intro rule
  have few : rule.order.length ≤ Rule.maxOrder := Rule.length_order_parse_le t
  have current_iff := Rule.hidden_current_iff.trans (AttributeRecord.current_selected_iff few)
  have worst_iff := Rule.hidden_worst_iff.trans (AttributeRecord.values_selected_iff few)
  refine ⟨current_iff, worst_iff, ?_⟩
  intro style name r cells
  refine ⟨style.line_eq _ r, ?_, ?_⟩
  · intro number current
    have shown := style.not_hidden_of_number (Option.some.inj number)
    by_contra differ
    rw [current_iff.mpr ⟨r, current, differ⟩] at shown
    cases shown
  · intro number current worst
    have shown := style.not_hidden_of_number (Option.some.inj number)
    by_contra differ
    rw [worst_iff.mpr ⟨r, current, worst, differ⟩] at shown
    cases shown

end TableStyle

end DriveHealth
