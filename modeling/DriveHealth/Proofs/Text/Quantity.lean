import DriveHealth.Proofs.Text.Lines
import DriveHealth.Text.Quantity

/-! Grouped digits and capacities: taking the separators out leaves the digits of the number. -/
namespace DriveHealth

theorem filter_intersperse {p : Char → Bool} {separator : Text} (h : ∀ c ∈ separator, p c = false)
    (groups : List Text) :
    (groups.intersperse separator).flatten.filter p = groups.flatten.filter p := by
  have gone : separator.filter p = [] := List.filter_eq_nil_iff.mpr fun c hc => by simp [h c hc]
  induction groups with
  | nil => rfl
  | cons g r ih =>
    cases r with
    | nil => rfl
    | cons g' r =>
      rw [List.intersperse_cons_cons, List.flatten_cons, List.flatten_cons, List.filter_append,
        List.filter_append, ih, gone, List.nil_append, ← List.filter_append, ← List.flatten_cons]

theorem mem_intersperse {c : Char} {separator : Text} {groups : List Text}
    (h : c ∈ (groups.intersperse separator).flatten) : c ∈ groups.flatten ∨ c ∈ separator := by
  induction groups with
  | nil => cases h
  | cons g r ih =>
    cases r with
    | nil => exact .inl h
    | cons g' r =>
      rw [List.intersperse_cons_cons, List.flatten_cons, List.flatten_cons, List.mem_append,
        List.mem_append] at h
      rcases h with h | h | h
      · exact .inl (List.mem_append_left _ h)
      · exact .inr h
      · rcases ih h with h | h
        · exact .inl (List.mem_append_right _ h)
        · exact .inr h

theorem flatten_groupsOfThree (digits : Text) :
    (digitGroups.groupsOfThree digits).flatten = digits := by
  fun_induction digitGroups.groupsOfThree digits with
  | case1 a b c r ih => rw [List.flatten_cons, ih, List.cons_append, List.cons_append, List.cons_append,
      List.nil_append]
  | case2 => rfl
  | case3 r => rw [List.flatten_singleton]

theorem flatten_digitGroups (digits : Text) : (digitGroups digits).flatten = digits := by
  rw [digitGroups, List.flatten_cons, flatten_groupsOfThree, List.take_append_drop]

/-- Without its separators a grouped number is the plain one. -/
theorem filter_grouped {separator : Text} {p : Char → Bool} (digits : ∀ c, c.isDigit = true → p c = true)
    (separators : ∀ c ∈ separator, p c = false) (n : Nat) :
    (grouped separator n).filter p = decimal n := by
  rw [grouped, filter_intersperse separators, flatten_digitGroups]
  exact List.filter_eq_self.mpr fun c hc => digits c (isDigit_of_mem_decimal hc)

theorem mem_grouped {c : Char} {separator : Text} {n : Nat} (h : c ∈ grouped separator n) :
    c.isDigit = true ∨ c ∈ separator := by
  rcases mem_intersperse h with h | h
  · rw [flatten_digitGroups] at h
    exact .inl (isDigit_of_mem_decimal h)
  · exact .inr h

theorem isLine_grouped {separator : Text} (h : IsLine separator) (n : Nat) :
    IsLine (grouped separator n) := by
  intro hc
  rcases mem_grouped hc with hd | hs
  · exact absurd hd (by decide)
  · exact h hs

theorem isLine_capacity {point : Text} (h : IsLine point) (n : Nat) : IsLine (capacity point n) := by
  have letter (power : Nat) : '\n' ≠ capacityPrefixes[power]?.getD ' ' := by
    cases hp : capacityPrefixes[power]? with
    | none => decide
    | some c =>
      have never : ∀ c ∈ capacityPrefixes, '\n' ≠ c := by simp [capacityPrefixes]
      exact never c (List.mem_of_getElem? hp)
  rw [capacity]
  split
  · simp
  · simp only
    split
    · simp [letter]
    · split <;> simp [letter, h]

end DriveHealth
