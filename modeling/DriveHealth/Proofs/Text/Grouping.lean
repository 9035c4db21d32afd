import DriveHealth.Proofs.Text.Buffer
import DriveHealth.Proofs.Text.Number
import DriveHealth.Proofs.Text.Quantity

/-! Digits in groups of three, written into a buffer. However short the buffer is and whatever the separator
is, the buffer holds the front part of the grouped number that fits. -/
namespace DriveHealth

/-- Digits cut from the right into groups of three; the first group has what is left over. -/
structure IsGrouping (digits : Text) (groups : List Text) : Prop where
  whole : groups.flatten = digits
  first : ∀ g ∈ groups.head?, 1 ≤ g.length ∧ g.length ≤ 3
  others : ∀ g ∈ groups.tail, g.length = 3

def firstLength (digits : Text) : Nat := (digits.length - 1) % 3 + 1

theorem digitGroups_eq (digits : Text) :
    digitGroups digits =
      digits.take (firstLength digits) ::
        digitGroups.groupsOfThree (digits.drop (firstLength digits)) := rfl

theorem firstLength_le {digits : Text} (ne : digits ≠ []) : firstLength digits ≤ digits.length := by
  have some_digit := List.length_pos_iff.mpr ne
  have left_over := Nat.mod_le (digits.length - 1) 3
  rw [firstLength]
  omega

/-- Behind the first group whole groups are left. -/
theorem length_behind_first {digits : Text} (ne : digits ≠ []) :
    (digits.drop (firstLength digits)).length % 3 = 0 := by
  have some_digit := List.length_pos_iff.mpr ne
  rw [List.length_drop, firstLength]
  omega

theorem firstLength_at_border (c : Char) {r : Text} (border : r.length % 3 = 0) :
    firstLength (c :: r) = 1 := by
  rw [firstLength, List.length_cons, Nat.add_sub_cancel, border]

theorem firstLength_within (c : Char) {r : Text} (within : r.length % 3 ≠ 0) :
    firstLength (c :: r) = firstLength r + 1 := by
  rw [firstLength, firstLength, List.length_cons]
  omega

/-- Digits that are no whole groups leave one or two over. -/
theorem not_whole_of_short {digits : Text} (ne : digits ≠ [])
    (short : ∀ a b c r, digits = a :: b :: c :: r → False) : digits.length % 3 ≠ 0 := by
  match digits, ne, short with
  | [], ne, _ => exact absurd rfl ne
  | [_], _, _ | [_, _], _, _ => simp
  | a :: b :: c :: r, _, short => exact absurd rfl (short a b c r)

theorem length_of_mem_groupsOfThree {digits : Text} (whole : digits.length % 3 = 0) :
    ∀ g ∈ digitGroups.groupsOfThree digits, g.length = 3 := by
  fun_induction digitGroups.groupsOfThree digits with
  | case1 a b c r ih =>
    simp only [List.length_cons] at whole
    intro g hg
    rcases List.mem_cons.mp hg with rfl | hg
    · rfl
    · exact ih (by omega) g hg
  | case2 => intro g hg; cases hg
  | case3 r short ne => exact absurd whole (not_whole_of_short ne short)

theorem isGrouping_digitGroups {digits : Text} (ne : digits ≠ []) :
    IsGrouping digits (digitGroups digits) := by
  refine ⟨flatten_digitGroups digits, ?_, ?_⟩
  · intro g hg
    rw [digitGroups_eq, List.head?_cons, Option.mem_some_iff] at hg
    have all := firstLength_le ne
    have short : (digits.length - 1) % 3 < 3 := Nat.mod_lt _ (by decide)
    rw [← hg, List.length_take, Nat.min_eq_left all, firstLength]
    omega
  · rw [digitGroups_eq, List.tail_cons]
    exact length_of_mem_groupsOfThree (length_behind_first ne)

theorem length_flatten_of_three {groups : List Text} (three : ∀ g ∈ groups, g.length = 3) :
    groups.flatten.length = 3 * groups.length := by
  induction groups with
  | nil => rfl
  | cons g groups ih =>
    obtain ⟨length, rest⟩ := List.forall_mem_cons.mp three
    rw [List.flatten_cons, List.length_append, ih rest, length, List.length_cons]
    omega

theorem groupsOfThree_flatten {groups : List Text} (three : ∀ g ∈ groups, g.length = 3) :
    digitGroups.groupsOfThree groups.flatten = groups := by
  induction groups with
  | nil => rfl
  | cons g groups ih =>
    obtain ⟨length, rest⟩ := List.forall_mem_cons.mp three
    obtain ⟨x, y, z, rfl⟩ := List.length_eq_three.mp length
    rw [List.flatten_cons, List.cons_append, List.cons_append, List.cons_append, List.nil_append,
      digitGroups.groupsOfThree, ih rest]

/-- There is one way to cut digits into groups. -/
theorem IsGrouping.eq_digitGroups {digits : Text} {groups : List Text} (ne : digits ≠ [])
    (h : IsGrouping digits groups) : groups = digitGroups digits := by
  obtain ⟨whole, first, others⟩ := h
  cases groups with
  | nil => exact absurd whole.symm ne
  | cons g groups =>
    obtain ⟨one, three⟩ := first g rfl
    rw [List.tail_cons] at others
    have rest := length_flatten_of_three others
    have length : firstLength digits = g.length := by
      rw [← whole, List.flatten_cons, firstLength, List.length_append, rest]
      omega
    rw [digitGroups_eq, length, ← whole, List.flatten_cons, List.take_left, List.drop_left,
      groupsOfThree_flatten others]

theorem intercalate_cons (separator g : Text) (groups : List Text) :
    separator.intercalate (g :: groups) = g ++ groups.flatMap (separator ++ ·) := by
  induction groups generalizing g with
  | nil => rw [List.intercalate_singleton, List.flatMap_nil, List.append_nil]
  | cons g' groups ih =>
    rw [List.intercalate_cons_cons, ih, List.flatMap_cons, List.append_assoc, List.append_assoc]

theorem grouped_eq (separator : Text) (n : Nat) :
    grouped separator n =
      (decimal n).take (firstLength (decimal n)) ++
        (digitGroups.groupsOfThree ((decimal n).drop (firstLength (decimal n)))).flatMap
          (separator ++ ·) :=
  intercalate_cons _ _ _

theorem length_flatMap_separator (separator : Text) (groups : List Text) :
    (groups.flatMap (separator ++ ·)).length =
      separator.length * groups.length + groups.flatten.length := by
  induction groups with
  | nil => rfl
  | cons g groups ih =>
    rw [List.flatMap_cons, List.flatten_cons, List.length_append, List.length_append, ih,
      List.length_append, List.length_cons, Nat.mul_succ]
    omega

/-- There is less than one separator for every three digits. -/
theorem exists_length_grouped (separator : Text) (n : Nat) :
    ∃ separators, 3 * separators < (decimal n).length ∧
      (grouped separator n).length = (decimal n).length + separator.length * separators := by
  have ne := decimal_ne_nil n
  have first := firstLength_le ne
  have three := length_of_mem_groupsOfThree (length_behind_first ne)
  have whole := flatten_groupsOfThree ((decimal n).drop (firstLength (decimal n)))
  rw [grouped_eq]
  generalize digitGroups.groupsOfThree ((decimal n).drop (firstLength (decimal n))) = groups at three whole
  have rest := length_flatten_of_three three
  have some_first : 0 < firstLength (decimal n) := Nat.succ_pos _
  rw [whole, List.length_drop] at rest
  refine ⟨groups.length, by omega, ?_⟩
  rw [List.length_append, length_flatMap_separator, whole, List.length_take, List.length_drop,
    Nat.min_eq_left first]
  omega

namespace Buffer

variable {b : Buffer} {size : Nat} {tail w : Text}

/-- The first loop stops behind the first group, or where the room ends. -/
theorem Holds.putFirstGroup {digits : Text} (ne : digits ≠ []) (h : b.Holds size tail w)
    (room : w.length + 1 < size) :
    ∃ b' k, k = min (firstLength digits) (size - 1 - w.length) ∧
      b.putFirstGroup? size w.length digits = some (b', w.length + k, digits.drop k) ∧
      b'.Holds size tail (w ++ digits.take k) := by
  induction digits generalizing b w with
  | nil => exact absurd rfl ne
  | cons c r ih =>
    obtain ⟨b₁, first, h₁⟩ := h.put (by omega) c
    have stops (border : r.length % 3 = 0 ∨ size - 1 ≤ w.length + 1) :
        b.putFirstGroup? size w.length (c :: r) = some (b₁, w.length + 1, r) := by
      rw [putFirstGroup?, first]
      exact if_neg (by omega)
    by_cases border : r.length % 3 = 0
    · refine ⟨b₁, 1, ?_, stops (.inl border), h₁⟩
      rw [firstLength_at_border c border]
      omega
    by_cases space : w.length + 1 < size - 1
    · have more : r ≠ [] := by
        rintro rfl
        exact border rfl
      have next : (w ++ [c]).length = w.length + 1 := List.length_append
      obtain ⟨b₂, k, hk, rest, h₂⟩ := ih more h₁ (by omega)
      rw [next] at hk rest
      refine ⟨b₂, k + 1, ?_, ?_, by rwa [List.take_succ_cons, List.append_cons]⟩
      · rw [hk, firstLength_within c border]
        omega
      · rw [putFirstGroup?, first, List.drop_succ_cons, ← Nat.add_assoc, Nat.add_right_comm, ← rest]
        exact if_pos ⟨more, border, space⟩
    · refine ⟨b₁, 1, ?_, stops (.inr (by omega)), h₁⟩
      rw [firstLength_within c border]
      omega

/-- The place is that of the whole text so far, of which the buffer holds what fits. Once the place is
behind the room, no more groups are written, and none would fit. -/
theorem Holds.putGroups (separator : Text) {digits : Text} (whole : digits.length % 3 = 0)
    (h : b.Holds size tail (fit size w ++ [nul])) :
    ∃ b', b.putGroups? separator size w.length digits = some b' ∧
      b'.Holds size tail
        (fit size (w ++ (digitGroups.groupsOfThree digits).flatMap (separator ++ ·)) ++ [nul]) := by
  induction digits using digitGroups.groupsOfThree.induct generalizing b w with
  | case1 x y z r ih =>
    simp only [List.length_cons] at whole
    rw [digitGroups.groupsOfThree, List.flatMap_cons, ← List.append_assoc]
    by_cases space : w.length < size - 1
    · rw [fit_of_lt (by omega)] at h
      obtain ⟨b₁, printed, h₁⟩ := h.start.print (n := size - w.length) (by omega) (by omega)
        (separator ++ [x, y, z])
      rw [← fit_append (by omega)] at h₁
      obtain ⟨b₂, rest, h₂⟩ := ih (by omega) h₁
      refine ⟨b₂, ?_, h₂⟩
      rw [putGroups?, if_pos space]
      simp only [List.take_succ_cons, List.take_zero, List.drop_succ_cons, List.drop_zero,
        Option.bind_eq_bind]
      rw [printed, Option.bind_some, ← List.length_append, rest]
    · refine ⟨b, ?_, ?_⟩
      · rw [putGroups?, if_neg space]
      · rw [List.append_assoc, fit_append_of_le (by omega)]
        exact h
  | case2 => exact ⟨b, by rw [putGroups?], by rwa [digitGroups.groupsOfThree, List.flatMap_nil,
      List.append_nil]⟩
  | case3 r short ne => exact absurd whole (not_whole_of_short ne short)

theorem length_decimal_le (n : UInt64) : (decimal n.toNat).length ≤ 20 := by
  have bound : n.toNat < 10 ^ 20 := Nat.lt_trans n.toNat_lt (by decide)
  exact (Nat.length_toDigits_le_iff (by decide) (by decide)).mpr bound

theorem holds_printGrouped (two : 2 ≤ size) (room : size ≤ b.length) (separator : Text) (n : UInt64) :
    ∃ written, b.printGrouped? size separator n = some written ∧
      written.Holds size (b.drop size) (fit size (grouped separator n.toNat) ++ [nul]) := by
  have ne : decimal n.toNat ≠ [] := decimal_ne_nil n.toNat
  have digits : fit 64 (decimal n.toNat) = decimal n.toNat := by
    have short := length_decimal_le n
    exact fit_of_lt (by omega)
  rw [printGrouped?, digits, grouped_eq]
  generalize decimal n.toNat = digits at ne
  have some_digit := firstLength_le ne
  obtain ⟨b₁, k, hk, first, h₁⟩ := (holds_nil room).putFirstGroup ne (Nat.lt_of_lt_of_le Nat.one_lt_two two)
  rw [List.nil_append] at h₁
  rw [List.length_nil, Nat.sub_zero] at hk
  rw [List.length_nil, Nat.zero_add] at first
  have written : (digits.take k).length = k := List.length_take_of_le (by omega)
  have front : digits.take k = fit size (digits.take (firstLength digits)) := by
    rw [fit, List.take_take, hk, Nat.min_comm]
  obtain ⟨b₂, ended, h₂⟩ := h₁.put (by omega) nul
  rw [written] at ended
  simp only [Option.bind_eq_bind]
  rw [first, Option.bind_some]
  dsimp only
  rw [ended, Option.bind_some]
  rw [front] at h₂
  by_cases whole : firstLength digits ≤ size - 1
  · have all : (digits.take (firstLength digits)).length = k := by
      rw [List.length_take]
      omega
    obtain ⟨b₃, groups, h₃⟩ := h₂.putGroups separator (length_behind_first ne)
    rw [all] at groups
    rw [show k = firstLength digits by omega] at groups ⊢
    exact ⟨b₃, groups, h₃⟩
  · -- The first group is cut already, and the place stands at the end of the room.
    have full : k = size - 1 := by omega
    refine ⟨b₂, ?_, ?_⟩
    · cases digits.drop k with
      | nil => rw [putGroups?]
      | cons c r => rw [putGroups?, if_neg (by omega)]
    · rw [fit_append_of_le (by rw [List.length_take]; omega)]
      exact h₂

/-- A buffer of two bytes or more gets the front part of the grouped number that fits, and no byte behind its
room is touched. -/
theorem grouped_number_cut_to_room (two : 2 ≤ size) (room : size ≤ b.length) {separator : Text}
    (plain : nul ∉ separator) (n : UInt64) :
    ∃ written, b.printGrouped? size separator n = some written ∧
      (∃ groups, IsGrouping (decimal n.toNat) groups ∧
        written.text = (separator.intercalate groups).take (size - 1)) ∧
      written.length = b.length ∧ written.drop size = b.drop size := by
  obtain ⟨written, printed, h⟩ := holds_printGrouped two room separator n
  have no_end : nul ∉ grouped separator n.toNat := by
    intro hc
    rcases mem_grouped hc with digit | mark
    · exact absurd digit (by decide)
    · exact plain mark
  refine ⟨written, printed, ⟨digitGroups (decimal n.toNat), ?_, ?_⟩, ?_, h.drop⟩
  · exact isGrouping_digitGroups (decimal_ne_nil n.toNat)
  · exact h.text_eq (not_mem_fit no_end size)
  · rw [h.length, List.length_drop, Nat.add_sub_cancel' room]

/-- Five bytes of a number with a separator of two. -/
theorem grouped_number_cut_to_room_five :
    2 ≤ 6 ∧ 6 ≤ (List.replicate 8 '?').length ∧ nul ∉ ("--" : Text) ∧
      ∃ written, printGrouped? (List.replicate 8 '?') 6 "--" 1234567 = some written ∧
        written.text = "1--23" ∧ written.drop 6 = "??" := by
  have two : 2 ≤ 6 := by decide
  have room : 6 ≤ (List.replicate 8 '?').length := by decide
  have plain : nul ∉ ("--" : Text) := by decide
  obtain ⟨written, printed, ⟨groups, grouping, shown⟩, -, behind⟩ :=
    grouped_number_cut_to_room two room plain 1234567
  have cut : groups = ["1", "234", "567"] := grouping.eq_digitGroups (decimal_ne_nil _)
  rw [cut] at shown
  exact ⟨two, room, plain, written, printed, shown, behind⟩

end Buffer

end DriveHealth
