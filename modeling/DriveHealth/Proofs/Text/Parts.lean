import DriveHealth.Proofs.Text.Number
import Mathlib.Data.List.Basic

/-! Parts of a text. A cut at a mark and putting the mark back undo each other as long as the part in
front has no mark of its own. The numbers of a text are read between the characters that are no digits. -/
namespace DriveHealth

/-! ### Cuts -/

theorem cutAt_of_not_mem {mark : Char} {t : Text} (h : mark ∉ t) : cutAt mark t = (t, none) := by
  induction t with
  | nil => rfl
  | cons c r ih =>
    obtain ⟨first, rest⟩ := not_or.mp (mt List.mem_cons.mpr h)
    rw [cutAt, if_neg (Ne.symm first), ih rest]

theorem cutAt_append {mark : Char} {s : Text} (h : mark ∉ s) (r : Text) :
    cutAt mark (s ++ mark :: r) = (s, some r) := by
  induction s with
  | nil => rw [List.nil_append, cutAt, if_pos rfl]
  | cons c s ih =>
    obtain ⟨first, rest⟩ := not_or.mp (mt List.mem_cons.mpr h)
    rw [List.cons_append, cutAt, if_neg (Ne.symm first), ih rest]

theorem append_mark_inj {mark : Char} {s t : Text} (hs : mark ∉ s) (ht : mark ∉ t) {q r : Text}
    (h : s ++ mark :: q = t ++ mark :: r) : s = t ∧ q = r := by
  have cut := cutAt_append hs q
  rw [h, cutAt_append ht r] at cut
  cases cut
  exact ⟨rfl, rfl⟩

/-- What a text was in front of its cut. -/
theorem eq_of_cutAt {mark : Char} {t s : Text} {behind : Option Text}
    (h : cutAt mark t = (s, behind)) : t = s ++ behind.elim [] (mark :: ·) := by
  induction t generalizing s with
  | nil =>
    cases h
    rfl
  | cons c r ih =>
    rw [cutAt] at h
    split at h
    · rename_i hc
      cases h
      rw [hc]
      rfl
    · cases h
      rw [List.cons_append, ← ih rfl]

theorem mark_not_mem_cut {mark : Char} {t s : Text} {behind : Option Text}
    (h : cutAt mark t = (s, behind)) : mark ∉ s := by
  induction t generalizing s with
  | nil =>
    cases h
    exact List.not_mem_nil
  | cons c r ih =>
    rw [cutAt] at h
    split at h
    · cases h
      exact List.not_mem_nil
    · rename_i hc
      cases h
      intro hm
      rcases List.mem_cons.mp hm with hm | hm
      · exact hc hm.symm
      · exact ih rfl hm

/-- A signed number ends at the first character that is no digit. -/
theorem signedDecimal_append_inj {c : Char} (h : c.isDigit = false) (minus : c ≠ '-') {i j : Int}
    {x y : Text} (same : signedDecimal i ++ c :: x = signedDecimal j ++ c :: y) : i = j ∧ x = y := by
  obtain ⟨number, rest⟩ := append_mark_inj (not_mem_signedDecimal h minus i)
    (not_mem_signedDecimal h minus j) same
  exact ⟨signedDecimal_injective number, rest⟩

/-! ### Numbers -/

/-- The runs of decimal digits in a text as numbers. -/
def numbersIn (t : Text) : List Nat :=
  ((t.splitOnP fun c => !c.isDigit).filter (!·.isEmpty)).map ofDecimal

theorem numbersIn_nil : numbersIn [] = [] := rfl

/-- Numbers on both sides of a character that is no digit have nothing to do with each other. -/
theorem numbersIn_append {c : Char} (hc : c.isDigit = false) (s t : Text) :
    numbersIn (s ++ c :: t) = numbersIn s ++ numbersIn t := by
  have separates : (!c.isDigit) = true := by rw [hc]; rfl
  rw [numbersIn, List.splitOnP_append_cons s t separates, List.filter_append, List.map_append]
  rfl

theorem numbersIn_cons {c : Char} (hc : c.isDigit = false) (t : Text) :
    numbersIn (c :: t) = numbersIn t :=
  numbersIn_append hc [] t

/-- A part that is left out takes its numbers with it. -/
theorem numbersIn_onlyIf (condition : Prop) [Decidable condition] (t : Text) :
    numbersIn (onlyIf condition t) = if condition then numbersIn t else [] := by
  rw [onlyIf]
  split
  · rfl
  · exact numbersIn_nil

theorem numbersIn_append_onlyIf {c : Char} (hc : c.isDigit = false) (condition : Prop)
    [Decidable condition] (s t : Text) :
    numbersIn (s ++ onlyIf condition (c :: t)) =
      numbersIn s ++ if condition then numbersIn t else [] := by
  rw [onlyIf]
  split
  · exact numbersIn_append hc s t
  · rw [List.append_nil, List.append_nil]

theorem numbersIn_digits {digits : Text} (ne : digits ≠ [])
    (h : ∀ c ∈ digits, c.isDigit = true) : numbersIn digits = [ofDecimal digits] := by
  have whole : ∀ c ∈ digits, (!c.isDigit) = false := by
    intro c hc
    rw [h c hc]
    rfl
  rw [numbersIn, List.splitOnP_eq_singleton whole]
  simp [ne]

theorem numbersIn_decimal (n : Nat) : numbersIn (decimal n) = [n] := by
  rw [numbersIn_digits (decimal_ne_nil n) fun _ => isDigit_of_mem_decimal, ofDecimal_decimal]

theorem numbersIn_decimalFill (width n : Nat) : numbersIn (decimalFill width n) = [n] := by
  rw [numbersIn_digits (decimalFill_ne_nil width n) fun _ => isDigit_of_mem_decimalFill,
    ofDecimal_decimalFill]

end DriveHealth
