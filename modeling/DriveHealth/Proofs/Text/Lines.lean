import DriveHealth.Proofs.Text.Number
import DriveHealth.Proofs.Text.Parts

/-! Text as lines. Lines hold no line end of their own, so that a text of whole lines tells which
lines it was made of. -/
namespace DriveHealth

/-- A text within a line. -/
def IsLine (t : Text) : Prop := '\n' ∉ t

instance (t : Text) : Decidable (IsLine t) := inferInstanceAs (Decidable ('\n' ∉ t))

/-- Lines, each with its end. -/
def unlines (lines : List Text) : Text := lines.flatMap (· ++ "\n")

/-- A text that consists of given lines. -/
structure HasLines (t : Text) (lines : List Text) : Prop where
  text : t = unlines lines
  within : ∀ line ∈ lines, IsLine line

@[simp] theorem isLine_nil : IsLine [] := List.not_mem_nil

@[simp] theorem isLine_cons {c : Char} {t : Text} : IsLine (c :: t) ↔ '\n' ≠ c ∧ IsLine t := by
  rw [IsLine, List.mem_cons, not_or]
  rfl

@[simp] theorem isLine_append {s t : Text} : IsLine (s ++ t) ↔ IsLine s ∧ IsLine t := by
  rw [IsLine, List.mem_append, not_or]
  rfl

@[simp] theorem isLine_blanks (n : Nat) : IsLine (List.replicate n ' ') := by
  intro h
  exact absurd (List.eq_of_mem_replicate h) (by decide)

@[simp] theorem isLine_padRight {width : Nat} {t : Text} : IsLine (padRight width t) ↔ IsLine t := by
  simp [padRight]

@[simp] theorem isLine_padLeft {width : Nat} {t : Text} : IsLine (padLeft width t) ↔ IsLine t := by
  simp [padLeft]

theorem isLine_onlyIf {condition : Prop} [Decidable condition] {t : Text} (h : IsLine t) :
    IsLine (onlyIf condition t) := by
  rw [onlyIf]
  split
  · exact h
  · exact isLine_nil

@[simp] theorem isLine_toDigits {base : Nat} (hb : 1 < base) (n : Nat) :
    IsLine (Nat.toDigits base n) :=
  not_mem_toDigits (fun _ => Nat.digitChar_ne '\n' (by decide)) hb n

@[simp] theorem isLine_decimal (n : Nat) : IsLine (decimal n) := isLine_toDigits (by decide) n

theorem isLine_zeroFill {t : Text} (h : IsLine t) (width : Nat) : IsLine (zeroFill width t) :=
  not_mem_zeroFill (by decide) h width

@[simp] theorem isLine_decimalFill (width n : Nat) : IsLine (decimalFill width n) := by
  simp [decimalFill, isLine_zeroFill]

@[simp] theorem isLine_hexFill (width n : Nat) : IsLine (hexFill width n) := by
  simp [hexFill, isLine_zeroFill, isLine_toDigits]

@[simp] theorem isLine_signedDecimal (i : Int) : IsLine (signedDecimal i) := by
  rw [signedDecimal]
  split <;> simp

theorem line_end_inj {s t : Text} (hs : IsLine s) (ht : IsLine t) {q r : Text}
    (h : s ++ '\n' :: q = t ++ '\n' :: r) : s = t ∧ q = r :=
  append_mark_inj hs ht h

theorem unlines_cons (line : Text) (lines : List Text) :
    unlines (line :: lines) = line ++ '\n' :: unlines lines := by
  rw [unlines, List.flatMap_cons, List.append_assoc]
  rfl

theorem unlines_append (a b : List Text) : unlines (a ++ b) = unlines a ++ unlines b :=
  List.flatMap_append

theorem unlines_injective {a b : List Text} (ha : ∀ l ∈ a, IsLine l) (hb : ∀ l ∈ b, IsLine l)
    (h : unlines a = unlines b) : a = b := by
  induction a generalizing b with
  | nil =>
    cases b with
    | nil => rfl
    | cons l b => simp [unlines] at h
  | cons l a ih =>
    cases b with
    | nil => simp [unlines] at h
    | cons m b =>
      obtain ⟨first, restA⟩ := List.forall_mem_cons.mp ha
      obtain ⟨first', restB⟩ := List.forall_mem_cons.mp hb
      rw [unlines_cons, unlines_cons] at h
      obtain ⟨rfl, rest⟩ := line_end_inj first first' h
      rw [ih restA restB rest]

theorem HasLines.unique {t : Text} {a b : List Text} (ha : HasLines t a) (hb : HasLines t b) : a = b :=
  unlines_injective ha.within hb.within (ha.text.symm.trans hb.text)

end DriveHealth
