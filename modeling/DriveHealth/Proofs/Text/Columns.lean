import DriveHealth.Proofs.Text.Lines
import Mathlib.Algebra.GroupWithZero.Nat

/-! Text in columns. A line of columns is laid out by widths, so that lines of the same widths have
their columns at the same places, and the words in them can be read from there. -/
namespace DriveHealth

/-! ### Layout -/

/-- Fills every cell up to its width; the last cell has none. -/
def layout : List Nat → List Text → Text
  | width :: widths, cell :: cells => padRight width cell ++ layout widths cells
  | _, cells => cells.flatten

/-- Cells that do not run over their widths. -/
inductive Fits : List Nat → List Text → Prop where
  | last (cell) : Fits [] [cell]
  | cons {width widths cell cells} : cell.length ≤ width → Fits widths cells →
      Fits (width :: widths) (cell :: cells)

theorem Fits.length {widths : List Nat} {cells : List Text} (h : Fits widths cells) :
    cells.length = widths.length + 1 := by
  induction h with
  | last => rfl
  | cons _ _ ih => rw [List.length_cons, ih, List.length_cons]

theorem length_padRight {width : Nat} {t : Text} (h : t.length ≤ width) :
    (padRight width t).length = width := by
  rw [padRight, List.length_append, List.length_replicate, Nat.add_sub_cancel' h]

/-- A column of a text that fits is followed by the blanks that it is wider. -/
theorem padRight_add {width : Nat} {t : Text} (h : t.length ≤ width) (more : Nat) :
    padRight (width + more) t = padRight width t ++ List.replicate more ' ' := by
  rw [padRight, padRight, List.append_assoc, List.replicate_append_replicate,
    Nat.sub_add_comm h]

theorem padRight_of_length {width : Nat} {t : Text} (h : t.length = width) : padRight width t = t := by
  rw [padRight, h, Nat.sub_self, List.replicate_zero, List.append_nil]

/-- A column starts where the widths in front of it end. -/
theorem drop_layout {widths : List Nat} {cells : List Text} (fits : Fits widths cells) {k : Nat}
    (hk : k ≤ widths.length) :
    (layout widths cells).drop (widths.take k).sum = layout (widths.drop k) (cells.drop k) := by
  induction fits generalizing k with
  | last cell =>
    rw [Nat.le_zero.mp hk]
    rfl
  | @cons width widths cell cells h fits ih =>
    cases k with
    | zero => rfl
    | succ k =>
      have wide : (padRight width cell).length = width := length_padRight h
      rw [List.take_succ_cons, List.sum_cons, layout, ← List.drop_drop, List.drop_left' wide,
        ih (Nat.le_of_succ_le_succ hk)]
      rfl

theorem prefix_layout (widths : List Nat) (cell : Text) (cells : List Text) :
    cell <+: layout widths (cell :: cells) := by
  cases widths with
  | nil => exact List.prefix_append cell cells.flatten
  | cons width widths => exact (List.prefix_append cell _).trans (List.prefix_append _ _)

theorem isLine_layout {widths : List Nat} {cells : List Text} (h : ∀ cell ∈ cells, IsLine cell) :
    IsLine (layout widths cells) := by
  induction widths generalizing cells with
  | nil =>
    intro hc
    obtain ⟨cell, mem, inside⟩ := List.mem_flatten.mp hc
    exact h cell mem inside
  | cons width widths ih =>
    cases cells with
    | nil => exact isLine_nil
    | cons cell cells =>
      obtain ⟨first, rest⟩ := List.forall_mem_cons.mp h
      exact isLine_append.mpr ⟨isLine_padRight.mpr first, ih rest⟩

/-! ### Words -/

/-- Where a word stands in a line for the first time. -/
def place (word line : Text) : Nat := line.tails.findIdx word.isPrefixOf

/-- The part of a line from the place of a title in the line of titles on. -/
def below (header title line : Text) : Text := line.drop (place title header)

def firstWord (t : Text) : Text := (t.dropWhile (· = ' ')).takeWhile (· ≠ ' ')

/-- Reads hexadecimal digits behind `0x` or decimal digits. -/
def readNumber? (word : Text) : Option Nat :=
  if startsWith word "0x" then some (ofHex (word.drop 2))
  else if !word.isEmpty && word.all Char.isDigit then some (ofDecimal word)
  else none

/-- The number in the column of a title. -/
def numberBelow (header title line : Text) : Option Nat :=
  readNumber? (firstWord (below header title line))

/-- A cell that holds one word, which is read as a number or as none. -/
inductive Reads : Text → Option Nat → Prop where
  | word {word number} (blanks) : word ≠ [] → ' ' ∉ word → readNumber? word = number →
      Reads (List.replicate blanks ' ' ++ word) number

theorem firstWord_append {word : Text} (ne : word ≠ []) (solid : ' ' ∉ word) (blanks : Nat)
    (rest : Text) : firstWord (List.replicate blanks ' ' ++ word ++ ' ' :: rest) = word := by
  have skipped : (List.replicate blanks ' ' ++ word ++ ' ' :: rest).dropWhile (· = ' ') =
      word ++ ' ' :: rest := by
    rw [List.append_assoc, List.dropWhile_append_of_pos (by simp)]
    cases word with
    | nil => exact absurd rfl ne
    | cons c r =>
      have hc : ¬ (c = ' ') := fun h => solid (h ▸ List.mem_cons_self)
      exact List.dropWhile_cons_of_neg (by simpa using hc)
  have inside : ∀ c ∈ word, decide (c ≠ ' ') = true := by
    intro c hc
    refine decide_eq_true ?_
    rintro rfl
    exact solid hc
  rw [firstWord, skipped, List.takeWhile_append_of_pos inside, List.takeWhile_cons_of_neg (by decide),
    List.append_nil]

/-- A number is read from the start of its column if the column is wider than its cell. -/
theorem Reads.firstWord {cell : Text} {number : Option Nat} (h : Reads cell number)
    {width : Nat} (wide : cell.length < width) (widths : List Nat) (cells : List Text) :
    readNumber? (firstWord (layout (width :: widths) (cell :: cells))) = number := by
  obtain ⟨blanks, ne, solid, value⟩ := h
  obtain ⟨more, hmore⟩ : ∃ more, width - (List.replicate blanks ' ' ++ _).length = more + 1 :=
    Nat.exists_eq_add_one.mpr (Nat.sub_pos_of_lt wide)
  rw [layout, padRight, hmore, List.replicate_succ, List.append_assoc, List.cons_append,
    firstWord_append ne solid, value]

theorem not_startsWith_of_digits {word : Text} (digits : ∀ c ∈ word, c.isDigit = true) :
    startsWith word "0x" = false := by
  rw [startsWith, Bool.eq_false_iff]
  intro start
  have x_mem : 'x' ∈ word :=
    (List.isPrefixOf_iff_prefix.mp start).subset (List.mem_cons_of_mem _ List.mem_cons_self)
  exact absurd (digits 'x' x_mem) (by decide)

theorem reads_digits {word : Text} (ne : word ≠ []) (digits : ∀ c ∈ word, c.isDigit = true)
    (blanks : Nat) : Reads (List.replicate blanks ' ' ++ word) (some (ofDecimal word)) := by
  refine .word blanks ne (fun h => absurd (digits ' ' h) (by decide)) ?_
  have number : (!word.isEmpty && word.all Char.isDigit) = true := by
    simp [ne, List.all_eq_true.mpr digits]
  rw [readNumber?, not_startsWith_of_digits digits, if_neg Bool.false_ne_true, if_pos number]

theorem reads_padLeft_decimal (width n : Nat) : Reads (padLeft width (decimal n)) (some n) := by
  have h := reads_digits (decimal_ne_nil n) (fun _ hc => isDigit_of_mem_decimal hc)
    (width - (decimal n).length)
  rwa [ofDecimal_decimal] at h

theorem reads_decimalFill (width n : Nat) : Reads (decimalFill width n) (some n) := by
  have h := reads_digits (decimalFill_ne_nil width n) (fun _ => isDigit_of_mem_decimalFill) 0
  rwa [ofDecimal_decimalFill] at h

theorem reads_hexFill (width n : Nat) : Reads (hexFill width n) (some n) := by
  have solid : ' ' ∉ hexFill width n := by
    rw [hexFill, List.mem_append, not_or]
    refine ⟨by decide, not_mem_zeroFill (by decide) ?_ width⟩
    exact not_mem_toDigits (fun _ => Nat.digitChar_ne ' ' (by decide)) (by decide) n
  have ne : hexFill width n ≠ [] := List.cons_ne_nil _ _
  have value : readNumber? (hexFill width n) = some n := by
    have start : startsWith (hexFill width n) "0x" = true := rfl
    rw [readNumber?, if_pos start, ofHex_drop_hexFill]
  exact .word 0 ne solid value

end DriveHealth
