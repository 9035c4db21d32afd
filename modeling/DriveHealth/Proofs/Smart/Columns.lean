import DriveHealth.Proofs.Attribute.RawText
import DriveHealth.Proofs.Text.Columns
import DriveHealth.Smart.Table
import Mathlib.Data.List.Forall2
import Mathlib.Data.Nat.Bitwise

/-! Lines of the attribute table as something to read. Every line is laid out like the line of titles,
so that the columns below the titles tell the record. -/
namespace DriveHealth

/-! ### Flags as letters -/

/-- The bits that letters stand for, the lowest first. A letter that differs stands for no bit. -/
def bitsOf : (letters t : Text) → Nat
  | letter :: letters, c :: t => (if c = letter then 1 else 0) + 2 * bitsOf letters t
  | _, _ => 0

/-- The six flags with a letter as a number, and whether there are others. -/
def letterFlags (t : Text) : Nat × Bool := (bitsOf "POSRCK" t, t[6]? = some '+')

theorem testBit_of_mask {mask : UInt16} {i : Nat} (hm : mask.toNat = 2 ^ i) (flags : UInt16) :
    decide (flags &&& mask ≠ 0) = flags.toNat.testBit i := by
  have value : (flags &&& mask).toNat = (flags.toNat.testBit i).toNat * 2 ^ i := by
    rw [UInt16.toNat_and, hm, Nat.and_two_pow]
  have zero : flags &&& mask = 0 ↔ (flags &&& mask).toNat = 0 := UInt16.toNat_inj.symm
  cases bit : flags.toNat.testBit i with
  | false =>
    rw [bit, Bool.toNat_false, Nat.zero_mul] at value
    simp [zero.mpr value]
  | true =>
    rw [bit, Bool.toNat_true, Nat.one_mul] at value
    simp [zero, value]

theorem others_of_mask (flags : UInt16) :
    decide (flags &&& 0xffc0 ≠ 0) = decide (64 ≤ flags.toNat) := by
  have bound := flags.toNat_lt
  have value : (flags &&& 0xffc0).toNat = flags.toNat &&& 0xffc0 := UInt16.toNat_and _ _
  have zero : flags &&& 0xffc0 = 0 ↔ (flags &&& 0xffc0).toNat = 0 := UInt16.toNat_inj.symm
  have high : (flags.toNat &&& 0xffc0) / 64 = flags.toNat / 64 := by
    have shifted := Nat.shiftRight_and_distrib (a := flags.toNat) (b := 0xffc0) (i := 6)
    have mask : flags.toNat >>> 6 &&& 0xffc0 >>> 6 = flags.toNat >>> 6 % 2 ^ 10 :=
      Nat.and_two_pow_sub_one_eq_mod _ 10
    rw [mask, Nat.shiftRight_eq_div_pow, Nat.shiftRight_eq_div_pow] at shifted
    omega
  have low : (flags.toNat &&& 0xffc0) % 64 = 0 := by
    have split : (flags.toNat &&& 0xffc0) % 2 ^ 6 = flags.toNat % 2 ^ 6 &&& 0xffc0 % 2 ^ 6 :=
      Nat.and_mod_two_pow
    exact split.trans (Nat.and_zero _)
  rw [decide_eq_decide, ne_eq, zero, value]
  omega

/-- A letter is read back as the bit it was written for. -/
theorem letter_bit {letter : Char} (h : letter ≠ '-') (bit : Bool) :
    (if (if bit = true then letter else '-') = letter then 1 else 0) = bit.toNat := by
  cases bit with
  | false => simp [h.symm]
  | true => simp

theorem letterFlags_append (r : AttributeRecord) (t : Text) :
    letterFlags (TableStyle.flagLetters r ++ t) =
      (r.flags.toNat % 64, decide (64 ≤ r.flags.toNat)) := by
  have letters : bitsOf "POSRCK" (TableStyle.flagLetters r ++ t) =
      r.isPrefailure.toNat + 2 * (r.isOnline.toNat + 2 * (r.isPerformance.toNat +
        2 * (r.isErrorRate.toNat + 2 * (r.isEventCount.toNat + 2 * r.isSelfPreserving.toNat)))) := by
    change bitsOf ['P', 'O', 'S', 'R', 'C', 'K'] (TableStyle.flagLetters r ++ t) = _
    simp only [TableStyle.flagLetters, List.cons_append, bitsOf]
    rw [letter_bit (by decide), letter_bit (by decide), letter_bit (by decide), letter_bit (by decide),
      letter_bit (by decide), letter_bit (by decide)]
    rfl
  have bits : bitsOf "POSRCK" (TableStyle.flagLetters r ++ t) = r.flags.toNat % 64 := by
    rw [letters, AttributeRecord.isPrefailure, AttributeRecord.isOnline, AttributeRecord.isPerformance,
      AttributeRecord.isErrorRate, AttributeRecord.isEventCount, AttributeRecord.isSelfPreserving,
      testBit_of_mask (i := 0) rfl, testBit_of_mask (i := 1) rfl, testBit_of_mask (i := 2) rfl,
      testBit_of_mask (i := 3) rfl, testBit_of_mask (i := 4) rfl, testBit_of_mask (i := 5) rfl]
    simp only [Nat.toNat_testBit]
    omega
  have others : (TableStyle.flagLetters r ++ t)[6]? =
      some (if r.hasOtherFlags = true then '+' else ' ') := rfl
  have plus : decide ((TableStyle.flagLetters r ++ t)[6]? = some '+') = r.hasOtherFlags := by
    rw [others]
    cases r.hasOtherFlags <;> rfl
  rw [letterFlags, bits, plus, AttributeRecord.hasOtherFlags, others_of_mask]

namespace TableStyle

/-! ### Columns -/

/-- The widths of the columns that the brief layout does without. -/
def kindWidths (style : TableStyle) : List Nat := if style.isBrief then [] else [10, 9]

def kindTitles (style : TableStyle) : List Text := if style.isBrief then [] else ["TYPE", "UPDATED"]

def kindCells (style : TableStyle) (r : AttributeRecord) : List Text :=
  if style.isBrief then []
  else [if r.isPrefailure then "Pre-fail" else "Old_age", if r.isOnline then "Always" else "Offline"]

/-- The widths of all columns but the last one. -/
def widths (style : TableStyle) : List Nat :=
  (if style.hexIds then 5 else 4) :: 24 :: 9 :: 6 :: 6 :: 7 :: style.kindWidths

def flagsTitle (style : TableStyle) : Text := if style.isBrief then "FLAGS" else "FLAG"

def titles (style : TableStyle) : List Text :=
  "ID#" :: "ATTRIBUTE_NAME" :: style.flagsTitle :: "VALUE" :: "WORST" :: "RSRVD" ::
    (style.kindTitles ++ [("RAW_VALUE" : Text)])

def flagsText (style : TableStyle) (r : AttributeRecord) : Text :=
  if style.isBrief then flagLetters r else hexFill 4 r.flags.toNat

/-- A normalized value, or dashes for one that the rule hides. -/
def normalizedText (style : TableStyle) (isHidden : Bool) (value : UInt8) : Text :=
  if isHidden then style.hiddenText else style.valueText value

def cells (style : TableStyle) (preset : Preset) (r : AttributeRecord) : List Text :=
  let hidden := preset.rule.hidden
  style.idText r.id :: preset.name :: style.flagsText r ::
    style.normalizedText hidden.current r.current :: style.normalizedText hidden.worst r.worst ::
    style.valueText r.reserved :: (style.kindCells r ++ [r.rawText preset.rule])

def headerRow (style : TableStyle) : Text := layout style.widths style.titles

def row (style : TableStyle) (preset : Preset) (r : AttributeRecord) : Text :=
  layout style.widths (style.cells preset r)

theorem header_eq (style : TableStyle) : style.header = style.headerRow ++ "\n" := by
  -- The header does not look at the style of the values.
  have all : ∀ isBrief hexIds : Bool,
      header { isBrief, hexIds } = headerRow { isBrief, hexIds } ++ "\n" := by
    unfold header
    simp -index only [String.toList_ofList]
    decide +kernel
  exact all style.isBrief style.hexIds

/-- Every title stands first at the start of its column. -/
theorem places (style : TableStyle) :
    style.titles.map (place · style.headerRow) =
      (List.range (style.widths.length + 1)).map fun k => (style.widths.take k).sum := by
  have all : ∀ isBrief hexIds : Bool,
      (titles { isBrief, hexIds }).map (place · (headerRow { isBrief, hexIds })) =
        (List.range ((widths { isBrief, hexIds }).length + 1)).map fun k =>
          ((widths { isBrief, hexIds }).take k).sum := by decide +kernel
  exact all style.isBrief style.hexIds

theorem length_idText (style : TableStyle) (id : UInt8) :
    (style.idText id).length = if style.hexIds then 4 else 3 := by
  have small : id.toNat < 256 := id.toNat_lt
  rw [idText]
  split
  · exact length_hexFill (by decide) small
  · rw [padLeft, List.length_append, List.length_replicate]
    have fits : (decimal id.toNat).length ≤ 3 :=
      (Nat.length_toDigits_le_iff (by decide) (by decide)).mpr (by omega)
    omega

theorem length_valueText (style : TableStyle) (value : UInt8) : (style.valueText value).length ≤ 4 := by
  have small : value.toNat < 256 := value.toNat_lt
  rw [valueText]
  split
  · exact Nat.le_of_eq (length_hexFill (by decide) small)
  · rw [length_decimalFill (by decide) (by omega : value.toNat < 10 ^ 3)]
    decide

theorem length_hiddenText (style : TableStyle) : style.hiddenText.length ≤ 4 := by
  rw [hiddenText]
  split <;> decide

theorem length_normalizedText (style : TableStyle) (isHidden : Bool) (value : UInt8) :
    (style.normalizedText isHidden value).length ≤ 4 := by
  rw [normalizedText]
  split
  · exact style.length_hiddenText
  · exact style.length_valueText value

theorem line_eq (style : TableStyle) (preset : Preset) (r : AttributeRecord) :
    style.line preset r = style.row preset r ++ "\n" := by
  have id : padRight (if style.hexIds then 5 else 4) (style.idText r.id) = style.idText r.id ++ " " := by
    have length := style.length_idText r.id
    have width : (if style.hexIds then 5 else 4) = (style.idText r.id).length + 1 := by
      rw [length]
      split <;> rfl
    rw [width, padRight_add (Nat.le_refl _) 1, padRight_of_length rfl]
    rfl
  have number : padRight 9 (hexFill 4 r.flags.toNat) = hexFill 4 r.flags.toNat ++ "   " := by
    have length : (hexFill 4 r.flags.toNat).length = 6 :=
      length_hexFill (by decide) r.flags.toNat_lt
    rw [padRight_add (Nat.le_of_eq length) 3, padRight_of_length length]
    rfl
  have letters : padRight 9 (flagLetters r) = flagLetters r ++ "  " := rfl
  have value {t : Text} (h : t.length ≤ 4) : padRight 6 t = padRight 4 t ++ "  " := padRight_add h 2
  have reserved {t : Text} (h : t.length ≤ 4) : padRight 7 t = padRight 4 t ++ "   " := padRight_add h 3
  simp only [row, widths, cells, layout, id, value (style.length_normalizedText _ _),
    reserved (style.length_valueText _)]
  rw [line, valueColumns]
  cases hb : style.isBrief with
  | true =>
    simp only [kindWidths, kindCells, flagsText, hb, letters, layout, normalizedText,
      if_true, List.nil_append, List.flatten_singleton, List.append_assoc]
  | false =>
    simp only [kindWidths, kindCells, flagsText, hb, number, layout, normalizedText,
      Bool.false_eq_true, if_false, List.cons_append, List.nil_append, List.flatten_singleton,
      List.append_assoc]

theorem kindTitles_fit (style : TableStyle) (last : Text) :
    Fits style.kindWidths (style.kindTitles ++ [last]) := by
  rw [kindWidths, kindTitles]
  split
  · exact .last last
  · exact .cons (by decide) <| .cons (by decide) <| .last last

theorem kindCells_fit (style : TableStyle) (r : AttributeRecord) (last : Text) :
    Fits style.kindWidths (style.kindCells r ++ [last]) := by
  rw [kindWidths, kindCells]
  split
  · exact .last last
  · refine .cons ?_ <| .cons ?_ <| .last last
    · split <;> decide
    · split <;> decide

theorem length_kindTitles (style : TableStyle) : style.kindTitles.length = style.kindWidths.length := by
  rw [kindTitles, kindWidths]
  split <;> rfl

theorem length_kindCells (style : TableStyle) (r : AttributeRecord) :
    (style.kindCells r).length = style.kindWidths.length := by
  rw [kindCells, kindWidths]
  split <;> rfl

theorem titles_fit (style : TableStyle) : Fits style.widths style.titles := by
  refine .cons ?_ <| .cons (by decide) <| .cons ?_ <| .cons (by decide) <| .cons (by decide) <|
    .cons (by decide) (style.kindTitles_fit _)
  · split <;> decide
  · rw [flagsTitle]
    split <;> decide

theorem length_flagsText (style : TableStyle) (r : AttributeRecord) :
    (style.flagsText r).length < 9 := by
  rw [flagsText]
  split
  · exact (by decide : 7 < 9)
  · rw [length_hexFill (by decide) r.flags.toNat_lt]
    decide

theorem cells_fit (style : TableStyle) {preset : Preset} (name : preset.name.length ≤ 24)
    (r : AttributeRecord) : Fits style.widths (style.cells preset r) := by
  have normalized (isHidden : Bool) (value : UInt8) := style.length_normalizedText isHidden value
  have reserved := style.length_valueText r.reserved
  refine .cons ?_ <| .cons name <| .cons (Nat.le_of_lt (style.length_flagsText r)) <|
    .cons ((normalized _ _).trans (by decide)) <| .cons ((normalized _ _).trans (by decide)) <|
    .cons (reserved.trans (by decide)) (style.kindCells_fit r _)
  rw [length_idText]
  split <;> decide

/-- What stands below a title is the cell in its column and all behind it. -/
theorem below_title (style : TableStyle) {k : Nat} {title : Text} (ht : style.titles[k]? = some title)
    {cells : List Text} (fits : Fits style.widths cells) :
    below style.headerRow title (layout style.widths cells) =
      layout (style.widths.drop k) (cells.drop k) := by
  have length : style.titles.length = style.widths.length + 1 := style.titles_fit.length
  have inside : k < style.widths.length + 1 := by
    rw [← length]
    exact (List.getElem?_eq_some_iff.mp ht).1
  have start : place title style.headerRow = (style.widths.take k).sum := by
    have at_k := congrArg (·[k]?) style.places
    simpa [ht, List.getElem?_range inside] using at_k
  rw [below, start, drop_layout fits (Nat.le_of_lt_succ inside)]

/-! ### Reading a line -/

/-- A line that can be read back: it has the columns of the header, every cell starts below its title,
and the columns tell the record, apart from normalized values that are hidden. -/
structure ReadsBack (style : TableStyle) (preset : Preset) (r : AttributeRecord) (header line : Text) :
    Prop where
  laidOut : ∃ widths, Fits widths style.titles ∧ Fits widths (style.cells preset r) ∧
    header = layout widths style.titles ∧ line = layout widths (style.cells preset r)
  columns : List.Forall₂ (fun title cell => cell <+: below header title line) style.titles
    (style.cells preset r)
  id : numberBelow header "ID#" line = some r.id.toNat
  flags : style.isBrief = false → numberBelow header "FLAG" line = some r.flags.toNat
  letters : style.isBrief = true →
    letterFlags (below header "FLAGS" line) = (r.flags.toNat % 64, decide (64 ≤ r.flags.toNat))
  current : numberBelow header "VALUE" line =
    if preset.rule.hidden.current then none else some r.current.toNat
  worst : numberBelow header "WORST" line =
    if preset.rule.hidden.worst then none else some r.worst.toNat
  reserved : numberBelow header "RSRVD" line = some r.reserved.toNat
  raw : below header "RAW_VALUE" line = r.rawText preset.rule

theorem reads_idText (style : TableStyle) (id : UInt8) : Reads (style.idText id) (some id.toNat) := by
  rw [idText]
  split
  · exact reads_hexFill 2 id.toNat
  · exact reads_padLeft_decimal 3 id.toNat

theorem reads_valueText (style : TableStyle) (value : UInt8) :
    Reads (style.valueText value) (some value.toNat) := by
  rw [valueText]
  split
  · exact reads_hexFill 2 value.toNat
  · exact reads_decimalFill 3 value.toNat

theorem reads_hiddenText (style : TableStyle) : Reads style.hiddenText none := by
  have dashes : Reads "---" none := .word 0 (by decide) (by decide) (by decide)
  have fourDashes : Reads "----" none := .word 0 (by decide) (by decide) (by decide)
  rw [hiddenText]
  split
  · exact fourDashes
  · exact dashes

theorem reads_normalizedText (style : TableStyle) (isHidden : Bool) (value : UInt8) :
    Reads (style.normalizedText isHidden value) (if isHidden then none else some value.toNat) := by
  cases isHidden with
  | true => exact style.reads_hiddenText
  | false => exact style.reads_valueText value

/-- A column that is wider than its cell is read as the cell is. -/
theorem numberBelow_title (style : TableStyle) {k : Nat} {title : Text}
    (ht : style.titles[k]? = some title) {cells : List Text} (fits : Fits style.widths cells)
    {width : Nat} {widths : List Nat} (hw : style.widths.drop k = width :: widths)
    {cell : Text} {behind : List Text} (hc : cells.drop k = cell :: behind)
    {number : Option Nat} (reads : Reads cell number) (wide : cell.length < width) :
    numberBelow style.headerRow title (layout style.widths cells) = number := by
  rw [numberBelow, style.below_title ht fits, hw, hc]
  exact reads.firstWord wide widths behind

theorem row_readsBack (style : TableStyle) {preset : Preset} (name : preset.name.length ≤ 24)
    (r : AttributeRecord) : style.ReadsBack preset r style.headerRow (style.row preset r) := by
  have fits := style.cells_fit name r
  have narrow {t : Text} {width : Nat} (h : t.length ≤ 4) (hw : 4 < width) : t.length < width :=
    Nat.lt_of_le_of_lt h hw
  constructor
  case laidOut => exact ⟨style.widths, style.titles_fit, fits, rfl, rfl⟩
  case columns =>
    refine List.forall₂_of_length_eq_of_get (style.titles_fit.length.trans fits.length.symm) ?_
    intro i hi hi'
    simp only [List.get_eq_getElem]
    rw [row, style.below_title (List.getElem?_eq_getElem hi) fits, List.drop_eq_getElem_cons hi']
    exact prefix_layout _ _ _
  case id =>
    refine style.numberBelow_title (k := 0) rfl fits rfl rfl (style.reads_idText r.id) ?_
    rw [length_idText]
    split <;> decide
  case flags =>
    intro plain
    have title : style.titles[2]? = some ("FLAG" : Text) := by
      change some style.flagsTitle = _
      rw [flagsTitle, plain]
      rfl
    have cell : style.flagsText r = hexFill 4 r.flags.toNat := by
      rw [flagsText, plain]
      rfl
    refine style.numberBelow_title (k := 2) title fits rfl rfl ?_ (style.length_flagsText r)
    rw [cell]
    exact reads_hexFill 4 r.flags.toNat
  case letters =>
    intro brief
    have title : style.titles[2]? = some ("FLAGS" : Text) := by
      change some style.flagsTitle = _
      rw [flagsTitle, brief]
      rfl
    have cell : style.flagsText r = flagLetters r := by
      rw [flagsText, brief]
      rfl
    rw [row, style.below_title title fits]
    change letterFlags (padRight 9 (style.flagsText r) ++ _) = _
    rw [cell, padRight, List.append_assoc]
    exact letterFlags_append r _
  case current =>
    exact style.numberBelow_title (k := 3) rfl fits rfl rfl (style.reads_normalizedText _ _)
      (narrow (style.length_normalizedText _ _) (by decide))
  case worst =>
    exact style.numberBelow_title (k := 4) rfl fits rfl rfl (style.reads_normalizedText _ _)
      (narrow (style.length_normalizedText _ _) (by decide))
  case reserved =>
    exact style.numberBelow_title (k := 5) rfl fits rfl rfl (style.reads_valueText _)
      (narrow (style.length_valueText _) (by decide))
  case raw =>
    have title : style.titles[style.kindWidths.length + 6]? = some ("RAW_VALUE" : Text) := by
      change (style.kindTitles ++ [("RAW_VALUE" : Text)])[style.kindWidths.length]? = _
      rw [← length_kindTitles]
      exact List.getElem?_concat_length
    have last : (style.cells preset r).drop (style.kindWidths.length + 6) =
        [r.rawText preset.rule] := by
      change (style.kindCells r ++ [r.rawText preset.rule]).drop style.kindWidths.length = _
      rw [← length_kindCells style r]
      exact List.drop_left
    have none_left : style.widths.drop (style.kindWidths.length + 6) = [] := by
      change style.kindWidths.drop style.kindWidths.length = _
      exact List.drop_length
    rw [row, style.below_title title fits, none_left, last]
    exact List.flatten_singleton

/-! ### Lines of the table -/

theorem isLine_headerRow (style : TableStyle) : IsLine style.headerRow := by
  have titles_within : ∀ isBrief hexIds : Bool, ∀ title ∈ titles { isBrief, hexIds }, IsLine title := by
    decide +kernel
  exact isLine_layout (titles_within style.isBrief style.hexIds)

theorem isLine_idText (style : TableStyle) (id : UInt8) : IsLine (style.idText id) := by
  rw [idText]
  split <;> simp

theorem isLine_valueText (style : TableStyle) (value : UInt8) : IsLine (style.valueText value) := by
  rw [valueText]
  split <;> simp

theorem isLine_hiddenText (style : TableStyle) : IsLine style.hiddenText := by
  rw [hiddenText]
  split <;> decide

theorem isLine_flagLetters (r : AttributeRecord) : IsLine (flagLetters r) := by
  have letter {c d : Char} (hc : '\n' ≠ c) (hd : '\n' ≠ d) (bit : Bool) :
      '\n' ≠ if bit = true then c else d := by
    cases bit with
    | false => exact hd
    | true => exact hc
  rw [flagLetters]
  simp only [isLine_cons, isLine_nil, and_true]
  exact ⟨letter (by decide) (by decide) _, letter (by decide) (by decide) _,
    letter (by decide) (by decide) _, letter (by decide) (by decide) _,
    letter (by decide) (by decide) _, letter (by decide) (by decide) _,
    letter (by decide) (by decide) _⟩

theorem isLine_kindCells (style : TableStyle) (r : AttributeRecord) :
    ∀ cell ∈ style.kindCells r, IsLine cell := by
  rw [kindCells]
  split
  · exact fun _ h => nomatch h
  · refine List.forall_mem_cons.mpr ⟨?_, List.forall_mem_singleton.mpr ?_⟩
    · split <;> decide
    · split <;> decide

theorem isLine_row (style : TableStyle) {preset : Preset} (name : IsLine preset.name)
    (r : AttributeRecord) : IsLine (style.row preset r) := by
  have flags : IsLine (style.flagsText r) := by
    rw [flagsText]
    split
    · exact isLine_flagLetters r
    · exact isLine_hexFill 4 _
  have normalized (isHidden : Bool) (value : UInt8) :
      IsLine (style.normalizedText isHidden value) := by
    cases isHidden with
    | true => exact style.isLine_hiddenText
    | false => exact style.isLine_valueText value
  apply isLine_layout
  simp only [cells, List.forall_mem_cons, List.forall_mem_append]
  exact ⟨style.isLine_idText r.id, name, flags, normalized _ _, normalized _ _,
    style.isLine_valueText r.reserved, style.isLine_kindCells r, r.isLine_rawText preset.rule,
    fun _ h => nomatch h⟩

/-- The lines of the legend, which hang below the letters of the flags. -/
def legendLines (style : TableStyle) : List Text :=
  ["||||||_ K auto-keep", "|||||__ C event count", "||||___ R error rate",
   "|||____ S speed/performance", "||_____ O updated online", "|______ P prefailure warning"].map
    fun t => padRight (if style.hexIds then 29 else 28) [] ++ t

theorem legend_hasLines (style : TableStyle) : HasLines style.legend style.legendLines := by
  have all : ∀ hexIds : Bool, legend { hexIds } = unlines (legendLines { hexIds }) ∧
      ∀ line ∈ legendLines { hexIds }, IsLine line := by
    unfold legend legendLines
    simp -index only [String.toList_ofList]
    decide +kernel
  obtain ⟨text, within⟩ := all style.hexIds
  exact ⟨text, within⟩

end TableStyle

end DriveHealth
