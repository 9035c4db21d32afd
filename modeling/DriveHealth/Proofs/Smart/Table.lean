import DriveHealth.Proofs.Attribute.Presets
import DriveHealth.Proofs.Bytes
import DriveHealth.Proofs.Smart.Columns
import Mathlib.Data.List.TakeWhile

/-! The attribute table as a whole: which lines it has, and that it ends where the records end. -/
namespace DriveHealth

namespace AttributeRecord

theorem length_toBytes (r : AttributeRecord) : r.toBytes.length = 12 := by
  simp [toBytes, length_toLittleEndian]

theorem toBytes_injective {r s : AttributeRecord} (h : r.toBytes = s.toBytes) : r = s := by
  obtain ⟨h, reserved⟩ := List.append_inj' h rfl
  obtain ⟨h, vendor⟩ := List.append_inj' h (by simp)
  obtain ⟨h, values⟩ := List.append_inj' h rfl
  obtain ⟨id, flags⟩ := List.cons.inj h
  simp only [List.cons.injEq, and_true] at values reserved
  have flags_eq := word_toLittleEndian_inj flags
  have vendor_eq := Vector.toList_inj.mp vendor
  obtain ⟨rid, rflags, rcurrent, rworst, rvendor, rreserved⟩ := r
  simp_all

end AttributeRecord

namespace SmartPage

def headLines (p : SmartPage) (style : TableStyle) : List Text :=
  ["SMART Attributes Data Structure revision number: " ++ decimal p.revision.toNat,
   "Vendor Specific SMART Attributes:", style.headerRow]

/-- A table has three lines of heading, a line for each record, the legend and an empty line. -/
theorem table_hasLines {p : SmartPage} (some_records : p.records ≠ []) {presets : Presets}
    (names : ∀ e ∈ presets.entries, IsLine e.2.name) (style : TableStyle) :
    HasLines (p.table presets style)
      (p.headLines style ++ (p.records.map fun r => style.row (presets.ofId r.id) r) ++
        (if style.isBrief then style.legendLines else []) ++ [[]]) := by
  have name (id : UInt8) : IsLine (presets.ofId id).name := by
    rcases presets.ofId_eq id with none | ⟨e, he, same⟩
    · rw [none]
      exact isLine_nil
    · rw [← same]
      exact names e he
  have rows (records : List AttributeRecord) :
      (records.flatMap fun r => style.line (presets.ofId r.id) r) =
        unlines (records.map fun r => style.row (presets.ofId r.id) r) := by
    rw [unlines, List.flatMap_map]
    exact List.flatMap_congr fun r _ => style.line_eq _ r
  have legend : onlyIf style.isBrief style.legend =
      unlines (if style.isBrief then style.legendLines else []) := by
    rw [onlyIf, style.legend_hasLines.text]
    split <;> rfl
  have vendor : ("Vendor Specific SMART Attributes:\n" : Text) =
      "Vendor Specific SMART Attributes:" ++ "\n" := rfl
  have head : unlines (p.headLines style) =
      "SMART Attributes Data Structure revision number: " ++ decimal p.revision.toNat ++ "\n" ++
        "Vendor Specific SMART Attributes:\n" ++ style.header := by
    rw [style.header_eq, vendor]
    simp only [unlines, headLines, List.flatMap_cons, List.flatMap_nil, List.append_assoc,
      List.append_nil]
  constructor
  · rw [table]
    split
    · rename_i no_records
      exact absurd no_records some_records
    · rw [unlines_append, unlines_append, unlines_append, head, ← rows, ← legend]
      rfl
  · simp only [List.forall_mem_append]
    refine ⟨⟨⟨?_, ?_⟩, ?_⟩, by simp⟩
    · have revision : IsLine "SMART Attributes Data Structure revision number: " := by decide +kernel
      have vendor : IsLine "Vendor Specific SMART Attributes:" := by decide +kernel
      simp only [headLines, List.forall_mem_cons]
      exact ⟨isLine_append.mpr ⟨revision, isLine_decimal _⟩, vendor, style.isLine_headerRow,
        List.forall_mem_nil _⟩
    · intro line h
      obtain ⟨r, -, rfl⟩ := List.mem_map.mp h
      exact style.isLine_row (name r.id) r
    · split
      · exact style.legend_hasLines.within
      · exact List.forall_mem_nil _

/-! ### The end of the records -/

theorem records_eq_take (p : SmartPage) :
    p.records = p.attributes.toList.take p.records.length :=
  List.prefix_iff_eq_take.mp (List.takeWhile_prefix _)

theorem id_of_mem_records {p : SmartPage} {r : AttributeRecord} (h : r ∈ p.records) : r.id ≠ 0 := by
  have used := List.mem_takeWhile_imp (p := fun r : AttributeRecord => decide (r.id ≠ 0)) h
  exact of_decide_eq_true used

theorem id_behind_records {p : SmartPage} (h : p.records.length < 30) :
    p.attributes[p.records.length].id = 0 := by
  have first : p.records = p.attributes.toList.take (p.attributes.toList.findIdx (·.id = 0)) := by
    rw [records, List.takeWhile_eq_take_findIdx_not]
    simp
  have length : p.records.length = p.attributes.toList.findIdx (·.id = 0) := by
    rw [first, List.length_take, Nat.min_eq_left List.findIdx_le_length]
  have inside : p.attributes.toList.findIdx (·.id = 0) < p.attributes.toList.length := by
    rw [← length, Vector.length_toList]
    exact h
  have zero := List.findIdx_getElem (w := inside)
  simp only [← length, decide_eq_true_eq] at zero
  exact zero

/-- Records with the same bytes up to the first id that is zero are the same up to there. -/
theorem takeWhile_eq_of_bytes {a b : List AttributeRecord} (length : a.length = b.length)
    {x y : List UInt8}
    (h : (a.flatMap AttributeRecord.toBytes ++ x).take
        (12 * (a.takeWhile (·.id ≠ 0)).length + 1) =
      (b.flatMap AttributeRecord.toBytes ++ y).take
        (12 * (a.takeWhile (·.id ≠ 0)).length + 1)) :
    a.takeWhile (·.id ≠ 0) = b.takeWhile (·.id ≠ 0) := by
  induction a generalizing b with
  | nil => rw [List.length_eq_zero_iff.mp length.symm]
  | cons r a ih =>
    cases b with
    | nil => cases length
    | cons s b =>
      rw [List.flatMap_cons, List.flatMap_cons, List.append_assoc, List.append_assoc,
        List.takeWhile_cons] at h
      rw [List.takeWhile_cons, List.takeWhile_cons]
      by_cases zero : r.id = 0
      · rw [if_neg (by simpa using zero)] at h ⊢
        have id : r.id = s.id := (List.cons.inj h).1
        rw [if_neg (by simpa [← id] using zero)]
      · have used : decide (r.id ≠ 0) = true := decide_eq_true zero
        have count (k : Nat) : 12 * (k + 1) + 1 = 12 + (12 * k + 1) := by omega
        rw [if_pos used] at h ⊢
        rw [List.length_cons, count, take_append_of_length r.length_toBytes,
          take_append_of_length s.length_toBytes] at h
        obtain ⟨bytes, rest⟩ := List.append_inj h (by rw [r.length_toBytes, s.length_toBytes])
        have same := AttributeRecord.toBytes_injective bytes
        rw [← same, if_pos used, ih (Nat.succ.inj length) rest]

theorem length_toBytes (p : SmartPage) : p.toBytes.length = size := by
  simp [toBytes, wordBytes, length_toLittleEndian, List.length_flatMap,
    AttributeRecord.length_toBytes, size]

theorem table_eq_of_bytes {p q : SmartPage}
    (h : ∀ i ≤ 2 + 12 * p.records.length, byteAt q.toBytes i = byteAt p.toBytes i)
    (presets : Presets) (style : TableStyle) : q.table presets style = p.table presets style := by
  have bytes (page : SmartPage) : ∃ rest, page.toBytes =
      wordBytes page.revision ++ (page.attributes.toList.flatMap AttributeRecord.toBytes ++ rest) := by
    simp only [toBytes, List.append_assoc]
    exact ⟨_, rfl⟩
  obtain ⟨x, hp⟩ := bytes p
  obtain ⟨y, hq⟩ := bytes q
  have width (w : UInt16) : (wordBytes w).length = 2 := length_toLittleEndian 2 w.toNat
  have same : p.toBytes.take (2 + (12 * p.records.length + 1)) =
      q.toBytes.take (2 + (12 * p.records.length + 1)) :=
    take_eq_of_byteAt (by rw [length_toBytes, length_toBytes]) fun i hi => (h i (by omega)).symm
  rw [hp, hq, take_append_of_length (width _), take_append_of_length (width _)] at same
  obtain ⟨words, rest⟩ := List.append_inj same (by rw [width, width])
  have revision : p.revision = q.revision := word_toLittleEndian_inj words
  have records : p.records = q.records :=
    takeWhile_eq_of_bytes (by rw [Vector.length_toList, Vector.length_toList]) rest
  rw [table, table, records, revision]

/-- A table lists the records in front of the first id that is zero, and nothing behind that id has an
influence on it. Below the line of titles every line can be read back, if names fit into their column. -/
theorem table_reads_back (p : SmartPage) {presets : Presets}
    (names : ∀ e ∈ presets.entries, e.2.name.length ≤ 24 ∧ IsLine e.2.name) (bits : UInt8) :
    let style := TableStyle.ofBits bits
    let n := p.records.length
    p.records = p.attributes.toList.take n ∧ (∀ r ∈ p.records, r.id ≠ 0) ∧
    (∀ h : n < 30, p.attributes[n].id = 0) ∧
    (n = 0 → p.table presets style = []) ∧
    (0 < n → ∃ header rows,
      HasLines (p.table presets style)
        (["SMART Attributes Data Structure revision number: " ++ decimal p.revision.toNat,
            "Vendor Specific SMART Attributes:", header] ++ rows ++
          (if style.isBrief then style.legendLines else []) ++ [[]]) ∧
      List.Forall₂ (fun r line => style.ReadsBack (presets.ofId r.id) r header line)
        p.records rows) ∧
    ∀ q : SmartPage, (∀ i ≤ 2 + 12 * n, byteAt q.toBytes i = byteAt p.toBytes i) →
      q.table presets style = p.table presets style := by
  intro style n
  refine ⟨p.records_eq_take, fun r hr => id_of_mem_records hr, id_behind_records, ?_, ?_, ?_⟩
  · intro empty
    rw [table, List.length_eq_zero_iff.mp empty]
  · intro some_records
    have name_length (id : UInt8) : (presets.ofId id).name.length ≤ 24 := by
      rcases presets.ofId_eq id with none | ⟨e, he, same⟩
      · rw [none]
        exact Nat.zero_le 24
      · rw [← same]
        exact (names e he).1
    refine ⟨style.headerRow, _, table_hasLines (List.ne_nil_of_length_pos some_records)
      (fun e he => (names e he).2) style, ?_⟩
    rw [List.forall₂_map_right_iff, List.forall₂_same]
    exact fun r _ => style.row_readsBack (name_length r.id) r
  · exact fun q h => table_eq_of_bytes h presets style

def sectorPresets : Presets :=
  Presets.empty.insert "5" { rule := .parse "raw48", name := "Reallocated_Sector_Ct" }

/-- One record of the attribute 5, and a record behind the end. -/
def sectorPage : SmartPage :=
  .ofBytes .little ([16, 0] ++ [5, 0x33, 0, 100, 99, 3, 0, 0, 0, 0, 0, 0] ++ List.replicate 12 0 ++ [9])

theorem table_reads_back_sectors :
    (∀ e ∈ sectorPresets.entries, e.2.name.length ≤ 24 ∧ IsLine e.2.name) ∧
    sectorPage.records.length = 1 ∧
    ∃ header rows, HasLines (sectorPage.table sectorPresets (.ofBits 0))
        (["SMART Attributes Data Structure revision number: " ++ decimal sectorPage.revision.toNat,
            "Vendor Specific SMART Attributes:", header] ++ rows ++ [] ++ [[]]) ∧
      List.Forall₂ (fun r line =>
        (TableStyle.ofBits 0).ReadsBack (sectorPresets.ofId r.id) r header line)
        sectorPage.records rows := by
  have names : ∀ e ∈ sectorPresets.entries, e.2.name.length ≤ 24 ∧ IsLine e.2.name := by
    decide +kernel
  have one : sectorPage.records.length = 1 := by decide +kernel
  obtain ⟨-, -, -, -, lines, -⟩ := table_reads_back sectorPage names 0
  obtain ⟨header, rows, text, read⟩ := lines (by rw [one]; decide)
  exact ⟨names, one, header, rows, text, read⟩

end SmartPage

end DriveHealth
