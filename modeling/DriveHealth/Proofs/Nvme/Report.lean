import DriveHealth.Nvme.Report
import DriveHealth.Proofs.Bytes
import DriveHealth.Proofs.Text.Number
import DriveHealth.Proofs.Text.Quantity

/-! What the report of a health log tells about the log. A report is a heading and lines made of a title
and a value; titles differ, values tell their numbers, and a line is left out for zero only. So the text
determines every byte of the log that is reported. -/
namespace DriveHealth.NvmeLog

/-! ### Values -/

/-- The number of a counter: the digits in front of the capacity. -/
def counterOf (t : Text) : Nat := ofDecimal ((t.takeWhile (· ≠ ' ')).filter (· ≠ ','))

theorem counterOf_append {digits rest : Text} (solid : ∀ c ∈ digits, c.isDigit = true ∨ c = ',')
    (stops : rest.takeWhile (· ≠ ' ') = []) :
    counterOf (digits ++ rest) = ofDecimal (digits.filter (· ≠ ',')) := by
  have inside : ∀ c ∈ digits, decide (c ≠ ' ') = true := by
    intro c hc
    rcases solid c hc with hd | rfl
    · refine decide_eq_true ?_
      rintro rfl
      exact absurd hd (by decide)
    · decide
  rw [counterOf, List.takeWhile_append_of_pos inside, stops, List.append_nil]

theorem counterOf_counterText (bytesPerUnit n : Nat) : counterOf (counterText bytesPerUnit n) = n := by
  have comma_free : ∀ c : Char, c.isDigit = true → decide (c ≠ ',') = true := by
    intro c hc
    refine decide_eq_true ?_
    rintro rfl
    exact absurd hc (by decide)
  rw [counterText]
  split
  · rw [counterOf_append, filter_grouped comma_free (by simp), ofDecimal_decimal]
    · intro c hc
      exact (mem_grouped hc).imp id List.mem_singleton.mp
    · rw [onlyIf]
      split <;> rfl
  · rw [← List.append_nil (decimal n), counterOf_append _ rfl,
      List.filter_eq_self.mpr fun c hc => comma_free c (isDigit_of_mem_decimal hc), ofDecimal_decimal]
    intro c hc
    exact .inl (isDigit_of_mem_decimal hc)

theorem counterText_injective {bytesPerUnit m n : Nat}
    (h : counterText bytesPerUnit m = counterText bytesPerUnit n) : m = n := by
  rw [← counterOf_counterText bytesPerUnit m, h, counterOf_counterText]

theorem isLine_counterText (bytesPerUnit n : Nat) : IsLine (counterText bytesPerUnit n) := by
  rw [counterText]
  split
  · refine isLine_append.mpr ⟨isLine_grouped (by decide) n, isLine_onlyIf ?_⟩
    exact isLine_append.mpr ⟨isLine_append.mpr ⟨by decide, isLine_capacity (by decide) _⟩, by decide⟩
  · exact isLine_decimal n

theorem temperatureText_injective {s t : UInt16} (h : temperatureText s = temperatureText t) : s = t := by
  have dash (i : Int) : ("-" : Text) ≠ signedDecimal i ++ " Celsius" := by
    intro hi
    have length := congrArg List.length hi
    rw [List.length_append] at length
    have one : ("-" : Text).length = 1 := rfl
    have eight : (" Celsius" : Text).length = 8 := rfl
    omega
  rw [temperatureText, temperatureText] at h
  split at h
  · split at h
    · rename_i hs ht
      rw [hs, ht]
    · exact absurd h (dash _)
  · split at h
    · exact absurd h.symm (dash _)
    · have same := signedDecimal_injective (List.append_cancel_right h)
      exact UInt16.toNat_inj.mp (by omega)

theorem isLine_temperatureText (kelvin : UInt16) : IsLine (temperatureText kelvin) := by
  rw [temperatureText]
  split
  · decide
  · exact isLine_append.mpr ⟨isLine_signedDecimal _, by decide⟩

/-! ### Fields -/

/-- A line of a report, made of a title and a value; a field without a value is left out. -/
structure Field where
  title : Text
  value : Option Text

namespace Field

def always (title value : Text) : Field := ⟨title, some value⟩

/-- A field that is left out if it is not set. -/
def optional (showAll isSet : Bool) (title value : Text) : Field :=
  ⟨title, if showAll || isSet then some value else none⟩

def row? (f : Field) : Option Text := f.value.map (f.title ++ ·)

/-- The row with its line end. -/
def text (f : Field) : Text := f.row?.elim [] fun row => row ++ "\n"

theorem text_always (title value : Text) : (always title value).text = title ++ value ++ "\n" := by
  -- not by `rfl`: as a definitional equation it would make the kernel decode the titles
  rw [text, row?, always, Option.map_some, Option.elim_some]

theorem text_optional (showAll isSet : Bool) (title value : Text) :
    (optional showAll isSet title value).text = optionalLine showAll isSet title value := by
  rw [optionalLine, onlyIf, text, row?, optional]
  split <;> rfl

theorem rows_none (title : Text) (r : List Field) :
    (⟨title, none⟩ :: r).filterMap row? = r.filterMap row? := rfl

theorem rows_some (title value : Text) (r : List Field) :
    (⟨title, some value⟩ :: r).filterMap row? = (title ++ value) :: r.filterMap row? := rfl

theorem unlines_rows (fields : List Field) : unlines (fields.filterMap row?) = fields.flatMap text := by
  induction fields with
  | nil => rfl
  | cons f r ih =>
    obtain ⟨title, value⟩ := f
    rw [List.flatMap_cons, ← ih]
    cases value with
    | none => rfl
    | some value =>
      rw [rows_some, unlines, List.flatMap_cons]
      rfl

/-- A field whose value stays within its line. -/
def Fits (f : Field) : Prop := ∀ value ∈ f.value, IsLine value

@[simp] theorem fits_always {title value : Text} : (always title value).Fits ↔ IsLine value := by
  simp [Fits, always]

@[simp] theorem fits_optional {showAll isSet : Bool} {title value : Text} (h : IsLine value) :
    (optional showAll isSet title value).Fits := by
  intro v hv
  rw [optional] at hv
  split at hv
  · rw [← Option.mem_some.mp hv]
    exact h
  · cases hv

/-- A row that begins with a text of the width of titles has it as its title. -/
theorem mem_titles_of_row {width : Nat} {fields : List Field} {t v : Text} (ht : t.length = width)
    (wide : ∀ t ∈ fields.map title, t.length = width) (h : t ++ v ∈ fields.filterMap row?) :
    t ∈ fields.map title := by
  obtain ⟨f, hf, row⟩ := List.mem_filterMap.mp h
  obtain ⟨w, -, same⟩ := Option.map_eq_some_iff.mp row
  have length : f.title.length = t.length := by
    rw [ht, wide f.title (List.mem_map_of_mem hf)]
  rw [← List.append_inj_left same length]
  exact List.mem_map_of_mem hf

/-- Rows tell which fields they are made of: titles of one width do not run into the values, and
distinct titles do not stand for each other. -/
theorem eq_of_rows {width : Nat} {a b : List Field} (titles : a.map title = b.map title)
    (distinct : (a.map title).Nodup) (wide : ∀ t ∈ a.map title, t.length = width)
    (rows : a.filterMap row? = b.filterMap row?) : a = b := by
  induction a generalizing b with
  | nil => exact (List.map_eq_nil_iff.mp titles.symm).symm
  | cons f a ih =>
    cases b with
    | nil => cases titles
    | cons g b =>
      obtain ⟨name, value⟩ := f
      obtain ⟨name', value'⟩ := g
      obtain ⟨same, titles'⟩ : name = name' ∧ a.map title = b.map title := List.cons.inj titles
      obtain ⟨name_wide, wide'⟩ : name.length = width ∧ ∀ t ∈ a.map title, t.length = width :=
        List.forall_mem_cons.mp wide
      obtain ⟨fresh, distinct'⟩ : name ∉ a.map title ∧ (a.map title).Nodup :=
        List.nodup_cons.mp distinct
      subst same
      cases value with
      | none =>
        cases value' with
        | none =>
          rw [rows_none, rows_none] at rows
          rw [ih titles' distinct' wide' rows]
        | some value' =>
          rw [rows_none, rows_some] at rows
          exact absurd (mem_titles_of_row name_wide wide' (rows ▸ List.mem_cons_self)) fresh
      | some value =>
        cases value' with
        | none =>
          rw [rows_none, rows_some] at rows
          rw [titles'] at wide' fresh
          exact absurd (mem_titles_of_row name_wide wide' (rows ▸ List.mem_cons_self)) fresh
        | some value' =>
          rw [rows_some, rows_some] at rows
          obtain ⟨row, rest⟩ := List.cons.inj rows
          rw [ih titles' distinct' wide' rest, List.append_cancel_left row]

end Field

def fixedFields (log : NvmeLog) : List Field :=
  [.always "Critical Warning:                   " (hexFill 2 log.criticalWarning.toNat),
   .always "Temperature:                        " (temperatureText log.temperature),
   .always "Available Spare:                    " (decimal log.spare.toNat ++ "%"),
   .always "Available Spare Threshold:          " (decimal log.spareThreshold.toNat ++ "%"),
   .always "Percentage Used:                    " (decimal log.percentUsed.toNat ++ "%"),
   .always "Data Units Read:                    " (counterText dataUnit log.dataRead),
   .always "Data Units Written:                 " (counterText dataUnit log.dataWritten),
   .always "Host Read Commands:                 " (counterText 0 log.readCommands),
   .always "Host Write Commands:                " (counterText 0 log.writeCommands),
   .always "Controller Busy Time:               " (counterText 0 log.busyTime),
   .always "Power Cycles:                       " (counterText 0 log.powerCycles),
   .always "Power On Hours:                     " (counterText 0 log.powerOnHours),
   .always "Unsafe Shutdowns:                   " (counterText 0 log.unsafeShutdowns),
   .always "Media and Data Integrity Errors:    " (counterText 0 log.mediaErrors),
   .always "Error Information Log Entries:      " (counterText 0 log.errorLogEntries)]

def timeField (showAll : Bool) (title : Text) (time : UInt32) : Field :=
  .optional showAll (time ≠ 0) title (decimal time.toNat)

def sensorField (showAll : Bool) (sensor : UInt16 × Nat) : Field :=
  .optional showAll (sensor.1 ≠ 0) ("Temperature Sensor " ++ decimal sensor.2 ++ ":               ")
    (temperatureText sensor.1)

def warningFields (log : NvmeLog) (showAll : Bool) : List Field :=
  [timeField showAll "Warning  Comp. Temperature Time:    " log.warningTime,
   timeField showAll "Critical Comp. Temperature Time:    " log.criticalTime]

def sensorFields (log : NvmeLog) (showAll : Bool) : List Field :=
  (log.sensors.toList.zipIdx 1).map (sensorField showAll)

def thermalFields (log : NvmeLog) (showAll : Bool) : List Field :=
  [timeField showAll "Thermal Temp. 1 Transition Count:   " log.firstTransitions,
   timeField showAll "Thermal Temp. 2 Transition Count:   " log.secondTransitions,
   timeField showAll "Thermal Temp. 1 Total Time:         " log.firstTime,
   timeField showAll "Thermal Temp. 2 Total Time:         " log.secondTime]

/-- The fields in the order of their lines. -/
def fields (log : NvmeLog) (showAll : Bool) : List Field :=
  log.fixedFields ++ log.warningFields showAll ++ log.sensorFields showAll ++
    log.thermalFields showAll

/-- The first line of a report. -/
def heading : Text := "SMART/Health Information (NVMe Log 0x02)"

/-- The heading, the fields that are shown, and an empty line. -/
def lines (log : NvmeLog) (showAll : Bool) : List Text :=
  heading :: ((log.fields showAll).filterMap Field.row? ++ [[]])

theorem report_eq (log : NvmeLog) (showAll : Bool) :
    log.report showAll = unlines (log.lines showAll) := by
  have percent : ("%\n" : Text) = "%" ++ "\n" := rfl
  have head : ("SMART/Health Information (NVMe Log 0x02)\n" : Text) = heading ++ "\n" := by
    unfold heading
    simp -index only [String.toList_ofList, List.cons_append, List.nil_append]
  have last : unlines [[]] = "\n" := rfl
  rw [lines, unlines, List.flatMap_cons, ← unlines, unlines_append, Field.unlines_rows, last, ← head]
  unfold report
  simp only [fields, fixedFields, warningFields, sensorFields, thermalFields, timeField, timeLine,
    sensorField, sensorLine, List.flatMap_append, List.flatMap_cons, List.flatMap_nil, List.flatMap_map,
    Field.text_always, Field.text_optional, percent, List.append_assoc, List.append_nil]

/-- The titles of all lines, which do not depend on a log. -/
def titles : List Text := ((ofBytes []).fields false).map Field.title

theorem titles_eq (log : NvmeLog) (showAll : Bool) :
    (log.fields showAll).map Field.title = titles := by
  have sensors (log : NvmeLog) (showAll : Bool) : (log.sensorFields showAll).map Field.title =
      (List.range' 1 8).map fun i => "Temperature Sensor " ++ decimal i ++ ":               " := by
    have numbers : List.range' 1 8 = (log.sensors.toList.zipIdx 1).map Prod.snd := by
      rw [List.zipIdx_map_snd, Vector.length_toList]
    rw [sensorFields, List.map_map, numbers, List.map_map]
    rfl
  simp only [titles, fields, List.map_append, sensors]
  rfl

/-- Titles are distinct, of one width and within a line. -/
theorem titles_good : titles.Nodup ∧ ∀ t ∈ titles, t.length = 36 ∧ IsLine t := by
  -- characters in place of the literals, which take the kernel long
  simp -index only [titles, fields, fixedFields, warningFields, thermalFields, timeField, Field.always,
    Field.optional, List.map_append, List.map, String.toList_ofList]
  decide +kernel

theorem fields_fit (log : NvmeLog) (showAll : Bool) : ∀ f ∈ log.fields showAll, f.Fits := by
  have sensors : ∀ f ∈ log.sensorFields showAll, f.Fits := by
    intro f hf
    obtain ⟨sensor, -, rfl⟩ := List.mem_map.mp hf
    exact Field.fits_optional (isLine_temperatureText sensor.1)
  have percent : IsLine "%" := by decide
  simp only [fields, List.forall_mem_append]
  refine ⟨⟨⟨?_, ?_⟩, sensors⟩, ?_⟩
  -- no title has to be decoded for this
  · simp [-String.reduceToList, fixedFields, isLine_temperatureText, isLine_counterText, percent]
  · simp [-String.reduceToList, warningFields, timeField]
  · simp [-String.reduceToList, thermalFields, timeField]

theorem report_hasLines (log : NvmeLog) (showAll : Bool) :
    HasLines (log.report showAll) (log.lines showAll) := by
  have head : IsLine heading := by
    unfold heading
    simp -index only [String.toList_ofList]
    decide +kernel
  have rows : ∀ row ∈ (log.fields showAll).filterMap Field.row?, IsLine row := by
    intro row hrow
    obtain ⟨f, hf, h⟩ := List.mem_filterMap.mp hrow
    obtain ⟨value, hv, rfl⟩ := Option.map_eq_some_iff.mp h
    have title : f.title ∈ titles := titles_eq log showAll ▸ List.mem_map_of_mem hf
    exact isLine_append.mpr ⟨(titles_good.2 _ title).2, fields_fit log showAll f hf value hv⟩
  refine ⟨log.report_eq showAll, List.forall_mem_cons.mpr ⟨head, ?_⟩⟩
  exact List.forall_mem_append.mpr ⟨rows, List.forall_mem_singleton.mpr isLine_nil⟩

/-- The text of a report tells its fields. -/
theorem fields_eq_of_report {a b : NvmeLog} {showAll : Bool}
    (h : a.report showAll = b.report showAll) : a.fields showAll = b.fields showAll := by
  have other : HasLines (a.report showAll) (b.lines showAll) := by
    rw [h]
    exact b.report_hasLines showAll
  have same : a.lines showAll = b.lines showAll := (a.report_hasLines showAll).unique other
  have rows := List.append_cancel_right (List.cons.inj same).2
  have distinct : ((a.fields showAll).map Field.title).Nodup := by
    rw [titles_eq]
    exact titles_good.1
  have wide : ∀ t ∈ (a.fields showAll).map Field.title, t.length = 36 := by
    rw [titles_eq]
    exact fun t ht => (titles_good.2 t ht).1
  exact Field.eq_of_rows (by rw [titles_eq, titles_eq]) distinct wide rows

/-! ### From the fields to the log -/

/-- A field is left out for one value only, so that it tells its value even where it is missing. -/
theorem optional_injective {α : Type} {text : α → Text} (injective : ∀ {x y}, text x = text y → x = y)
    {isSet : α → Bool} {zero : α} (unset : ∀ {x}, isSet x = false → x = zero) {showAll : Bool}
    {title : Text} {x y : α} (h : Field.optional showAll (isSet x) title (text x) =
      Field.optional showAll (isSet y) title (text y)) : x = y := by
  have values := congrArg Field.value h
  rw [Field.optional, Field.optional] at values
  dsimp only at values
  split at values
  · split at values
    · exact injective (Option.some.inj values)
    · cases values
  · split at values
    · cases values
    · rename_i hx hy
      rw [Bool.or_eq_true, not_or, Bool.not_eq_true, Bool.not_eq_true] at hx hy
      rw [unset hx.2, unset hy.2]

theorem timeField_injective {showAll : Bool} {title : Text} {s t : UInt32}
    (h : timeField showAll title s = timeField showAll title t) : s = t :=
  optional_injective (fun h => UInt32.toNat_inj.mp (decimal_injective h))
    (fun h => by simpa using h : ∀ {x : UInt32}, decide (x ≠ 0) = false → x = 0) h

theorem sensorField_injective {showAll : Bool} {s t : UInt16} {i : Nat}
    (h : sensorField showAll (s, i) = sensorField showAll (t, i)) : s = t :=
  optional_injective temperatureText_injective
    (fun h => by simpa using h : ∀ {x : UInt16}, decide (x ≠ 0) = false → x = 0) h

theorem percent_injective {s t : UInt8}
    (h : decimal s.toNat ++ ("%" : Text) = decimal t.toNat ++ ("%" : Text)) : s = t :=
  UInt8.toNat_inj.mp (decimal_injective (List.append_cancel_right h))

theorem sensors_eq_of_fields {a b : NvmeLog} {showAll : Bool}
    (h : a.sensorFields showAll = b.sensorFields showAll) : a.sensors = b.sensors := by
  apply Vector.ext
  intro i hi
  have fields := congrArg (·[i]?) h
  simp [sensorFields, hi] at fields
  exact sensorField_injective fields

attribute [ext] NvmeLog

theorem eq_of_fields {a b : NvmeLog} {showAll : Bool} (h : a.fields showAll = b.fields showAll) :
    a = b := by
  rw [fields, fields] at h
  obtain ⟨h, thermal⟩ := List.append_inj' h rfl
  obtain ⟨h, sensors⟩ := List.append_inj' h (by simp [sensorFields])
  obtain ⟨fixed, warning⟩ := List.append_inj' h rfl
  simp only [fixedFields, List.cons.injEq, Field.always, Field.mk.injEq, Option.some.injEq, true_and,
    and_true] at fixed
  simp only [warningFields, List.cons.injEq, and_true] at warning
  simp only [thermalFields, List.cons.injEq, and_true] at thermal
  obtain ⟨warned, temperature, spare, threshold, used, read, written, readCommands, writeCommands,
    busy, cycles, hours, shutdowns, errors, entries⟩ := fixed
  obtain ⟨warningTime, criticalTime⟩ := warning
  obtain ⟨firstTransitions, secondTransitions, firstTime, secondTime⟩ := thermal
  exact NvmeLog.ext (UInt8.toNat_inj.mp (hexFill_injective warned))
    (temperatureText_injective temperature) (percent_injective spare) (percent_injective threshold)
    (percent_injective used) (counterText_injective read) (counterText_injective written)
    (counterText_injective readCommands) (counterText_injective writeCommands)
    (counterText_injective busy) (counterText_injective cycles) (counterText_injective hours)
    (counterText_injective shutdowns) (counterText_injective errors) (counterText_injective entries)
    (timeField_injective warningTime) (timeField_injective criticalTime)
    (sensors_eq_of_fields sensors) (timeField_injective firstTransitions)
    (timeField_injective secondTransitions) (timeField_injective firstTime)
    (timeField_injective secondTime)

/-! ### From the log to its bytes -/

/-- The bytes of a log that are reported. -/
def IsReported (i : Nat) : Prop := i < 6 ∨ 32 ≤ i ∧ i < 232

theorem counterAt_inj {a b : List UInt8} {o : Nat} (h : counterAt a o = counterAt b o) :
    bytesFrom a o 16 = bytesFrom b o 16 := littleEndian_bytesFrom_inj h

theorem sensorBytes_inj {a b : List UInt8}
    (h : (Vector.ofFn fun i : Fin 8 => u16At a (200 + 2 * i)) =
      Vector.ofFn fun i : Fin 8 => u16At b (200 + 2 * i)) :
    bytesFrom a 200 16 = bytesFrom b 200 16 := by
  have sensor (i : Fin 8) : bytesFrom a (200 + i * 2) 2 = bytesFrom b (200 + i * 2) 2 := by
    have at_i := congrArg (·[i.val]) h
    rw [Nat.mul_comm]
    simp only [Vector.getElem_ofFn] at at_i
    exact u16At_inj at_i
  rw [← flatMap_bytesFrom a 200 2 8, ← flatMap_bytesFrom b 200 2 8]
  refine List.flatMap_congr fun o ho => ?_
  obtain ⟨i, rfl⟩ := List.mem_ofFn.mp ho
  exact sensor i

/-- A log tells the bytes it was read from. -/
theorem bytes_eq_of_ofBytes {a b : List UInt8} (h : ofBytes a = ofBytes b) :
    bytesFrom a 0 6 = bytesFrom b 0 6 ∧ bytesFrom a 32 200 = bytesFrom b 32 200 := by
  simp only [ofBytes, mk.injEq] at h
  obtain ⟨warned, temperature, spare, threshold, used, read, written, readCommands, writeCommands,
    busy, cycles, hours, shutdowns, errors, entries, warningTime, criticalTime, sensors,
    firstTransitions, secondTransitions, firstTime, secondTime⟩ := h
  have one {o : Nat} (h : byteAt a o = byteAt b o) : bytesFrom a o 1 = bytesFrom b o 1 := by
    rw [bytesFrom_one, bytesFrom_one, h]
  constructor
  · exact bytesFrom_eq_join rfl (one warned) <| bytesFrom_eq_join rfl (u16At_inj temperature) <|
      bytesFrom_eq_join rfl (one spare) <| bytesFrom_eq_join rfl (one threshold) (one used)
  · exact bytesFrom_eq_join rfl (counterAt_inj read) <|
      bytesFrom_eq_join rfl (counterAt_inj written) <|
      bytesFrom_eq_join rfl (counterAt_inj readCommands) <|
      bytesFrom_eq_join rfl (counterAt_inj writeCommands) <|
      bytesFrom_eq_join rfl (counterAt_inj busy) <|
      bytesFrom_eq_join rfl (counterAt_inj cycles) <|
      bytesFrom_eq_join rfl (counterAt_inj hours) <|
      bytesFrom_eq_join rfl (counterAt_inj shutdowns) <|
      bytesFrom_eq_join rfl (counterAt_inj errors) <|
      bytesFrom_eq_join rfl (counterAt_inj entries) <|
      bytesFrom_eq_join rfl (u32At_inj warningTime) <|
      bytesFrom_eq_join rfl (u32At_inj criticalTime) <|
      bytesFrom_eq_join rfl (sensorBytes_inj sensors) <|
      bytesFrom_eq_join rfl (u32At_inj firstTransitions) <|
      bytesFrom_eq_join rfl (u32At_inj secondTransitions) <|
      bytesFrom_eq_join rfl (u32At_inj firstTime) (u32At_inj secondTime)

theorem read_vector (bytes : Vector UInt8 size) : read bytes.toList = .ok (ofBytes bytes.toList) := by
  rw [read, Vector.length_toList, if_neg (Nat.lt_irrefl size)]

/-- Two logs with the same report, short or in full, agree in every byte that is reported. -/
theorem report_loses_nothing (a b : Vector UInt8 size) (showAll : Bool) :
    ∃ la lb, read a.toList = .ok la ∧ read b.toList = .ok lb ∧
      (la.report showAll = lb.report showAll →
        la = lb ∧ ∀ i (h : i < size), IsReported i → a[i] = b[i]) := by
  refine ⟨_, _, read_vector a, read_vector b, fun same => ?_⟩
  have logs := eq_of_fields (fields_eq_of_report same)
  obtain ⟨first, second⟩ := bytes_eq_of_ofBytes logs
  rw [bytesFrom_eq_iff] at first second
  have byte (log : Vector UInt8 size) {i : Nat} (h : i < size) : byteAt log.toList i = log[i] := by
    simp [byteAt, h]
  refine ⟨logs, fun i h reported => ?_⟩
  rw [← byte a h, ← byte b h]
  rcases reported with early | ⟨behind, before⟩
  · have agree := first i early
    rwa [Nat.zero_add] at agree
  · have agree := second (i - 32) (by omega)
    rwa [Nat.add_sub_cancel' behind] at agree

end DriveHealth.NvmeLog
