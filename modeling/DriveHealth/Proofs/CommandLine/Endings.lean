import DriveHealth.CommandLine.Run
import DriveHealth.Proofs.Database.History

/-! How a run of the program can end. A relation lists the endings: what was found on the way, the
status, and the one text that is printed. Nothing is ever printed in parts, and nothing that the
library could throw at the program happens in a run. -/
namespace DriveHealth

/-- An expression is copied by compiling its pattern once more, if it was compiled at all. -/
def RegularExpression.CanBeCopied (r : RegularExpression) : Prop :=
  r.pattern.isSome = true → compile r.source = r

namespace Settings

theorem convert_firmware (s : Settings) : s.convert.entry.firmware = expression s.firmware := by
  rw [convert]
  split <;> rfl

theorem expression_canBeCopied (t : Text) : (expression t).CanBeCopied := by
  intro h
  by_cases ht : t = []
  · subst ht
    cases h
  · rw [expression_of_ne_nil ht, RegularExpression.source_compile]

end Settings

namespace Database

theorem Step.settings {db db' : Database} {x : Origin × Entry} (h : Step db x db') :
    ∃ s : Settings, s.convert.entry = x.2 := by
  cases h with
  | file _ he =>
    obtain ⟨s, -, hs⟩ := he
    exact ⟨s, hs⟩
  | table he =>
    obtain ⟨s, -, hs⟩ := List.mem_map.mp he
    exact ⟨s, hs⟩

theorem Steps.settings {db last : Database} {log : List (Origin × Entry)} (h : Steps db log last) :
    ∀ x ∈ log, ∃ s : Settings, s.convert.entry = x.2 := by
  induction h with
  | refl =>
    intro x hx
    cases hx
  | cons hs _ ih => exact List.forall_mem_cons.mpr ⟨hs.settings, ih⟩

theorem addFile_fault {db : Database} (hb : db.builtin = []) (fs : FileSystem) (path : Text) :
    (db.addFile fs path).fault = none := by
  cases ht : fs.text? path with
  | none => simp [addFile, ht]
  | some t =>
    obtain ⟨m, -, he⟩ := addFile_eq hb ht
    rw [he]

theorem Reading.withBuiltin_fault (r : Reading) : r.withBuiltin.fault = r.fault := by
  rw [withBuiltin]
  split <;> rfl

/-- What makes the library throw while a database is made and used: an entry of a file behind builtin
ones, a builtin entry that does not convert, or an expression that cannot be copied. -/
inductive Throws (r : Reading) : Prop where
  | refused : r.fault ≠ none → Throws r
  | builtin {s} : s ∈ Builtin.settings → s.convert.isGood = false → Throws r
  | copy {e x} : e ∈ r.database.entries → x ∈ [e.model, e.firmware] → ¬ x.CanBeCopied → Throws r

theorem not_throws_addSource (fs : FileSystem) (source : Source) :
    ¬ Throws (({} : Database).addSource fs source) := by
  rintro (fault | ⟨hs, bad⟩ | ⟨he, hx, stuck⟩)
  · apply fault
    cases source with
    | installed =>
      rw [addSource]
      split
      · exact addFile_fault rfl fs installedPath
      · exact Reading.withBuiltin_fault _
    | file path => exact addFile_fault rfl fs path
    | added path =>
      rw [addSource, Reading.withBuiltin_fault]
      exact addFile_fault rfl fs path
  · rw [Builtin.settings_good _ hs] at bad
    cases bad
  · apply stuck
    have steps := addSource_steps {} fs source
    rw [steps.entries] at he
    obtain ⟨x, hlog, rfl⟩ := List.mem_map.mp he
    obtain ⟨s, hs⟩ := steps.settings x hlog
    rw [← hs, Settings.convert_model, Settings.convert_firmware] at hx
    rcases List.mem_pair.mp hx with rfl | rfl
    · exact Settings.expression_canBeCopied s.model
    · exact Settings.expression_canBeCopied s.firmware

end Database

namespace CommandLine

def loading (o : Options) (fs : FileSystem) : Database.Reading :=
  Database.addSource {} fs (.ofArgument o.database)

/-- What a run has found when it prints the attributes of a page. -/
structure PrintsTable (fs : FileSystem) (o : Options) (path : Text) (user : Presets) (d : Drive)
    (r : SmartPage.Reading) : Prop where
  isAta : o.isNvme = false
  listsNothing : o.listed = none
  definitions : userPresets .empty o.definitions = .ok user
  database : (loading o fs).isGood = true
  drive : drive o fs = .ok d
  page : ∃ bytes, fs.data path SmartPage.size = .ok bytes ∧ SmartPage.read o.order bytes = .ok r

/-- How a run for a request ends: with which status, and what it has printed. -/
inductive Ending (fs : FileSystem) : Request → Status → Text → Prop where
  | help : Ending fs .help .success usage
  | release : Ending fs .release .success (Release.details program)
  | definitionHelp : Ending fs .definitionHelp .success
      ("Valid arguments to '-v':\n" ++ Definition.help ++ "\n")
  | wrongUse (request) : Ending fs request .failure usage
  | failure (o operands) : Ending fs (.run o operands) .failure []
  | health {o path bytes log} : o.isNvme = true → fs.data path NvmeLog.size = .ok bytes →
      NvmeLog.read bytes = .ok log → Ending fs (.run o [path]) .success (log.report o.showAll)
  | badDatabase {o operands} : o.isNvme = false → (loading o fs).isGood = false →
      Ending fs (.run o operands) .badDatabase []
  | goodListing {o operands} : o.isNvme = false → (loading o fs).isGood = true →
      o.listed = some .all → (loading o fs).database.errors = 0 →
      Ending fs (.run o operands) .success (loading o fs).database.listing
  | badListing {o operands} : o.isNvme = false → (loading o fs).isGood = true →
      o.listed = some .all → 0 < (loading o fs).database.errors →
      Ending fs (.run o operands) .badDatabase (loading o fs).database.listing
  | matching {o operands d} : o.isNvme = false → (loading o fs).isGood = true →
      o.listed = some .matching → drive o fs = .ok d → o.namesDrive = true →
      Ending fs (.run o operands) .success ((loading o fs).database.listingFor d.model)
  | table {o path user d r} : PrintsTable fs o path user d r →
      Ending fs (.run o [path]) .success
        (smartReport o user d ((loading o fs).database.lookup d.model) r.page)

variable {fs : FileSystem} {o : Options} {operands : List Text} {user : Presets} {d : Drive}

theorem loading_fault (o : Options) (fs : FileSystem) : (loading o fs).fault = none := by
  by_contra h
  exact Database.not_throws_addSource fs (.ofArgument o.database) (.refused h)

theorem nvme_ends (h : o.isNvme = true) (path : Text) :
    Ending fs (.run o [path]) (nvmeOutput o fs path).status (nvmeOutput o fs path).report := by
  cases hd : fs.data path NvmeLog.size with
  | error e =>
    simp only [nvmeOutput, hd]
    exact .failure o [path]
  | ok bytes =>
    cases hl : NvmeLog.read bytes with
    | error e =>
      simp only [nvmeOutput, hd, hl]
      exact .failure o [path]
    | ok log =>
      simp only [nvmeOutput, hd, hl]
      exact .health h hd hl

/-- With everything at hand but the page, only the file of the page can still be bad. -/
theorem smart_ends {path : Text} (h : ∀ r, (∃ bytes, fs.data path SmartPage.size = .ok bytes ∧
      SmartPage.read o.order bytes = .ok r) → PrintsTable fs o path user d r) :
    Ending fs (.run o [path]) (smartOutput o fs user (loading o fs).database d path).status
      (smartOutput o fs user (loading o fs).database d path).report := by
  cases hd : fs.data path SmartPage.size with
  | error e =>
    simp only [smartOutput, hd]
    exact .failure o [path]
  | ok bytes =>
    cases hr : SmartPage.read o.order bytes with
    | error e =>
      simp only [smartOutput, hd, hr]
      exact .failure o [path]
    | ok r =>
      simp only [smartOutput, hd, hr]
      exact .table (h r ⟨bytes, hd, hr⟩)

theorem drive_ends (isAta : o.isNvme = false) (definitions : userPresets .empty o.definitions = .ok user)
    (good : (loading o fs).isGood = true) (notAll : o.listed ≠ some .all) (hd : drive o fs = .ok d) :
    Ending fs (.run o operands)
      (driveOutput o fs user (loading o fs).database d operands).status
      (driveOutput o fs user (loading o fs).database d operands).report := by
  unfold driveOutput
  by_cases hm : o.listed = some .matching
  · rw [if_pos hm]
    split
    · rename_i named
      exact .matching isAta good hm hd named
    · exact .wrongUse _
  · rw [if_neg hm]
    have listsNothing : o.listed = none := by
      cases hl : o.listed with
      | none => rfl
      | some l => cases l with
        | matching => exact absurd hl hm
        | all => exact absurd hl notAll
    split
    · exact smart_ends fun r page => ⟨isAta, listsNothing, definitions, good, hd, page⟩
    · exact .wrongUse _

theorem database_ends (isAta : o.isNvme = false)
    (definitions : userPresets .empty o.definitions = .ok user) (good : (loading o fs).isGood = true) :
    Ending fs (.run o operands)
      (databaseOutput o fs user (loading o fs).database operands).status
      (databaseOutput o fs user (loading o fs).database operands).report := by
  rw [databaseOutput]
  by_cases ha : o.listed = some .all
  · rw [if_pos ha, allOutput]
    by_cases errors : 0 < (loading o fs).database.errors
    · rw [if_pos errors]
      exact .badListing isAta good ha errors
    · rw [if_neg errors]
      exact .goodListing isAta good ha (Nat.eq_zero_of_not_pos errors)
  · rw [if_neg ha]
    cases hd : drive o fs with
    | error line => exact .failure o operands
    | ok d => exact drive_ends isAta definitions good ha hd

theorem attribute_ends (isAta : o.isNvme = false) (operands : List Text) :
    Ending fs (.run o operands) (attributeOutput o fs operands).status
      (attributeOutput o fs operands).report := by
  have loaded : Database.addSource {} fs (.ofArgument o.database) = loading o fs := rfl
  cases definitions : userPresets .empty o.definitions with
  | error e =>
    simp only [attributeOutput, definitions]
    exact .failure o operands
  | ok user =>
    simp only [attributeOutput, definitions, loaded, loading_fault]
    by_cases good : (loading o fs).isGood = true
    · rw [if_pos good]
      exact database_ends isAta definitions good
    · rw [if_neg good]
      exact .badDatabase isAta ((Bool.not_eq_true _).mp good)

theorem run_ends (arguments : List Text) (fs : FileSystem) :
    Ending fs (Request.ofArguments arguments) (run arguments fs).status (run arguments fs).report := by
  rw [run]
  cases Request.ofArguments arguments with
  | help => exact .help
  | wrongUse => exact .wrongUse _
  | release => exact .release
  | definitionHelp => exact .definitionHelp
  | run o operands =>
    unfold Request.output
    dsimp only
    by_cases isNvme : o.isNvme = true
    · rw [if_pos isNvme]
      split
      · exact nvme_ends isNvme _
      · exact .wrongUse _
    · rw [if_neg isNvme]
      exact attribute_ends ((Bool.not_eq_true _).mp isNvme) operands

/-! ### Reports -/

/-- What a run can tell about a drive: who it is, its attributes, or its health. -/
inductive IsReport : Text → Prop where
  | drive (info : DriveInfo) : IsReport info.text
  | attributes {p : SmartPage} (presets style) : p.records ≠ [] → IsReport (p.table presets style)
  | health (log : NvmeLog) (showAll) : IsReport (log.report showAll)

/-- The first two characters tell reports from everything else that is printed. -/
def opensReport : Text → Bool
  | 'M' :: 'o' :: _ | 'D' :: 'e' :: _ | 'S' :: 'M' :: _ => true
  | _ => false

theorem opensReport_append {t : Text} (h : 2 ≤ t.length) (rest : Text) :
    opensReport (t ++ rest) = opensReport t := by
  obtain ⟨a, b, r, rfl⟩ : ∃ a b r, t = a :: b :: r := by
    cases t with
    | nil => simp at h
    | cons a t => cases t with
      | nil => simp at h
      | cons b r => exact ⟨a, b, r, rfl⟩
  rw [List.cons_append, List.cons_append]
  unfold opensReport
  split <;> split <;> simp_all

theorem length_of_opensReport {t : Text} (h : opensReport t = true) : 2 ≤ t.length := by
  unfold opensReport at h
  split at h
  · simp
  · simp
  · simp
  · cases h

/-- What a text opens with decides, whatever follows. -/
theorem opensReport_of_start {start : Text} {opens : Bool}
    (h : 2 ≤ start.length ∧ opensReport start = opens) (rest : Text) :
    opensReport (start ++ rest) = opens := by
  rw [opensReport_append h.1, h.2]

theorem IsReport.opens {t : Text} (h : IsReport t) : opensReport t = true := by
  cases h with
  | drive info =>
    rw [DriveInfo.text, onlyIf]
    split
    · simp only [List.append_assoc]
      apply opensReport_of_start
      decide +kernel
    · rw [DriveInfo.identity]
      split
      · simp only [List.nil_append, List.append_assoc]
        apply opensReport_of_start
        decide +kernel
      · simp only [List.nil_append, List.append_assoc]
        apply opensReport_of_start
        decide +kernel
  | @attributes p presets style some_records =>
    rw [SmartPage.table]
    split
    · rename_i no_records
      exact absurd no_records some_records
    · simp only [List.append_assoc]
      apply opensReport_of_start
      decide +kernel
  | health log showAll =>
    unfold NvmeLog.report
    simp only [List.append_assoc]
    apply opensReport_of_start
    decide +kernel

theorem usage_not_opensReport : opensReport usage = false := by
  unfold usage Release.banner
  simp only [List.append_assoc]
  apply opensReport_of_start
  decide +kernel

theorem listing_not_opensReport (e : Entry) (rest : Text) :
    opensReport (e.listing ++ rest) = false := by
  rw [Entry.listing, Entry.lines, Listing.text]
  cases Family.isUsb e.family with
  | false =>
    simp only [List.cons_append, List.flatMap_cons, Listing.Line.text, Listing.Line.row, padRight,
      List.append_assoc]
    apply opensReport_of_start
    decide +kernel
  | true =>
    simp only [List.cons_append, List.flatMap_cons, Listing.Line.text, Listing.Line.row, padRight,
      List.append_assoc]
    apply opensReport_of_start
    decide +kernel

theorem database_listing_not_opensReport (db : Database) : opensReport db.listing = false := by
  rw [Database.listing]
  cases db.entries with
  | nil =>
    simp only [Entry.listings, List.flatMap_nil, List.nil_append, List.append_assoc]
    apply opensReport_of_start
    decide +kernel
  | cons e r =>
    simp only [Entry.listings, List.flatMap_cons, List.append_assoc]
    exact listing_not_opensReport e _

/-- The listing of a database with errors ends with their number. -/
theorem listing_of_errors {db : Database} (h : 0 < db.errors) :
    ∃ entries : Text, db.listing =
      entries ++ "Found " ++ decimal db.errors ++ " syntax error(s) in database.\n" := by
  rw [Database.listing, onlyIf, if_pos h, ← List.append_assoc, ← List.append_assoc]
  exact ⟨_, rfl⟩

/-! ### What the endings have in common -/

namespace Ending

variable {request : Request} {status : Status} {report : Text}

theorem of_failure (h : Ending fs request .failure report) : report = [] ∨ report = usage := by
  cases h with
  | wrongUse => exact .inr rfl
  | failure => exact .inl rfl

theorem of_badDatabase (h : Ending fs request .badDatabase report) :
    ∃ o operands, request = .run o operands ∧
      ((loading o fs).isGood = false ∧ report = [] ∨
        o.listed = some .all ∧ report = (loading o fs).database.listing ∧
        ∃ (n : Nat) (entries : Text), 0 < n ∧
          report = entries ++ "Found " ++ decimal n ++ " syntax error(s) in database.\n") := by
  cases h with
  | @badDatabase o operands _ notGood => exact ⟨o, operands, rfl, .inl ⟨notGood, rfl⟩⟩
  | @badListing o operands _ _ all errors =>
    obtain ⟨entries, he⟩ := listing_of_errors errors
    exact ⟨o, operands, rfl, .inr ⟨all, rfl, _, entries, errors, he⟩⟩

/-- What is printed without success does not open as a report does. -/
theorem success_of_report {t rest : Text} (h : Ending fs request status (t ++ rest))
    (isReport : IsReport t) : status = .success := by
  have opens : opensReport (t ++ rest) = true := by
    rw [opensReport_append (length_of_opensReport isReport.opens), isReport.opens]
  generalize t ++ rest = report at h opens
  cases h with
  | wrongUse =>
    rw [usage_not_opensReport] at opens
    cases opens
  | failure => cases opens
  | badDatabase => cases opens
  | badListing =>
    rw [database_listing_not_opensReport] at opens
    cases opens
  | help | release | definitionHelp | health | goodListing | matching | table => rfl

end Ending

theorem Status.code_injective {s t : Status} (h : s.code = t.code) : s = t := by
  cases s <;> cases t <;> simp_all [code]

/-- A run ends with one of three codes. A failure prints nothing or the usage, a bad database prints
nothing or a listing that ends with the number of its errors, and a report about a drive is printed
by a successful run only, as a whole. The library never throws. -/
theorem no_partial_report (arguments : List Text) (fs : FileSystem) :
    let out := run arguments fs
    let request := Request.ofArguments arguments
    Ending fs request out.status out.report ∧
    out.status.code ∈ [0, 1, 2] ∧
    (out.status.code = 1 → out.report = [] ∨ out.report = usage) ∧
    (out.status.code = 2 → ∃ o operands, request = .run o operands ∧
      ((loading o fs).isGood = false ∧ out.report = [] ∨
        o.listed = some .all ∧ out.report = (loading o fs).database.listing ∧
        ∃ (n : Nat) (entries : Text), 0 < n ∧
          out.report = entries ++ "Found " ++ decimal n ++ " syntax error(s) in database.\n")) ∧
    (∀ t rest, IsReport t → out.report = t ++ rest → out.status.code = 0) ∧
    ∀ o operands, request = .run o operands → ¬ Database.Throws (loading o fs) := by
  intro out request
  have ends : Ending fs request out.status out.report := run_ends arguments fs
  refine ⟨ends, ?_, ?_, ?_, ?_, fun o _ _ => Database.not_throws_addSource fs _⟩
  · cases out.status <;> decide
  · intro failed
    rw [Status.code_injective (t := .failure) failed] at ends
    exact ends.of_failure
  · intro bad
    rw [Status.code_injective (t := .badDatabase) bad] at ends
    exact ends.of_badDatabase
  · intro t rest isReport printed
    rw [printed] at ends
    rw [ends.success_of_report isReport]
    rfl

end CommandLine

end DriveHealth
