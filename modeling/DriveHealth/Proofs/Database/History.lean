import DriveHealth.Proofs.Database.Conversion
import DriveHealth.Proofs.Database.EntryList

/-! The life of a database from its first call on. A call reduces to steps that append one entry each,
with the origin of the entry; the log of all steps is compared with the database. Files may change
between calls, and a call may fail or stop halfway. -/
namespace DriveHealth.Database

inductive Origin where
  | file
  | table
  deriving DecidableEq, Repr

/-- What an entry of a file has to be: the conversion of settings without errors. -/
def Converted (e : Entry) : Prop := ∃ s : Settings, s.convert.isGood = true ∧ s.convert.entry = e

/-- One entry appended. An entry from a file is refused behind builtin entries. -/
inductive Step : Database → Origin × Entry → Database → Prop where
  | file {db : Database} {e : Entry} : db.builtin = [] → Converted e →
      Step db (.file, e) (db.appendCustom [e])
  | table {db : Database} {e : Entry} : e ∈ Builtin.entries → Step db (.table, e) (db.addBuiltin [e])

inductive Steps : Database → List (Origin × Entry) → Database → Prop where
  | refl (db) : Steps db [] db
  | cons {db x mid xs last} : Step db x mid → Steps mid xs last → Steps db (x :: xs) last

/-- The entries of one origin in a log. -/
def ofOrigin (o : Origin) (log : List (Origin × Entry)) : List Entry :=
  (log.filter fun x => x.1 = o).map Prod.snd

/-! ### What a step keeps -/

theorem Step.entries {db db' : Database} {x : Origin × Entry} (h : Step db x db') :
    db'.entries = db.entries ++ [x.2] := by
  cases h with
  | file hb _ => simp [Database.entries, appendCustom, hb]
  | table _ => simp [Database.entries, addBuiltin]

theorem Step.custom {db db' : Database} {x : Origin × Entry} (h : Step db x db') :
    db'.custom = db.custom ++ ofOrigin .file [x] := by
  cases h with
  | file => rfl
  | table => exact (List.append_nil _).symm

theorem Step.builtin {db db' : Database} {x : Origin × Entry} (h : Step db x db') :
    db'.builtin = db.builtin ++ ofOrigin .table [x] := by
  cases h with
  | file => exact (List.append_nil _).symm
  | table => rfl

theorem Step.wellFormed {db db' : Database} {x : Origin × Entry} (h : Step db x db') :
    x.2.WellFormed := by
  cases h with
  | file _ he =>
    obtain ⟨s, hs, rfl⟩ := he
    exact (Settings.modelCompiles_of_good hs).wellFormed
  | table he => exact Builtin.entries_wellFormed he

/-! ### What steps keep -/

theorem ofOrigin_cons (o : Origin) (x : Origin × Entry) (xs : List (Origin × Entry)) :
    ofOrigin o (x :: xs) = ofOrigin o [x] ++ ofOrigin o xs := by
  rw [ofOrigin, ofOrigin, ofOrigin, ← List.map_append, ← List.filter_append, List.singleton_append]

namespace Steps

variable {db mid last : Database} {xs ys : List (Origin × Entry)}

theorem entries (h : Steps db xs last) : last.entries = db.entries ++ xs.map Prod.snd := by
  induction h with
  | refl => simp
  | cons hs _ ih => rw [ih, hs.entries, List.append_assoc, List.map_cons, List.singleton_append]

theorem custom (h : Steps db xs last) : last.custom = db.custom ++ ofOrigin .file xs := by
  induction h with
  | refl => exact (List.append_nil _).symm
  | cons hs _ ih => rw [ih, hs.custom, List.append_assoc, ← ofOrigin_cons]

theorem builtin (h : Steps db xs last) : last.builtin = db.builtin ++ ofOrigin .table xs := by
  induction h with
  | refl => exact (List.append_nil _).symm
  | cons hs _ ih => rw [ih, hs.builtin, List.append_assoc, ← ofOrigin_cons]

theorem wellFormed (h : Steps db xs last) : ∀ x ∈ xs, x.2.WellFormed := by
  induction h with
  | refl =>
    intro x hx
    cases hx
  | cons hs _ ih => exact List.forall_mem_cons.mpr ⟨hs.wellFormed, ih⟩

theorem trans (h : Steps db xs mid) (h' : Steps mid ys last) : Steps db (xs ++ ys) last := by
  induction h with
  | refl => exact h'
  | cons hs _ ih => exact .cons hs (ih h')

theorem appendCustom {es : List Entry} (hb : db.builtin = []) (h : ∀ e ∈ es, Converted e) :
    Steps db (es.map (Origin.file, ·)) (db.appendCustom es) := by
  induction es generalizing db with
  | nil =>
    have hd : db.appendCustom [] = db := by simp [Database.appendCustom]
    rw [hd]
    exact .refl db
  | cons e r ih =>
    obtain ⟨he, hr⟩ := List.forall_mem_cons.mp h
    have hd : db.appendCustom (e :: r) = (db.appendCustom [e]).appendCustom r := by
      rw [appendCustom_append, List.singleton_append]
    rw [hd]
    exact .cons (.file hb he) (ih hb hr)

theorem addBuiltin {es : List Entry} (h : ∀ e ∈ es, e ∈ Builtin.entries) :
    Steps db (es.map (Origin.table, ·)) (db.addBuiltin es) := by
  induction es generalizing db with
  | nil =>
    have hd : db.addBuiltin [] = db := by simp [Database.addBuiltin]
    rw [hd]
    exact .refl db
  | cons e r ih =>
    obtain ⟨he, hr⟩ := List.forall_mem_cons.mp h
    have hd : db.addBuiltin (e :: r) = (db.addBuiltin [e]).addBuiltin r := by
      simp [Database.addBuiltin]
    rw [hd]
    exact .cons (.table he) (ih hr)

end Steps

/-! ### Reading behind builtin entries -/

/-- Reading the text stopped at the first entry that converts, with everything told so far. -/
def StopsAtFirst (path t : Text) (r : Reading) : Prop :=
  ∃ before s rest, outlineOf t = before ++ .entry s :: rest ∧
    (∀ i ∈ before, i.converts = false) ∧ s.value.convert.isGood = true ∧
    r.messages = (before ++ [Item.entry s]).flatMap (Item.messages path) ∧
    r.isGood = false ∧ r.fault = some .customAfterBuiltin

/-- Behind builtin entries a file either has no entry that converts or cannot be read on. -/
def ReadsNothing (db : Database) (files : FileSystem) (path : Text) : Prop :=
  (db.addFile files path).database = db ∧
    (((db.addFile files path).fault = none ∧
        ∀ t, files.text? path = some t → goodEntries (settingsIn (tokensOf t)) = []) ∨
      ∃ t, files.text? path = some t ∧ StopsAtFirst path t (db.addFile files path))

theorem readsNothing_of_missing {files : FileSystem} {path : Text} (h : files.text? path = none)
    (db : Database) : db.ReadsNothing files path := by
  rw [ReadsNothing, addFile, h]
  exact ⟨rfl, .inl ⟨rfl, fun t ht => by cases ht⟩⟩

theorem readsNothing_of_builtin {db : Database} (hb : db.builtin ≠ []) (files : FileSystem)
    (path : Text) : db.ReadsNothing files path := by
  cases ht : files.text? path with
  | none => exact readsNothing_of_missing ht db
  | some t =>
    rw [ReadsNothing, addFile, ht]
    dsimp only
    rcases none_converts_or_first (outlineOf t) with hn | ⟨before, s, rest, he, hbefore, hs⟩
    · have none_good : goodEntries (settingsIn (tokensOf t)) = [] := by
        rw [← outlineOf_settings, goodEntries_eq_nil_iff]
        exact hn
      rw [read, addItems_of_none_converts hn]
      exact ⟨rfl, .inl ⟨rfl, fun u hu => Option.some.inj hu ▸ none_good⟩⟩
    · -- A reading that was given up has no summary behind its messages.
      have hr : read db path t = addItems path db (outlineOf t) := by
        rw [read, he, addItems_fault hb hbefore hs]
        rfl
      rw [hr, he, addItems_fault hb hbefore hs]
      exact ⟨rfl, .inr ⟨t, rfl, before, s, rest, he, hbefore, hs, rfl, rfl, rfl⟩⟩

/-! ### Calls -/

/-- A call that fills a database, with the files that it finds. -/
inductive Call where
  | read (files : FileSystem) (path : Text)
  | builtin
  | init (files : FileSystem) (argument : Option Text)

def Call.run (db : Database) : Call → Reading
  | read files path => db.addFile files path
  | builtin => { database := db.addBuiltin Builtin.entries }
  | init files argument => db.addSource files (.ofArgument argument)

/-- What is left of a database after calls, whatever their verdicts and faults were. -/
def after (db : Database) (calls : List Call) : Database :=
  calls.foldl (fun db c => (c.run db).database) db

/-- The entries that are read from a file: those of its text that convert, and none behind builtin
entries. -/
def fileLog (db : Database) (files : FileSystem) (path : Text) : List (Origin × Entry) :=
  match files.text? path with
  | some t => if db.builtin = [] then (goodEntries (settingsIn (tokensOf t))).map (Origin.file, ·) else []
  | none => []

def tableLog : List (Origin × Entry) := Builtin.entries.map (Origin.table, ·)

def sourceLog (db : Database) (files : FileSystem) : Source → List (Origin × Entry)
  | .installed => if files.holds installedPath then db.fileLog files installedPath else tableLog
  | .file path => db.fileLog files path
  | .added path =>
    db.fileLog files path ++ if (db.addFile files path).isGood then tableLog else []

def Call.log (db : Database) : Call → List (Origin × Entry)
  | read files path => db.fileLog files path
  | builtin => tableLog
  | init files argument => db.sourceLog files (.ofArgument argument)

def history (db : Database) : List Call → List (Origin × Entry)
  | [] => []
  | c :: r => c.log db ++ history (c.run db).database r

theorem goodEntries_converted {ss : List Settings} : ∀ e ∈ goodEntries ss, Converted e := by
  intro e he
  obtain ⟨s, hs, rfl⟩ := List.mem_map.mp he
  exact ⟨s, (List.mem_filter.mp hs).2, rfl⟩

theorem addFile_steps (db : Database) (files : FileSystem) (path : Text) :
    Steps db (db.fileLog files path) (db.addFile files path).database := by
  rw [fileLog]
  cases ht : files.text? path with
  | none =>
    rw [(readsNothing_of_missing ht db).1]
    exact .refl db
  | some t =>
    dsimp only
    by_cases hb : db.builtin = []
    · obtain ⟨m, -, he⟩ := addFile_eq hb ht
      rw [if_pos hb, he, outlineOf_settings]
      exact .appendCustom hb goodEntries_converted
    · rw [if_neg hb, (readsNothing_of_builtin hb files path).1]
      exact .refl db

theorem addTable_steps (db : Database) : Steps db tableLog (db.addBuiltin Builtin.entries) :=
  .addBuiltin fun _ he => he

theorem addSource_steps (db : Database) (files : FileSystem) (source : Source) :
    Steps db (db.sourceLog files source) (db.addSource files source).database := by
  cases source with
  | installed =>
    rw [sourceLog, addSource]
    split
    · exact addFile_steps db files installedPath
    · exact addTable_steps db
  | file path => exact addFile_steps db files path
  | added path =>
    rw [sourceLog, addSource, Reading.withBuiltin]
    split
    · exact (addFile_steps db files path).trans (addTable_steps _)
    · rw [List.append_nil]
      exact addFile_steps db files path

/-- What a call appends is what it logs, also if it fails. -/
theorem Call.steps (db : Database) (c : Call) : Steps db (c.log db) (c.run db).database := by
  cases c with
  | read files path => exact addFile_steps db files path
  | builtin => exact addTable_steps db
  | init files argument => exact addSource_steps db files (.ofArgument argument)

theorem history_steps (db : Database) (calls : List Call) :
    Steps db (history db calls) (after db calls) := by
  induction calls generalizing db with
  | nil => exact .refl db
  | cons c r ih => exact (c.steps db).trans (ih _)

/-- After any calls, the database is its history: every entry stands where it was appended, those
from files in front of the builtin ones, and each is well formed. Behind builtin entries nothing is
read from a file any more. -/
theorem database_keeps_history (calls : List Call) :
    let db := after {} calls
    let log := history {} calls
    (∀ more, db.entries <+: (after {} (calls ++ more)).entries) ∧
    db.entries = log.map Prod.snd ∧
    db.entries.take db.custom.length = ofOrigin .file log ∧
    db.entries.drop db.custom.length = ofOrigin .table log ∧
    (∀ e ∈ db.entries, e.WellFormed) ∧
    (db.builtin ≠ [] → ∀ files path, db.ReadsNothing files path) := by
  intro db log
  have run : Steps {} log db := history_steps {} calls
  have entries : db.entries = log.map Prod.snd := run.entries
  have custom : db.custom = ofOrigin .file log := run.custom
  have builtin : db.builtin = ofOrigin .table log := run.builtin
  refine ⟨?_, entries, ?_, ?_, ?_, ?_⟩
  · intro more
    have later : Steps db (history db more) (after {} (calls ++ more)) := by
      rw [after, List.foldl_append]
      exact history_steps db more
    rw [later.entries]
    exact List.prefix_append _ _
  · rw [← custom, Database.entries, List.take_left]
  · rw [← builtin, Database.entries, List.drop_left]
  · intro e he
    rw [entries] at he
    obtain ⟨x, hx, rfl⟩ := List.mem_map.mp he
    exact run.wellFormed x hx
  · intro hb files path
    exact readsNothing_of_builtin hb files path

end DriveHealth.Database
