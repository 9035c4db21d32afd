import DriveHealth.Database.Source

/-! What the items of a text do to a database. Every item has its own settings, messages and
verdict. A database without builtin entries takes them one after the other; one with builtin entries
stops at the first item that would give it an entry. -/
namespace DriveHealth.Database

namespace Item

def settings? : Item → Option Settings
  | entry s => some s.value
  | _ => none

/-- Text that the lexer complains of spoils a reading only through the token it should be. -/
def isPlaced : Item → Bool
  | expected _ | stray => false
  | lexical _ | entry _ => true

def isFine (i : Item) : Bool := i.isPlaced && i.settings?.all (·.convert.isGood)

/-- Whether the item is an entry that a database can get. -/
def converts (i : Item) : Bool := i.settings?.any (·.convert.isGood)

def messages (path : Text) : Item → List Message
  | lexical p => [errorAt path p.line p.value.text]
  | expected p => [errorAt path p.line ("Syntax error, '" ++ [p.value, '\''] ++ " expected")]
  | stray => []
  | entry s => s.value.convert.messages (location path s.line)

theorem all_fine_iff (items : List Item) :
    items.all isFine = true ↔
      (∀ i ∈ items, i.isPlaced) ∧ ∀ s ∈ items.filterMap settings?, s.convert.isGood := by
  simp only [List.all_eq_true, isFine, Bool.and_eq_true, Option.all_eq_true, List.mem_filterMap]
  constructor
  · intro h
    refine ⟨fun i hi => (h i hi).1, ?_⟩
    rintro s ⟨i, hi, hs⟩
    exact (h i hi).2 s hs
  · rintro ⟨hp, hg⟩ i hi
    exact ⟨hp i hi, fun s hs => hg s ⟨i, hi, hs⟩⟩

theorem entry_of_converts {i : Item} (h : i.converts = true) :
    ∃ s, i = entry s ∧ s.value.convert.isGood = true := by
  cases i with
  | entry s => exact ⟨s, rfl, h⟩
  | lexical | expected | stray => cases h

end Item

def goodEntries (ss : List Settings) : List Entry :=
  (ss.filter (·.convert.isGood)).map (·.convert.entry)

def appendCustom (db : Database) (es : List Entry) : Database :=
  { db with custom := db.custom ++ es }

theorem goodEntries_cons_of_not {i : Item} (h : i.converts = false) (r : List Item) :
    goodEntries ((i :: r).filterMap Item.settings?) = goodEntries (r.filterMap Item.settings?) := by
  rw [Item.converts] at h
  cases hs : i.settings? with
  | none => simp [hs]
  | some s =>
    rw [hs] at h
    have hg : s.convert.isGood = false := h
    simp [hs, goodEntries, hg]

theorem goodEntries_eq_nil_iff (items : List Item) :
    goodEntries (items.filterMap Item.settings?) = [] ↔ ∀ i ∈ items, i.converts = false := by
  induction items with
  | nil => simp [goodEntries]
  | cons i r ih =>
    rw [List.forall_mem_cons, ← ih]
    cases hc : i.converts with
    | false => simp [goodEntries_cons_of_not hc]
    | true =>
      obtain ⟨s, rfl, hg⟩ := Item.entry_of_converts hc
      simp [goodEntries, Item.settings?, hg]

theorem addCustom_eq {db : Database} (h : db.builtin = []) (e : Entry) :
    db.addCustom e = .ok (db.appendCustom [e]) := by
  simp [addCustom, appendCustom, h]

theorem appendCustom_append (db : Database) (es fs : List Entry) :
    (db.appendCustom es).appendCustom fs = db.appendCustom (es ++ fs) := by
  simp [appendCustom]

theorem addItems_cons {i : Item} (h : i.converts = false) (path : Text) (db : Database)
    (r : List Item) :
    addItems path db (i :: r) = (addItems path db r).after (i.messages path) i.isFine := by
  cases i with
  | lexical p => rfl
  | expected p => rfl
  | stray => rfl
  | entry s =>
    have hs : s.value.convert.isGood = false := h
    simp [addItems, hs, Item.messages, Item.isFine, Item.isPlaced, Item.settings?]

theorem addItems_cons_entry {s : Located Settings} (h : s.value.convert.isGood = true) {path : Text}
    {db db' : Database} (ha : db.addCustom s.value.convert.entry = .ok db') (r : List Item) :
    addItems path db (.entry s :: r) =
      (addItems path db' r).after (Item.messages path (.entry s)) true := by
  simp only [addItems, h, ha, if_true]
  rfl

theorem addItems_cons_fault {s : Located Settings} (h : s.value.convert.isGood = true) {path : Text}
    {db : Database} {f : Fault} (ha : db.addCustom s.value.convert.entry = .error f) (r : List Item) :
    addItems path db (.entry s :: r) =
      { database := db, messages := Item.messages path (.entry s), isGood := false, fault := some f } := by
  simp only [addItems, h, ha, if_true]
  rfl

/-- Only a builtin entry in front can stop a reading. -/
theorem addItems_eq {db : Database} (h : db.builtin = []) (path : Text) (items : List Item) :
    addItems path db items =
      { database := db.appendCustom (goodEntries (items.filterMap Item.settings?))
        messages := items.flatMap (Item.messages path)
        isGood := items.all Item.isFine
        fault := none } := by
  induction items generalizing db with
  | nil => simp [addItems, goodEntries, appendCustom]
  | cons i r ih =>
    cases hc : i.converts with
    | false =>
      rw [addItems_cons hc, ih h]
      simp [Reading.after, goodEntries_cons_of_not hc]
    | true =>
      obtain ⟨s, rfl, hg⟩ := Item.entry_of_converts hc
      have hb : (db.appendCustom [s.value.convert.entry]).builtin = [] := h
      rw [addItems_cons_entry hg (addCustom_eq h _), ih hb, appendCustom_append]
      simp [Reading.after, goodEntries, hg, Item.settings?, Item.isFine, Item.isPlaced]

theorem addItems_of_none_converts {items : List Item} (h : ∀ i ∈ items, i.converts = false)
    (path : Text) (db : Database) :
    addItems path db items =
      { database := db
        messages := items.flatMap (Item.messages path)
        isGood := items.all Item.isFine
        fault := none } := by
  induction items with
  | nil => rfl
  | cons i r ih =>
    obtain ⟨hi, hr⟩ := List.forall_mem_cons.mp h
    rw [addItems_cons hi, ih hr]
    rfl

theorem addCustom_fault {db : Database} (h : db.builtin ≠ []) (e : Entry) :
    db.addCustom e = .error .customAfterBuiltin := by
  simp [addCustom, h]

theorem addItems_fault {db : Database} (h : db.builtin ≠ []) {before : List Item}
    (hb : ∀ i ∈ before, i.converts = false) {s : Located Settings}
    (hs : s.value.convert.isGood = true) (path : Text) (after : List Item) :
    addItems path db (before ++ .entry s :: after) =
      { database := db
        messages := (before ++ [Item.entry s]).flatMap (Item.messages path)
        isGood := false
        fault := some .customAfterBuiltin } := by
  induction before with
  | nil =>
    rw [List.nil_append, addItems_cons_fault hs (addCustom_fault h _)]
    simp
  | cons i r ih =>
    obtain ⟨hi, hr⟩ := List.forall_mem_cons.mp hb
    rw [List.cons_append, addItems_cons hi, ih hr]
    simp [Reading.after]

/-- Items that give no entry, or those in front of the first one that does. -/
theorem none_converts_or_first (items : List Item) :
    (∀ i ∈ items, i.converts = false) ∨
      ∃ before s after, items = before ++ .entry s :: after ∧
        (∀ i ∈ before, i.converts = false) ∧ s.value.convert.isGood = true := by
  cases hf : items.find? Item.converts with
  | none =>
    left
    simpa using List.find?_eq_none.mp hf
  | some i =>
    right
    obtain ⟨hi, before, after, rfl, hb⟩ := List.find?_eq_some_iff_append.mp hf
    obtain ⟨s, rfl, hs⟩ := Item.entry_of_converts hi
    exact ⟨before, s, after, rfl, by simpa using hb, hs⟩

/-- A file adds the good entries of its text, and one line of information follows the messages. -/
theorem addFile_eq {db : Database} {fs : FileSystem} {path t : Text} (hb : db.builtin = [])
    (ht : fs.text? path = some t) :
    ∃ summary : Message, summary.level = .info ∧
      db.addFile fs path =
        { database := db.appendCustom (goodEntries ((outlineOf t).filterMap Item.settings?))
          messages := (outlineOf t).flatMap (Item.messages path) ++ [summary]
          isGood := (outlineOf t).all Item.isFine
          fault := none } := by
  simp only [addFile, ht, read, addItems_eq hb]
  exact ⟨_, rfl, rfl⟩

/-- Only one text to read, whatever the path is. -/
def holding (t : Text) : FileSystem := fun _ => .ok (.file t)

end DriveHealth.Database
