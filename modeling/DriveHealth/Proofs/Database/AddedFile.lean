import DriveHealth.Proofs.Database.Conversion
import DriveHealth.Proofs.Database.FirstMatch
import DriveHealth.Proofs.Database.Items

/-! A file in front of the builtin entries. The models that the file describes are answered as by the
file alone, all others as by the builtin entries alone: these bring their own defaults, so that those
of the file end where the builtin entries begin. -/
namespace DriveHealth.Database

/-- The same entry was found, perhaps at another place, with the same defaults. -/
def Found.Agrees (f g : Found) : Prop :=
  f.index.map Prod.snd = g.index.map Prod.snd ∧ f.defaults = g.defaults

theorem Found.Agrees.lookup {f g : Found} (h : f.Agrees g) (model : Text) :
    (f.lookup model).entry = (g.lookup model).entry ∧
      (f.lookup model).isMatch = (g.lookup model).isMatch := by
  obtain ⟨f, d⟩ := f
  obtain ⟨g, d'⟩ := g
  obtain ⟨he, hd⟩ := h
  dsimp only at he hd
  subst hd
  cases f with
  | none =>
    cases g with
    | none => exact ⟨rfl, rfl⟩
    | some y => cases he
  | some x =>
    cases g with
    | none => cases he
    | some y =>
      have hxy : x.2 = y.2 := Option.some.inj he
      simp [Found.lookup, hxy]

theorem search_agrees (model : Text) (d : Option Entry) (i j : Nat) (es : List Entry) :
    (search model d i es).Agrees (search model d j es) := by
  induction es generalizing d i j with
  | nil => exact ⟨rfl, rfl⟩
  | cons e r ih =>
    rw [search, search]
    by_cases hd : e.family = Family.default
    · rw [if_pos hd, if_pos hd]
      exact ih _ _ _
    · rw [if_neg hd, if_neg hd]
      by_cases ha : e.describes model = true
      · rw [if_pos ha, if_pos ha]
        exact ⟨rfl, rfl⟩
      · rw [if_neg ha, if_neg ha]
        exact ih _ _ _

/-- Entries that bring their own defaults, with none for drives in front of them. -/
def BringsDefaults (es : List Entry) : Prop :=
  ∃ before d after, es = before ++ d :: after ∧ d.family = Family.default ∧
    ∀ e ∈ before, Family.isDrive e.family = false

theorem search_forgets_defaults {es : List Entry} (h : BringsDefaults es) (model : Text)
    (d d' : Option Entry) (i j : Nat) :
    (search model d i es).Agrees (search model d' j es) := by
  obtain ⟨before, f, after, rfl, hf, hb⟩ := h
  have none_answers : ∀ e ∈ before, ¬ Answers e model := by
    intro e he ha
    have hd := (describes_iff e model).mpr ha
    rw [Entry.describes, hb e he] at hd
    cases hd
  -- Both searches get to the defaults, and from there on have the same ones.
  rw [search_skips none_answers, search_skips none_answers, search, if_pos hf, search, if_pos hf]
  exact search_agrees model (some f) _ _ after

theorem builtin_bringsDefaults : BringsDefaults Builtin.entries := by
  obtain ⟨a, b, r, h, ha, hb⟩ : ∃ a b r, Builtin.settings = a :: b :: r ∧ Family.isDrive a.family = false ∧
      b.family = Family.default := ⟨_, _, _, rfl, rfl, rfl⟩
  refine ⟨[a.convert.entry], b.convert.entry, r.map (·.convert.entry), ?_, ?_, ?_⟩
  · rw [Builtin.entries, h]
    rfl
  · rw [Settings.convert_family, hb]
  · intro e he
    rw [List.mem_singleton.mp he, Settings.convert_family, ha]

theorem entries_addBuiltin (db : Database) (es : List Entry) :
    (db.addBuiltin es).entries = db.entries ++ es := (List.append_assoc ..).symm

theorem FirstMatch.addBuiltin {db : Database} {model : Text} {i : Nat} {e : Entry}
    (h : FirstMatch db model i e) (es : List Entry) : FirstMatch (db.addBuiltin es) model i e := by
  have hi : i < db.entries.length := (List.getElem?_eq_some_iff.mp h.here).1
  have same : ∀ j < db.entries.length, (db.addBuiltin es).entries[j]? = db.entries[j]? := by
    intro j hj
    rw [entries_addBuiltin, List.getElem?_append_left hj]
  refine ⟨(same i hi).trans h.here, h.answers, ?_⟩
  intro j hj f hf
  exact h.first j hj f ((same j (Nat.lt_trans hj hi)).symm.trans hf)

theorem FirstMatch.lookup_addBuiltin {db : Database} {model : Text} {i : Nat} {e : Entry}
    (h : FirstMatch db model i e) (es : List Entry) :
    (db.addBuiltin es).lookup model = db.lookup model := by
  have hi : i < db.entries.length := (List.getElem?_eq_some_iff.mp h.here).1
  rw [lookup, lookup, (h.addBuiltin es).search_eq, h.search_eq, entries_addBuiltin,
    List.take_append_of_le_length (Nat.le_of_lt hi)]

theorem lookup_addBuiltin_of_none {db : Database} {model : Text}
    (h : ∀ e ∈ db.entries, ¬ Answers e model) {es : List Entry} (hes : BringsDefaults es) :
    ((db.addBuiltin es).lookup model).entry = ((({} : Database).addBuiltin es).lookup model).entry ∧
      ((db.addBuiltin es).lookup model).isMatch =
        ((({} : Database).addBuiltin es).lookup model).isMatch := by
  have agrees := search_forgets_defaults hes model ((lastDefault db.entries).or none) none
    (0 + db.entries.length) 0
  rw [lookup, lookup, entries_addBuiltin, entries_addBuiltin, search_skips h]
  exact agrees.lookup model

theorem Reading.withBuiltin_of_good {r : Reading} (h : r.isGood = true) :
    r.withBuiltin = { r with database := r.database.addBuiltin Builtin.entries } := by
  rw [withBuiltin, if_pos h]

theorem addFile_fault_of_good {db : Database} (hb : db.builtin = []) {fs : FileSystem} {path : Text}
    (h : (db.addFile fs path).isGood = true) : (db.addFile fs path).fault = none := by
  cases ht : fs.text? path with
  | none =>
    simp [addFile, ht] at h
  | some t =>
    obtain ⟨m, -, he⟩ := addFile_eq hb ht
    rw [he]

/-- A file in front of the builtin entries answers for the models that it describes, with its own
defaults only, and leaves all other models to the builtin entries. -/
theorem added_file_answers_first {fs : FileSystem} {path : Text}
    (accepted : (({} : Database).addFile fs path).isGood = true) (model : Text) :
    let file := (({} : Database).addFile fs path).database
    let builtin := ({} : Database).addBuiltin Builtin.entries
    let both := ({} : Database).addSource fs (.ofArgument (some ('+' :: path)))
    both.isGood = true ∧ both.fault = none ∧
    ((file.lookup model).isMatch = true →
      (both.database.lookup model).entry = (file.lookup model).entry ∧
        (both.database.lookup model).isMatch = true) ∧
    ((file.lookup model).isMatch = false →
      (both.database.lookup model).entry = (builtin.lookup model).entry ∧
        (both.database.lookup model).isMatch = (builtin.lookup model).isMatch) := by
  intro file builtin both
  have hboth : both = { ({} : Database).addFile fs path with
      database := file.addBuiltin Builtin.entries } := Reading.withBuiltin_of_good accepted
  refine ⟨?_, ?_, ?_, ?_⟩
  · rw [hboth]
    exact accepted
  · rw [hboth]
    exact addFile_fault_of_good rfl accepted
  · intro hm
    obtain ⟨e, he, ha⟩ := (lookup_isMatch_iff file model).mp hm
    obtain ⟨i, f, first⟩ := exists_first_match he ha
    have same : both.database.lookup model = file.lookup model := by
      rw [hboth]
      exact first.lookup_addBuiltin Builtin.entries
    rw [same]
    exact ⟨rfl, hm⟩
  · intro hm
    have none_answers : ∀ e ∈ file.entries, ¬ Answers e model := by
      intro e he ha
      rw [(lookup_isMatch_iff file model).mpr ⟨e, he, ha⟩] at hm
      cases hm
    rw [hboth]
    exact lookup_addBuiltin_of_none none_answers builtin_bringsDefaults

/-- Defaults of its own, a placeholder, an adapter and one drive. -/
def ownDefaults : Text :=
  "\x7b \"DEFAULT\", \"-\", \"\", \"\", \"-v 9,raw8,Own_Hours\" \x7d,
\x7b \"$Id$\", \"-\", \"\", \"\", \"\" \x7d,
\x7b \"USB: ;\", \"^A\", \"\", \"\", \"-d sat\" \x7d,
\x7b \"A\", \"^A1\", \"\", \"\", \"-v 5,hex48\" \x7d"

theorem added_file_answers_first_ownDefaults :
    let file := (({} : Database).addFile (holding ownDefaults) "a.h").database
    let builtin := ({} : Database).addBuiltin Builtin.entries
    let both := ({} : Database).addSource (holding ownDefaults) (.ofArgument (some "+a.h".toList))
    (({} : Database).addFile (holding ownDefaults) "a.h").isGood = true ∧
    (file.lookup "A1").isMatch = true ∧
    (both.database.lookup "A1").entry = (file.lookup "A1").entry ∧
    (file.lookup "ST1000DM000-1").isMatch = false ∧
    (both.database.lookup "ST1000DM000-1").entry = (builtin.lookup "ST1000DM000-1").entry ∧
    (both.database.lookup "ST1000DM000-1").isMatch = (builtin.lookup "ST1000DM000-1").isMatch := by
  have ⟨accepted, own, other⟩ :
      (({} : Database).addFile (holding ownDefaults) "a.h").isGood = true ∧
      ((({} : Database).addFile (holding ownDefaults) "a.h").database.lookup "A1").isMatch = true ∧
      ((({} : Database).addFile (holding ownDefaults) "a.h").database.lookup
        "ST1000DM000-1").isMatch = false := by
    unfold ownDefaults
    -- characters in place of the literal, which takes the kernel long
    simp -index only [String.toList_ofList]
    decide +kernel
  obtain ⟨-, -, h, -⟩ := added_file_answers_first accepted "A1"
  obtain ⟨-, -, -, h'⟩ := added_file_answers_first accepted "ST1000DM000-1"
  exact ⟨accepted, own, (h own).1, other, (h' other).1, (h' other).2⟩

end DriveHealth.Database
