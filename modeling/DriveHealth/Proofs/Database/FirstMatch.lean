import DriveHealth.Database.Lookup
import DriveHealth.Proofs.Attribute.Presets
import Mathlib.Data.Nat.Find

/-! Looking a model up against what it should find: the eligible entry with the least index, merged
with the last defaults in front of it. -/
namespace DriveHealth.Database

/-- Entries of drives, neither placeholders nor adapters nor defaults. -/
def Eligible (e : Entry) : Prop :=
  ¬ ("$" : Text) <+: e.family ∧ ¬ ("USB:" : Text) <+: e.family ∧ e.family ≠ ("DEFAULT" : Text)

def Answers (e : Entry) (model : Text) : Prop := Eligible e ∧ e.isFor model = true

/-- The entry at an index is the first one that answers. -/
structure FirstMatch (db : Database) (model : Text) (i : Nat) (e : Entry) : Prop where
  here : db.entry? i = some e
  answers : Answers e model
  first : ∀ j < i, ∀ f, db.entry? j = some f → ¬ Answers f model

def lastDefault (es : List Entry) : Option Entry :=
  (es.filter fun e => e.family = Family.default).getLast?

def baseline (db : Database) (i : Nat) : Presets :=
  ((lastDefault (db.entries.take i)).map Entry.presets).getD .empty

theorem describes_iff (e : Entry) (model : Text) :
    e.describes model = true ↔ Answers e model := by
  have not_prefix (t u : Text) : (!startsWith t u) = true ↔ ¬ u <+: t := by
    rw [startsWith, ← List.isPrefixOf_iff_prefix, Bool.not_eq_true', Bool.not_eq_true]
  rw [Entry.describes, Family.isDrive, Bool.and_eq_true, Bool.and_eq_true, Bool.and_eq_true,
    Family.isPlaceholder, Family.isUsb, not_prefix, not_prefix, decide_eq_true_eq, Answers, Eligible]
  simp only [and_assoc]
  exact Iff.rfl

theorem lastDefault_cons (e : Entry) (es : List Entry) (d : Option Entry) :
    (lastDefault (e :: es)).or d =
      (lastDefault es).or (if e.family = Family.default then some e else d) := by
  by_cases h : e.family = Family.default
  · have hf : ((e :: es).filter fun e => e.family = Family.default) =
        e :: es.filter fun e => e.family = Family.default := List.filter_cons_of_pos (decide_eq_true h)
    rw [lastDefault, hf, List.getLast?_cons, if_pos h, lastDefault]
    cases (es.filter fun e => e.family = Family.default).getLast? with
    | none => rfl
    | some f => rfl
  · have hf : ((e :: es).filter fun e => e.family = Family.default) =
        es.filter fun e => e.family = Family.default := List.filter_cons_of_neg (by simpa using h)
    rw [lastDefault, hf, if_neg h, lastDefault]

theorem search_skips {model : Text} {es : List Entry} (h : ∀ e ∈ es, ¬ Answers e model)
    (d : Option Entry) (i : Nat) (rest : List Entry) :
    search model d i (es ++ rest) =
      search model ((lastDefault es).or d) (i + es.length) rest := by
  induction es generalizing d i with
  | nil => rfl
  | cons e r ih =>
    obtain ⟨he, hr⟩ := List.forall_mem_cons.mp h
    have hl : i + (e :: r).length = i + 1 + r.length := by
      rw [List.length_cons]
      omega
    rw [List.cons_append, search, hl, lastDefault_cons]
    by_cases hd : e.family = Family.default
    · rw [if_pos hd, if_pos hd, ih hr]
    · have hn : ¬ e.describes model = true := fun hn => he ((describes_iff e model).mp hn)
      rw [if_neg hd, if_neg hd, if_neg hn, ih hr]

theorem search_finds {model : Text} {e : Entry} (h : Answers e model) (d : Option Entry) (i : Nat)
    (rest : List Entry) : search model d i (e :: rest) = ⟨some (i, e), d⟩ := by
  have hd : e.family ≠ Family.default := h.1.2.2
  rw [search, if_neg hd, if_pos ((describes_iff e model).mpr h)]

theorem exists_first_match {db : Database} {model : Text} {e : Entry} (he : e ∈ db.entries)
    (h : Answers e model) : ∃ i f, FirstMatch db model i f := by
  classical
  have found : ∃ i f, db.entry? i = some f ∧ Answers f model := by
    obtain ⟨i, hi⟩ := List.mem_iff_getElem?.mp he
    exact ⟨i, e, hi, h⟩
  obtain ⟨f, here, answers⟩ := Nat.find_spec found
  refine ⟨Nat.find found, f, here, answers, ?_⟩
  intro j hj g hg hm
  exact Nat.find_min found hj ⟨g, hg, hm⟩

theorem FirstMatch.search_eq {db : Database} {model : Text} {i : Nat} {e : Entry}
    (h : FirstMatch db model i e) :
    search model none 0 db.entries = ⟨some (i, e), lastDefault (db.entries.take i)⟩ := by
  obtain ⟨hl, he⟩ := List.getElem?_eq_some_iff.mp h.here
  have split : db.entries = db.entries.take i ++ e :: db.entries.drop (i + 1) := by
    rw [← he, ← List.drop_eq_getElem_cons hl, List.take_append_drop]
  have before : ∀ f ∈ db.entries.take i, ¬ Answers f model := by
    intro f hf
    obtain ⟨j, hj, hjf⟩ := List.mem_take_iff_getElem.mp hf
    have hji : j < i := by omega
    exact h.first j hji f (List.getElem?_eq_some_iff.mpr ⟨by omega, hjf⟩)
  have hlen : 0 + (db.entries.take i).length = i := by
    rw [List.length_take]
    omega
  have first := search_skips before none 0 (e :: db.entries.drop (i + 1))
  rw [← split, search_finds h.answers, hlen, Option.or_none] at first
  exact first

theorem lookup_isMatch_iff (db : Database) (model : Text) :
    (db.lookup model).isMatch = true ↔ ∃ e ∈ db.entries, Answers e model := by
  constructor
  · intro h
    by_contra none_answers
    push Not at none_answers
    have hs := search_skips none_answers none 0 []
    rw [List.append_nil] at hs
    rw [lookup, hs] at h
    cases h
  · rintro ⟨e, he, ha⟩
    obtain ⟨i, f, first⟩ := exists_first_match he ha
    rw [lookup, first.search_eq]
    rfl

/-- A look-up finds the first entry that answers and fills its presets up from the baseline; if no
entry answers it gives back the last defaults as they are. -/
theorem lookup_first_match (db : Database) (model : Text) :
    ((∃ e ∈ db.entries, Answers e model) →
      ∃ i e, FirstMatch db model i e ∧ (db.lookup model).isMatch = true ∧
        (db.lookup model).entry = { e with presets := (db.lookup model).entry.presets } ∧
        ∀ key, (db.lookup model).entry.presets.get? key =
          Presets.merged (e.presets.get? key) ((db.baseline i).get? key)) ∧
    ((∀ e ∈ db.entries, ¬ Answers e model) →
      (db.lookup model).isMatch = false ∧
        (db.lookup model).entry = (lastDefault db.entries).getD {}) := by
  constructor
  · rintro ⟨f, hf, hm⟩
    obtain ⟨i, e, first⟩ := exists_first_match hf hm
    have hl : db.lookup model = Found.lookup model ⟨some (i, e), lastDefault (db.entries.take i)⟩ := by
      rw [lookup, first.search_eq]
    refine ⟨i, e, first, ?_, ?_, ?_⟩
    · rw [hl]
      rfl
    · rw [hl]
      cases lastDefault (db.entries.take i) with
      | none => rfl
      | some d => rfl
    · intro key
      rw [hl, baseline]
      cases lastDefault (db.entries.take i) with
      | none => exact (Presets.merged_none _).symm
      | some d => exact Presets.get_withDefaults e.presets d.presets key
  · intro none_answers
    have hs := search_skips none_answers none 0 []
    rw [List.append_nil, Option.or_none] at hs
    rw [lookup, hs]
    exact ⟨rfl, rfl⟩

end DriveHealth.Database
