import DriveHealth.Proofs.Database.EntryList
import Mathlib.Tactic.Tauto

/-! The verdict of a reading against its messages. A bad verdict always comes with an error. The
converse fails for one error only: a comment without an end is reported, but the end of the text
behind it may still be in its place. -/
namespace DriveHealth.Database

/-- The reading of the text reports a comment without an end. -/
def MissesCommentEnd (t : Text) : Prop :=
  ∃ x ∈ lexemes 1 t, ∃ q ∈ x.problems, q.value = .unclosedComment

def HasError (ms : List Message) : Prop := ∃ m ∈ ms, m.level = .error

theorem hasError_append {ms ns : List Message} : HasError (ms ++ ns) ↔ HasError ms ∨ HasError ns := by
  simp [HasError, or_and_right, exists_or]

theorem conversion_hasError_iff (place : Text) (c : Settings.Conversion) :
    HasError (c.messages place) ↔ ¬ c.isGood := by
  simp [HasError, Settings.Conversion.messages, Settings.Conversion.isGood,
    Settings.Problem.message]

theorem Place.Advance.entry_of_mem {p next : Place} {t : Token} {items : List Item}
    (h : p.Advance t next items) {i : Item} (hi : i ∈ items) : ∃ s, i = .entry s := by
  cases h with
  | grows | separates | skips => cases hi
  | completes => exact ⟨_, List.mem_singleton.mp hi⟩

/-- What made an item: something wrong with a lexeme, a token out of place, or an entry. -/
inductive MadeFrom (xs : List Lexeme) : Item → Prop where
  | lexical {x q} : x ∈ xs → q ∈ x.problems → MadeFrom xs (.lexical q)
  | complaint {x i} (p : Place) : x ∈ xs → i = p.complaint x.line x.token → MadeFrom xs i
  | entry (s) : MadeFrom xs (.entry s)

theorem MadeFrom.behind {xs : List Lexeme} {i : Item} (h : MadeFrom xs i) (x : Lexeme) :
    MadeFrom (x :: xs) i := by
  cases h with
  | lexical hx hq => exact .lexical (List.mem_cons_of_mem _ hx) hq
  | complaint p hx hi => exact .complaint p (List.mem_cons_of_mem _ hx) hi
  | entry s => exact .entry s

theorem madeFrom_of_problems {x : Lexeme} {i : Item} (h : i ∈ x.problems.map Item.lexical)
    (xs : List Lexeme) : MadeFrom (x :: xs) i := by
  obtain ⟨q, hq, rfl⟩ := List.mem_map.mp h
  exact .lexical List.mem_cons_self hq

theorem madeFrom_of_mem_outline {p : Place} (hp : p.Fits) {xs : List Lexeme} (hx : Ended xs)
    {i : Item} (hi : i ∈ outline p xs) : MadeFrom xs i := by
  induction hx generalizing p with
  | @finish x hf =>
    rw [outline_finish p [] hf] at hi
    rcases List.mem_append.mp hi with hi | hi
    · exact madeFrom_of_problems hi []
    · split at hi
      · cases hi
      · exact .complaint p List.mem_cons_self (List.mem_singleton.mp hi)
  | @token x r hf _ ih =>
    cases ha : p.accept? x.line x.token with
    | none =>
      rw [outline_refused r hf ha] at hi
      rcases List.mem_append.mp hi with hi | hi
      · exact madeFrom_of_problems hi r
      · rcases List.mem_cons.mp hi with hi | hi
        · exact .complaint p List.mem_cons_self hi
        · exact (ih (Place.recovered_fits ..) hi).behind x
    | some a =>
      obtain ⟨next, items⟩ := a
      have hadv := Place.accept_advance hp ha
      rw [outline_accepted r hf ha] at hi
      rcases List.mem_append.mp hi with hi | hi
      · exact madeFrom_of_problems hi r
      · rcases List.mem_append.mp hi with hi | hi
        · obtain ⟨s, rfl⟩ := hadv.entry_of_mem hi
          exact .entry s
        · exact (ih hadv.fits hi).behind x

theorem madeFrom_of_mem_outlineOf {t : Text} {i : Item} (h : i ∈ outlineOf t) :
    MadeFrom (lexemes 1 t) i :=
  madeFrom_of_mem_outline (p := .start) trivial (lexemes_ended 1 t) h

theorem lexical_mem_outline {p : Place} (hp : p.Fits) {xs : List Lexeme} (hx : Ended xs)
    {x : Lexeme} (hm : x ∈ xs) {q : Located LexicalProblem} (hq : q ∈ x.problems) :
    .lexical q ∈ outline p xs := by
  have here : .lexical q ∈ x.problems.map Item.lexical := List.mem_map_of_mem hq
  induction hx generalizing p with
  | @finish y hf =>
    obtain rfl := List.mem_singleton.mp hm
    rw [outline_finish p [] hf]
    exact List.mem_append_left _ here
  | @token y r hf _ ih =>
    cases ha : p.accept? y.line y.token with
    | none =>
      rw [outline_refused r hf ha]
      rcases List.mem_cons.mp hm with rfl | hm
      · exact List.mem_append_left _ here
      · exact List.mem_append_right _ (List.mem_cons_of_mem _ (ih (Place.recovered_fits ..) hm))
    | some a =>
      obtain ⟨next, items⟩ := a
      rw [outline_accepted r hf ha]
      rcases List.mem_cons.mp hm with rfl | hm
      · exact List.mem_append_left _ here
      · have hn := ih (Place.accept_advance hp ha).fits hm
        exact List.mem_append_right _ (List.mem_append_right _ hn)

theorem token_of_stray {p : Place} {l : Nat} {t : Token} (h : .stray = p.complaint l t) :
    t = .bad := by
  cases t with
  | bad => rfl
  | openBrace | closeBrace | comma | string | finish => cases h

theorem Listed.bad_not_mem {ts : List Token} {ss : List Settings} (h : Listed ts ss) :
    .bad ∉ ts := by
  induction h with
  | nil => simp
  | last s => simp [entryTokens]
  | cons s _ ih => simpa [entryTokens] using ih

theorem lexical_mem_outlineOf {t : Text} {x : Lexeme} (hx : x ∈ lexemes 1 t)
    {q : Located LexicalProblem} (hq : q ∈ x.problems) : .lexical q ∈ outlineOf t :=
  lexical_mem_outline (p := .start) trivial (lexemes_ended 1 t) hx hq

/-- Wherever a token was bad, the outline tells what was wrong with it. -/
theorem lexical_of_stray {t : Text} (h : .stray ∈ outlineOf t) :
    ∃ q, .lexical q ∈ outlineOf t := by
  cases madeFrom_of_mem_outlineOf h with
  | complaint p hx hi =>
    have hb := token_of_stray hi
    obtain ⟨q, hq, -⟩ := (lexeme_bad_iff hx).mp hb
    exact ⟨q, lexical_mem_outlineOf hx hq⟩

/-- In a list of entries only the end of a comment can be missing. -/
theorem missesCommentEnd_of_lexical {t : Text} (hl : IsListed (tokensOf t))
    {q : Located LexicalProblem} (h : .lexical q ∈ outlineOf t) : MissesCommentEnd t := by
  obtain ⟨ss, hl⟩ := hl
  cases madeFrom_of_mem_outlineOf h with
  | @lexical x _ hx hq =>
    refine ⟨x, hx, q, hq, ?_⟩
    by_contra hn
    have hb := (lexeme_bad_iff hx).mpr ⟨q, hq, hn⟩
    have hm := (lexemes_ended 1 t).mem_tokens hx (by simp [hb])
    rw [hb] at hm
    exact hl.bad_not_mem hm
  | @complaint x _ p hx hi =>
    cases ht : x.token with
    | _ => simp [ht, Place.complaint] at hi

theorem error_of_missesCommentEnd {t : Text} (path : Text) (h : MissesCommentEnd t) :
    HasError ((outlineOf t).flatMap (Item.messages path)) := by
  obtain ⟨x, hx, q, hq, -⟩ := h
  have hm := lexical_mem_outlineOf hx hq
  exact ⟨_, List.mem_flatMap.mpr ⟨_, hm, List.mem_singleton_self _⟩, rfl⟩

theorem error_of_not_fine {t : Text} (path : Text) {i : Item} (hi : i ∈ outlineOf t)
    (hf : ¬ i.isFine) : HasError ((outlineOf t).flatMap (Item.messages path)) := by
  cases i with
  | lexical q => exact absurd rfl hf
  | expected q => exact ⟨_, List.mem_flatMap.mpr ⟨_, hi, List.mem_singleton_self _⟩, rfl⟩
  | stray =>
    obtain ⟨q, hq⟩ := lexical_of_stray hi
    exact ⟨_, List.mem_flatMap.mpr ⟨_, hq, List.mem_singleton_self _⟩, rfl⟩
  | entry s =>
    have hg : ¬ s.value.convert.isGood := by
      simpa [Item.isFine, Item.isPlaced, Item.settings?] using hf
    obtain ⟨m, hm, he⟩ := (conversion_hasError_iff (location path s.line) _).mpr hg
    exact ⟨m, List.mem_flatMap.mpr ⟨_, hi, hm⟩, he⟩

theorem lexical_of_error {path : Text} {i : Item} (hf : i.isFine) (h : HasError (i.messages path)) :
    ∃ q, i = .lexical q := by
  cases i with
  | lexical q => exact ⟨q, rfl⟩
  | expected q => cases hf
  | stray => cases hf
  | entry s =>
    have hg : s.value.convert.isGood := by
      simpa [Item.isFine, Item.isPlaced, Item.settings?] using hf
    exact absurd hg ((conversion_hasError_iff _ _).mp h)

theorem outlineOf_hasError_iff (path t : Text) :
    HasError ((outlineOf t).flatMap (Item.messages path)) ↔
      ¬ IsGoodList (tokensOf t) ∨ MissesCommentEnd t := by
  constructor
  · rintro ⟨m, hm, he⟩
    -- In a good list all items are fine, so the error can only be one of the lexer.
    by_cases hg : IsGoodList (tokensOf t)
    · obtain ⟨i, hi, hmi⟩ := List.mem_flatMap.mp hm
      have hf := List.all_eq_true.mp ((outlineOf_fine_iff t).mpr hg) i hi
      obtain ⟨q, rfl⟩ := lexical_of_error hf ⟨m, hmi, he⟩
      obtain ⟨ss, hl, -⟩ := hg
      exact Or.inr (missesCommentEnd_of_lexical ⟨ss, hl⟩ hi)
    · exact Or.inl hg
  · rintro (hg | hc)
    · rw [← outlineOf_fine_iff, List.all_eq_true] at hg
      push Not at hg
      obtain ⟨i, hi, hf⟩ := hg
      exact error_of_not_fine path hi hf
    · exact error_of_missesCommentEnd path hc

/-- A bad reading always reports an error. A good one reports an error exactly if a comment has no
end, so verdict and errors disagree exactly on good lists that miss the end of a comment. -/
theorem error_iff_bad_verdict_or_missing_comment_end {db : Database} {fs : FileSystem}
    {path t : Text} (hb : db.builtin = []) (ht : fs.text? path = some t) :
    (HasError (db.addFile fs path).messages ↔
      (db.addFile fs path).isGood = false ∨ MissesCommentEnd t) ∧
    (((db.addFile fs path).isGood = false ↔ HasError (db.addFile fs path).messages) ↔
      ¬ (IsGoodList (tokensOf t) ∧ MissesCommentEnd t)) := by
  obtain ⟨m, hm, h⟩ := addFile_eq hb ht
  have hs : ¬ HasError [m] := by simp [HasError, hm]
  have hv : (outlineOf t).all Item.isFine = false ↔ ¬ IsGoodList (tokensOf t) := by
    rw [← outlineOf_fine_iff, Bool.not_eq_true]
  rw [h]
  dsimp only
  rw [hasError_append, or_iff_left hs, outlineOf_hasError_iff, hv]
  refine ⟨Iff.rfl, ?_⟩
  tauto

def lastCommentOpen : Text := "\x7b \"A\", \"^B\", \"\", \"\", \"\" \x7d, /* end"

theorem error_with_good_verdict_lastCommentOpen :
    HasError (({} : Database).addFile (holding lastCommentOpen) "a.h").messages ∧
    (({} : Database).addFile (holding lastCommentOpen) "a.h").isGood = true := by
  have hb : ({} : Database).builtin = [] := rfl
  have ht : (holding lastCommentOpen).text? "a.h" = some lastCommentOpen := rfl
  have hm : MissesCommentEnd lastCommentOpen := by
    unfold MissesCommentEnd
    decide +kernel
  obtain ⟨he, -⟩ := error_iff_bad_verdict_or_missing_comment_end hb ht
  exact ⟨he.mpr (Or.inr hm), by decide +kernel⟩

end DriveHealth.Database
