import DriveHealth.Proofs.Database.Items
import DriveHealth.Proofs.Database.Lexemes
import Mathlib.Data.List.Induction

/-! NUL in a database text. Reading stops there as at the end of the text, with one exception: a line
comment takes the NUL as the end of its line, and reading goes on behind it. Two texts are compared from
a mode on, which says where the characters read so far have led. -/
namespace DriveHealth.Database

/-- What the next character of a text belongs to. -/
inductive Mode where
  | gap
  /-- Behind a slash in a gap. -/
  | slash
  | lineComment
  | blockComment
  /-- Behind a star in a block comment. -/
  | star
  | string
  /-- Behind a backslash in a string. -/
  | escape
  /-- In a line with an invalid character. -/
  | spoiled
  | ended
  deriving DecidableEq, Repr

namespace Mode

/-- Only a line comment goes over a NUL. -/
def step : Mode → Char → Mode
  | ended, _ => ended
  | lineComment, c => if c = '\n' ∨ c = nul then gap else lineComment
  | m, c =>
    if c = nul then ended
    else match m with
      | slash => if c = '/' then lineComment else if c = '*' then blockComment
        else if c = '\n' then gap else spoiled
      | blockComment => if c = '*' then star else blockComment
      | star => if c = '/' then gap else if c = '*' then star else blockComment
      | string => if c = '"' ∨ c = '\n' then gap else if c = '\\' then escape else string
      | escape => string
      | spoiled => if c = '\n' then gap else spoiled
      | _ => if c ∈ [' ', '\t', '\r', '\n', '{', '}', ','] then gap else if c = '/' then slash
        else if c = '"' then string else spoiled

def after (m : Mode) (t : Text) : Mode := t.foldl step m

theorem after_concat (m : Mode) (t : Text) (c : Char) : m.after (t ++ [c]) = (m.after t).step c := by
  rw [after, List.foldl_append]
  rfl

end Mode

def Gap.mode : Gap → Mode
  | .space => .gap
  | .lineComment => .lineComment
  | .blockComment => .blockComment

/-- The end of a text, or a NUL. -/
def IsEnd (t : Text) : Prop := ∀ c r, t = c :: r → c = nul

theorem isEnd_nil : IsEnd [] := by
  intro c r h
  cases h

theorem isEnd_nul (r : Text) : IsEnd (nul :: r) := by
  intro c r h
  cases h
  rfl

theorem IsEnd.cases {t : Text} (h : IsEnd t) : t = [] ∨ ∃ r, t = nul :: r := by
  cases t with
  | nil => exact .inl rfl
  | cons c r => exact .inr ⟨r, by rw [h c r rfl]⟩

/-- Texts that are read alike from a mode on: they go on with the same characters, until both end or
until nothing but a gap makes a difference. -/
inductive Alike : Mode → Text → Text → Prop where
  | same (m t) : Alike m t t
  | ends {m t u} : m ≠ .lineComment → IsEnd t → IsEnd u → Alike m t u
  | gap {t u} : (∀ l, skipGap .space l t = skipGap .space l u) → Alike .gap t u
  | cons {m t u} (c) : Alike (m.step c) t u → Alike m (c :: t) (c :: u)

theorem Alike.symm {m : Mode} {t u : Text} (h : Alike m t u) : Alike m u t := by
  induction h with
  | same m t => exact .same m t
  | ends line ht hu => exact .ends line hu ht
  | gap same => exact .gap fun l => (same l).symm
  | cons c _ ih => exact .cons c ih

theorem alike_append {m : Mode} (p : Text) {t u : Text} (h : Alike (m.after p) t u) :
    Alike m (p ++ t) (p ++ u) := by
  induction p generalizing m with
  | nil => exact h
  | cons c p ih => exact .cons c (ih h)

/-! ### Gaps -/

def IsWhite (c : Char) : Prop := c = ' ' ∨ c = '\t' ∨ c = '\r'

instance (c : Char) : Decidable (IsWhite c) := inferInstanceAs (Decidable (_ ∨ _))

/-- A slash in front of no other comment mark. -/
def IsLone (c : Char) (r : Text) : Prop := c = '/' → ∀ d u, r = d :: u → d ≠ '/' ∧ d ≠ '*'

theorem skipGap_newline (l : Nat) (r : Text) :
    skipGap .space l ('\n' :: r) = skipGap .space (l + 1) r := by
  rw [skipGap] <;> simp

theorem skipGap_white {c : Char} (h : IsWhite c) (l : Nat) (r : Text) :
    skipGap .space l (c :: r) = skipGap .space l r := by
  rcases h with rfl | rfl | rfl <;> rw [skipGap] <;> simp

/-- A character that belongs to no gap. -/
structure Stops (c : Char) (r : Text) : Prop where
  white : ¬ IsWhite c
  newline : c ≠ '\n'
  lone : IsLone c r

/-- Where no case for a gap applies there is none. -/
theorem stops_of_no_case {c : Char} {r : Text} (line : ∀ u, c = '/' → r = '/' :: u → False)
    (block : ∀ u, c = '/' → r = '*' :: u → False) (newline : c ≠ '\n') (white : ¬ IsWhite c) :
    Stops c r := by
  refine ⟨white, newline, ?_⟩
  rintro rfl d u rfl
  exact ⟨fun hd => line u rfl (by rw [hd]), fun hd => block u rfl (by rw [hd])⟩

theorem skipGap_stop {c : Char} {r : Text} (h : Stops c r) (l : Nat) :
    skipGap .space l (c :: r) = ⟨false, l, c :: r⟩ := by
  rw [skipGap, if_neg h.newline]
  · exact if_neg h.white
  · intro u hc hr
    exact (h.lone hc '/' u hr).1 rfl
  · intro u hc hr
    exact (h.lone hc '*' u hr).2 rfl

theorem skipGap_comment (l : Nat) (c : Char) (r : Text) (closed : ∀ u, c = '*' → r ≠ '/' :: u) :
    skipGap .blockComment l (c :: r) =
      if c = '\n' then skipGap .blockComment (l + 1) r
      else if c = nul then ⟨true, l, c :: r⟩
      else skipGap .blockComment l r := by
  rw [skipGap]
  intro u hc hr
  exact closed u hc hr

theorem skipGap_ends {g : Gap} (hg : g ≠ .lineComment) {t : Text} (h : IsEnd t) (l : Nat) :
    skipGap g l t = ⟨decide (g = .blockComment), l, t⟩ := by
  rcases h.cases with rfl | ⟨r, rfl⟩
  · cases g with
    | space | blockComment => rfl
    | lineComment => exact absurd rfl hg
  · cases g with
    | space => exact skipGap_stop ⟨by decide, by decide, by intro h; cases h⟩ l
    | blockComment =>
      rw [skipGap_comment l nul r (by intro u h; cases h)]
      rfl
    | lineComment => exact absurd rfl hg

/-- The texts at which reading goes on behind a gap: ends, or the same character with texts behind it
that are read alike. -/
inductive Meets : Text → Text → Prop where
  | ends {t u} : IsEnd t → IsEnd u → Meets t u
  | char {t u} (c) : c ≠ nul → Stops c t → Alike (Mode.gap.step c) t u → Meets (c :: t) (c :: u)

theorem Meets.alike {t u : Text} (h : Meets t u) : Alike .gap t u := by
  cases h with
  | ends ht hu => exact .ends (by decide) ht hu
  | char c _ _ h => exact .cons c h

structure Skipped.Agrees (a b : Skipped) : Prop where
  isUnclosed : a.isUnclosed = b.isUnclosed
  line : a.line = b.line
  rest : Meets a.rest b.rest

/-- What stands behind a gap is no white space and no comment. -/
theorem meets_self (g : Gap) (l : Nat) (t : Text) :
    Meets (skipGap g l t).rest (skipGap g l t).rest := by
  fun_induction skipGap g l t with
  | case1 | case2 | case3 | case4 | case6 | case7 | case8 | case9 | case10 | case12 =>
    rename_i ih
    exact ih
  | case5 l c r line block newline white =>
    by_cases end_mark : c = nul
    · subst c
      exact .ends (isEnd_nul r) (isEnd_nul r)
    · exact .char c end_mark (stops_of_no_case line block newline white) (.same _ _)
  | case11 => exact .ends (isEnd_nul _) (isEnd_nul _)
  | case13 | case14 => exact .ends isEnd_nil isEnd_nil

theorem Skipped.Agrees.refl (g : Gap) (l : Nat) (t : Text) :
    (skipGap g l t).Agrees (skipGap g l t) := ⟨rfl, rfl, meets_self g l t⟩

/-- Behind a star that closes no comment, reading is where it would be behind any other character. -/
theorem alike_of_star {t u : Text} (h : Alike .star t u) (closed : ∀ r, t ≠ '/' :: r) :
    Alike .blockComment t u := by
  cases h with
  | same => exact .same _ _
  | ends _ ht hu => exact .ends (by decide) ht hu
  | cons c h =>
    have same : Mode.star.step c = Mode.blockComment.step c := by
      have hc : c ≠ '/' := fun hc => closed _ (by rw [hc])
      simp [Mode.step, hc]
    exact .cons c (same ▸ h)

/-- A lone slash spoils its line like any other character that is invalid. -/
theorem alike_of_slash {t u : Text} (h : Alike .slash t u) (lone : IsLone '/' t) :
    Alike .spoiled t u := by
  cases h with
  | same => exact .same _ _
  | ends _ ht hu => exact .ends (by decide) ht hu
  | cons c h =>
    have same : Mode.slash.step c = Mode.spoiled.step c := by
      obtain ⟨line, block⟩ := lone rfl c _ rfl
      simp [Mode.step, line, block]
    exact .cons c (same ▸ h)

/-- In front of a character that does not end the text, texts that are read alike go on with it; in a
gap they may also be the same but for the gap. -/
theorem Alike.next {m : Mode} {c : Char} {t u : Text} (h : Alike m (c :: t) u)
    (hc : c = nul → m = .lineComment) :
    (m = .gap ∧ ∀ l, skipGap .space l (c :: t) = skipGap .space l u) ∨
      ∃ v, u = c :: v ∧ Alike (m.step c) t v := by
  cases h with
  | same => exact .inr ⟨t, rfl, .same _ _⟩
  | ends line ht => exact absurd (hc (ht c t rfl)) line
  | gap h => exact .inl ⟨rfl, h⟩
  | cons _ h => exact .inr ⟨_, rfl, h⟩

theorem Alike.next_of_ne {m : Mode} {c : Char} {t u : Text} (h : Alike m (c :: t) u)
    (hc : c = nul → m = .lineComment) (hm : m ≠ .gap) : ∃ v, u = c :: v ∧ Alike (m.step c) t v := by
  rcases h.next hc with ⟨gap, -⟩ | next
  · exact absurd gap hm
  · exact next

theorem Alike.isEnd {m : Mode} {t u : Text} (h : Alike m t u) (ht : IsEnd t) (gap : m ≠ .gap) :
    IsEnd u := by
  cases h with
  | same => exact ht
  | ends _ _ hu => exact hu
  | gap => exact absurd rfl gap
  | cons c =>
    have hc := ht c _ rfl
    subst hc
    exact isEnd_nul _

/-- The texts begin with the same characters where these are no ends. -/
theorem Alike.head {m : Mode} {c : Char} {t u : Text} (h : Alike m t u) (gap : m ≠ .gap)
    (hc : c ≠ nul) (ht : ∀ v, t ≠ c :: v) (v : Text) : u ≠ c :: v := by
  rintro rfl
  obtain ⟨w, rfl, -⟩ := h.symm.next_of_ne (fun end_mark => absurd end_mark hc) gap
  exact ht w rfl

theorem IsLone.of_alike {c : Char} {t u : Text} (lone : IsLone c t)
    (h : Alike (Mode.gap.step c) t u) : IsLone c u := by
  rintro rfl d v rfl
  have not_mark (e : Char) (end_mark : e ≠ nul) (he : e = '/' ∨ e = '*') : d ≠ e := by
    rintro rfl
    refine h.head (by decide) end_mark ?_ v rfl
    rintro w rfl
    obtain ⟨line, block⟩ := lone rfl d w rfl
    rcases he with he | he
    · exact line he
    · exact block he
  exact ⟨not_mark '/' (by decide) (.inl rfl), not_mark '*' (by decide) (.inr rfl)⟩

theorem agrees_of_eq {g : Gap} {l : Nat} {t u : Text} (h : skipGap g l t = skipGap g l u) :
    (skipGap g l t).Agrees (skipGap g l u) := by
  rw [h]
  exact .refl g l u

theorem step_white {c : Char} (h : IsWhite c) : Mode.gap.step c = .gap := by
  rcases h with rfl | rfl | rfl <;> rfl

theorem not_nul_of_white {c : Char} (h : IsWhite c) : c ≠ nul := by
  rintro rfl
  revert h
  decide

/-- Gaps in texts that are read alike end at the same line with the same complaint. -/
theorem skipGap_agrees {g : Gap} {l : Nat} {t u : Text} (h : Alike g.mode t u) :
    (skipGap g l t).Agrees (skipGap g l u) := by
  -- The induction follows the skipping of `t`. The other text goes on with the same character, or there is
  -- nothing left to show: it has ended as well, or differs by a gap only.
  induction g, l, t using skipGap.induct generalizing u with
  | case1 l r ih =>
    rcases h.next (by decide) with ⟨-, same⟩ | ⟨v, rfl, slash⟩
    · exact agrees_of_eq (same l)
    · obtain ⟨w, rfl, comment⟩ := slash.next_of_ne (by decide) (by decide)
      exact ih comment
  | case2 l r ih =>
    rcases h.next (by decide) with ⟨-, same⟩ | ⟨v, rfl, slash⟩
    · exact agrees_of_eq (same l)
    · obtain ⟨w, rfl, comment⟩ := slash.next_of_ne (by decide) (by decide)
      exact ih comment
  | case3 l r _ _ ih =>
    rcases h.next (by decide) with ⟨-, same⟩ | ⟨v, rfl, behind⟩
    · exact agrees_of_eq (same l)
    · rw [skipGap_newline, skipGap_newline]
      exact ih behind
  | case4 l c r _ _ newline white ih =>
    rcases h.next (fun hc => absurd hc (not_nul_of_white white)) with ⟨-, same⟩ | ⟨v, rfl, behind⟩
    · exact agrees_of_eq (same l)
    · rw [skipGap_white white, skipGap_white white]
      rw [Gap.mode, step_white white] at behind
      exact ih behind
  | case5 l c r line block newline white =>
    have stops : Stops c r := stops_of_no_case line block newline white
    cases h with
    | same => exact .refl _ _ _
    | gap same => exact agrees_of_eq (same l)
    | ends _ ht hu =>
      rw [skipGap_ends (by decide) ht, skipGap_ends (by decide) hu]
      exact ⟨rfl, rfl, .ends ht hu⟩
    | cons _ behind =>
      rw [skipGap_stop stops, skipGap_stop ⟨white, newline, stops.lone.of_alike behind⟩]
      refine ⟨rfl, rfl, ?_⟩
      by_cases end_mark : c = nul
      · subst c
        exact .ends (isEnd_nul _) (isEnd_nul _)
      · exact .char c end_mark stops behind
  | case6 l r ih =>
    obtain ⟨v, rfl, behind⟩ := h.next_of_ne (by decide) (by decide)
    exact ih behind
  | case7 l r _ ih =>
    obtain ⟨v, rfl, behind⟩ := h.next_of_ne (fun _ => rfl) (by decide)
    exact ih behind
  | case8 l c r newline end_mark ih =>
    obtain ⟨v, rfl, behind⟩ := h.next_of_ne (fun _ => rfl) (by decide)
    have stays : Mode.lineComment.step c = .lineComment := by simp [Mode.step, newline, end_mark]
    rw [skipGap, skipGap, if_neg newline, if_neg newline, if_neg end_mark, if_neg end_mark]
    rw [Gap.mode, stays] at behind
    exact ih behind
  | case9 l r ih =>
    obtain ⟨v, rfl, star⟩ := h.next_of_ne (by decide) (by decide)
    obtain ⟨w, rfl, behind⟩ := star.next_of_ne (by decide) (by decide)
    exact ih behind
  | case10 l r _ ih =>
    obtain ⟨v, rfl, behind⟩ := h.next_of_ne (by decide) (by decide)
    exact ih behind
  | case11 l r _ _ =>
    have ended := h.isEnd (isEnd_nul r) (by decide)
    rw [skipGap_ends (by decide) (isEnd_nul r), skipGap_ends (by decide) ended]
    exact ⟨rfl, rfl, .ends (isEnd_nul r) ended⟩
  | case12 l c r closed newline end_mark ih =>
    obtain ⟨v, rfl, behind⟩ := h.next_of_ne (fun hc => absurd hc end_mark) (by decide)
    rw [skipGap_comment l c r closed, if_neg newline, if_neg end_mark]
    by_cases star : c = '*'
    · subst c
      have open_comment : ∀ w, r ≠ '/' :: w := fun w => closed w rfl
      have closed' : ∀ w, '*' = '*' → v ≠ '/' :: w := fun w _ =>
        behind.head (by decide) (by decide) open_comment w
      rw [skipGap_comment l '*' v closed', if_neg newline, if_neg end_mark]
      exact ih (alike_of_star behind open_comment)
    · have stays : Mode.blockComment.step c = .blockComment := by simp [Mode.step, end_mark, star]
      rw [skipGap_comment l c v (fun _ hc => absurd hc star), if_neg newline, if_neg end_mark]
      rw [Gap.mode, stays] at behind
      exact ih behind
  | case13 l =>
    have ended := h.isEnd isEnd_nil (by decide)
    rw [skipGap_ends (by decide) isEnd_nil, skipGap_ends (by decide) ended]
    exact ⟨rfl, rfl, .ends isEnd_nil ended⟩
  | case14 g l block =>
    cases g with
    | space =>
      cases h with
      | same => exact .refl _ _ _
      | gap same => exact agrees_of_eq (same l)
      | ends _ _ hu =>
        rw [skipGap_ends (by decide) isEnd_nil, skipGap_ends (by decide) hu]
        exact ⟨rfl, rfl, .ends isEnd_nil hu⟩
    | lineComment =>
      cases h with
      | same => exact .refl _ _ _
      | ends line => exact absurd rfl line
    | blockComment => exact absurd rfl block

/-! ### Strings -/

structure Literal.Agrees (a b : Literal) : Prop where
  value : a.value = b.value
  problems : a.problems = b.problems
  isClosed : a.isClosed = b.isClosed
  line : a.line = b.line
  rest : Alike .gap a.rest b.rest

theorem Literal.Agrees.cons {a b : Literal} (h : a.Agrees b) (c : Char) :
    (a.cons c).Agrees (b.cons c) :=
  ⟨congrArg (List.cons c) h.value, h.problems, h.isClosed, h.line, h.rest⟩

theorem Literal.Agrees.unterminated (l : Nat) {t u : Text} (h : Alike .gap t u) :
    (Literal.unterminated l t).Agrees (.unterminated l u) := ⟨rfl, rfl, rfl, rfl, h⟩

theorem readLiteral_ends {t : Text} (h : IsEnd t) (l : Nat) : readLiteral l t = .unterminated l t := by
  rcases h.cases with rfl | ⟨r, rfl⟩
  · rw [readLiteral]
  · rw [readLiteral, if_pos (.inl rfl)] <;> simp [nul]

theorem readLiteral_other {c : Char} (quote : c ≠ '"') (backslash : c ≠ '\\') (l : Nat) (r : Text) :
    readLiteral l (c :: r) =
      if c = nul ∨ c = '\n' then .unterminated l (c :: r) else (readLiteral l r).cons c := by
  rw [readLiteral]
  · exact quote
  · exact fun hc => absurd hc backslash
  · exact fun _ _ hc => absurd hc backslash

theorem readLiteral_backslash_ends {t : Text} (h : IsEnd t) (l : Nat) :
    readLiteral l ('\\' :: t) = .unterminated l ('\\' :: t) := by
  rcases h.cases with rfl | ⟨r, rfl⟩
  · rw [readLiteral]
  · rw [readLiteral, if_pos rfl]

theorem step_string {c : Char} (quote : c ≠ '"') (backslash : c ≠ '\\') (other : ¬ (c = nul ∨ c = '\n')) :
    Mode.string.step c = .string := by
  obtain ⟨end_mark, newline⟩ := not_or.mp other
  simp [Mode.step, quote, backslash, end_mark, newline]

theorem step_escape {c : Char} (end_mark : c ≠ nul) : Mode.escape.step c = .string := by
  simp [Mode.step, end_mark]

theorem Alike.escaped {c : Char} {r u : Text} (h : Alike .string ('\\' :: c :: r) u) (end_mark : c ≠ nul) :
    ∃ v, u = '\\' :: c :: v ∧ Alike .string r v := by
  obtain ⟨v, rfl, escape⟩ := h.next_of_ne (by decide) (by decide)
  obtain ⟨w, rfl, behind⟩ := escape.next_of_ne (fun hc => absurd hc end_mark) (by decide)
  have back : (Mode.string.step '\\').step c = .string := step_escape end_mark
  exact ⟨w, rfl, back ▸ behind⟩

/-- Where no case for a backslash applies there is none. -/
theorem not_backslash {c : Char} {r : Text} (single : c = '\\' → r = [] → False)
    (pair : ∀ d s, c = '\\' → r = d :: s → False) : c ≠ '\\' := by
  rintro rfl
  cases r with
  | nil => exact single rfl rfl
  | cons d s => exact pair d s rfl rfl

theorem readLiteral_agrees {l : Nat} {t u : Text} (h : Alike .string t u) :
    (readLiteral l t).Agrees (readLiteral l u) := by
  induction l, t using readLiteral.induct generalizing u with
  | case1 l =>
    have ended := h.isEnd isEnd_nil (by decide)
    rw [readLiteral_ends isEnd_nil, readLiteral_ends ended]
    exact .unterminated l (.ends (by decide) isEnd_nil ended)
  | case2 l r =>
    obtain ⟨v, rfl, behind⟩ := h.next_of_ne (by decide) (by decide)
    exact ⟨rfl, rfl, rfl, rfl, behind⟩
  | case3 l =>
    obtain ⟨v, rfl, escape⟩ := h.next_of_ne (by decide) (by decide)
    have ended : IsEnd v := escape.isEnd isEnd_nil (by decide)
    rw [readLiteral_backslash_ends isEnd_nil, readLiteral_backslash_ends ended]
    exact .unterminated l (.cons '\\' (.ends (by decide) isEnd_nil ended))
  | case4 l r =>
    obtain ⟨v, rfl, escape⟩ := h.next_of_ne (by decide) (by decide)
    have ended : IsEnd v := escape.isEnd (isEnd_nul r) (by decide)
    rw [readLiteral_backslash_ends (isEnd_nul r), readLiteral_backslash_ends ended]
    exact .unterminated l (.cons '\\' (.ends (by decide) (isEnd_nul r) ended))
  | case5 l r _ ih =>
    obtain ⟨v, rfl, behind⟩ := h.escaped (by decide)
    exact (ih behind).cons '\n'
  | case6 l r _ _ ih =>
    obtain ⟨v, rfl, behind⟩ := h.escaped (by decide)
    exact (ih behind).cons '\n'
  | case7 l c r end_mark letter newline known ih =>
    obtain ⟨v, rfl, behind⟩ := h.escaped end_mark
    rw [readLiteral, readLiteral]
    simp only [end_mark, letter, newline, known, if_true, if_false]
    exact (ih behind).cons c
  | case8 l c r end_mark letter newline unknown ih =>
    obtain ⟨v, rfl, behind⟩ := h.escaped end_mark
    obtain ⟨value, problems, isClosed, line, rest⟩ := ih behind
    rw [readLiteral, readLiteral]
    simp only [end_mark, letter, newline, unknown, if_false]
    exact ⟨value, congrArg (List.cons _) problems, isClosed, line, rest⟩
  | case9 l c r quote single pair last =>
    have backslash := not_backslash single pair
    rcases last with rfl | rfl
    · have ended : IsEnd u := h.isEnd (isEnd_nul r) (by decide)
      rw [readLiteral_ends (isEnd_nul r), readLiteral_ends ended]
      exact .unterminated l (.ends (by decide) (isEnd_nul r) ended)
    · obtain ⟨v, rfl, behind⟩ := h.next_of_ne (by decide) (by decide)
      exact .unterminated l (.cons '\n' behind)
  | case10 l c r quote single pair other ih =>
    have backslash := not_backslash single pair
    obtain ⟨v, rfl, behind⟩ := h.next_of_ne (fun hc => absurd (.inl hc) other) (by decide)
    rw [readLiteral_other quote backslash, readLiteral_other quote backslash, if_neg other, if_neg other]
    rw [step_string quote backslash other] at behind
    exact (ih behind).cons c

structure Literals.Agrees (a b : Literals) : Prop where
  value : a.value = b.value
  problems : a.problems = b.problems
  isString : a.isString = b.isString
  line : a.line = b.line
  rest : Alike .gap a.rest b.rest

theorem Skipped.Agrees.problems {a b : Skipped} (h : a.Agrees b) : a.problems = b.problems := by
  rw [Skipped.problems, Skipped.problems, h.isUnclosed, h.line]

/-- A gap ends in front of the next literal in both texts or in neither. -/
theorem Meets.quote {t u : Text} (h : Meets t u) :
    (∃ r v, t = '"' :: r ∧ u = '"' :: v ∧ Alike .string r v) ∨
      ((∀ r, t ≠ '"' :: r) ∧ ∀ v, u ≠ '"' :: v) := by
  have no_quote {w : Text} (hw : IsEnd w) (r : Text) : w ≠ '"' :: r := by
    rintro rfl
    exact absurd (hw '"' r rfl) (by decide)
  cases h with
  | ends ht hu => exact .inr ⟨no_quote ht, no_quote hu⟩
  | @char r v c _ _ behind =>
    by_cases hc : c = '"'
    · subst c
      exact .inl ⟨r, v, rfl, rfl, behind⟩
    · exact .inr ⟨fun w hw => hc (List.cons.inj hw).1, fun w hw => hc (List.cons.inj hw).1⟩

theorem readLiterals_open {l : Nat} {t : Text} (h : (readLiteral l t).isClosed = false) :
    readLiterals l t =
      ⟨(readLiteral l t).value, (readLiteral l t).problems, false, (readLiteral l t).line,
        (readLiteral l t).rest⟩ := by
  rw [readLiterals]
  simp [h]

theorem readLiterals_closed {l : Nat} {t : Text} (h : (readLiteral l t).isClosed = true)
    {gap : Skipped} (hg : skipGap .space (readLiteral l t).line (readLiteral l t).rest = gap)
    (hr : ∀ r, gap.rest ≠ '"' :: r) :
    readLiterals l t =
      ⟨(readLiteral l t).value, (readLiteral l t).problems ++ gap.problems,
        (readLiteral l t).problems.isEmpty, gap.line, gap.rest⟩ := by
  subst hg
  rw [readLiterals]
  simp only [h, if_true]

theorem readLiterals_joined {l : Nat} {t : Text} (h : (readLiteral l t).isClosed = true)
    {gap : Skipped} (hg : skipGap .space (readLiteral l t).line (readLiteral l t).rest = gap)
    {r : Text} (hr : gap.rest = '"' :: r) :
    readLiterals l t =
      ⟨(readLiteral l t).value ++ (readLiterals gap.line r).value,
        (readLiteral l t).problems ++ gap.problems ++ (readLiterals gap.line r).problems,
        (readLiteral l t).problems.isEmpty && (readLiterals gap.line r).isString,
        (readLiterals gap.line r).line, (readLiterals gap.line r).rest⟩ := by
  subst hg
  rw [readLiterals]
  simp only [h, if_true]
  split
  · rename_i v hq
    rw [hr] at hq
    cases hq
    rfl
  · rename_i other
    exact absurd hr (other r)

theorem readLiterals_agrees {l : Nat} {t u : Text} (h : Alike .string t u) :
    (readLiterals l t).Agrees (readLiterals l u) := by
  have first := readLiteral_agrees (l := l) h
  induction l, t using readLiterals.induct generalizing u with
  | case1 =>
    rename_i l t literal closed gap r hr shorter ih
    have closed' : (readLiteral l u).isClosed = true := first.isClosed ▸ closed
    have skipped : gap.Agrees _ := skipGap_agrees (g := .space) (l := literal.line) first.rest
    rw [first.line] at skipped
    rcases skipped.rest.quote with ⟨r', v, hr', hv, behind⟩ | ⟨last, -⟩
    · rw [hr] at hr'
      cases hr'
      have next := ih behind (readLiteral_agrees behind)
      rw [readLiterals_joined closed rfl hr, readLiterals_joined closed' rfl hv]
      rw [← skipped.line]
      refine ⟨congrArg₂ List.append first.value next.value, ?_, ?_, next.line, next.rest⟩
      · have front := congrArg₂ List.append first.problems skipped.problems
        exact congrArg₂ List.append front next.problems
      · exact congrArg₂ and (congrArg List.isEmpty first.problems) next.isString
    · exact absurd hr (last r)
  | case2 =>
    rename_i l t literal closed gap last
    have closed' : (readLiteral l u).isClosed = true := first.isClosed ▸ closed
    have skipped : gap.Agrees _ := skipGap_agrees (g := .space) (l := literal.line) first.rest
    rw [first.line] at skipped
    rcases skipped.rest.quote with ⟨r, v, hr, -⟩ | ⟨-, last'⟩
    · exact absurd hr (last r)
    · rw [readLiterals_closed closed rfl last, readLiterals_closed closed' rfl last']
      refine ⟨first.value, ?_, ?_, skipped.line, skipped.rest.alike⟩
      · exact congrArg₂ List.append first.problems skipped.problems
      · exact congrArg List.isEmpty first.problems
  | case3 =>
    rename_i l t literal isOpen
    have isOpen : (readLiteral l t).isClosed = false := by simpa using isOpen
    rw [readLiterals_open isOpen, readLiterals_open (first.isClosed ▸ isOpen)]
    exact ⟨first.value, first.problems, rfl, first.line, first.rest⟩

/-! ### Lexemes -/

/-- In a spoiled line everything up to its end is left out. -/
theorem alike_spoiled {t u : Text} (h : Alike .spoiled t u) :
    Alike .gap (t.dropWhile fun d => d ≠ '\n' ∧ d ≠ nul) (u.dropWhile fun d => d ≠ '\n' ∧ d ≠ nul) := by
  have stays {w : Text} (hw : IsEnd w) : w.dropWhile (fun d => d ≠ '\n' ∧ d ≠ nul) = w := by
    rcases hw.cases with rfl | ⟨r, rfl⟩
    · rfl
    · exact List.dropWhile_cons_of_neg (by simp)
  induction t generalizing u with
  | nil =>
    have ended := h.isEnd isEnd_nil (by decide)
    rw [stays isEnd_nil, stays ended]
    exact .ends (by decide) isEnd_nil ended
  | cons c r ih =>
    by_cases end_mark : c = nul
    · subst c
      have ended := h.isEnd (isEnd_nul r) (by decide)
      rw [stays (isEnd_nul r), stays ended]
      exact .ends (by decide) (isEnd_nul r) ended
    · obtain ⟨v, rfl, behind⟩ := h.next_of_ne (fun hc => absurd hc end_mark) (by decide)
      by_cases newline : c = '\n'
      · subst c
        rw [List.dropWhile_cons_of_neg (by simp), List.dropWhile_cons_of_neg (by simp)]
        exact .cons '\n' behind
      · have spoiled : Mode.spoiled.step c = .spoiled := by simp [Mode.step, end_mark, newline]
        rw [spoiled] at behind
        rw [List.dropWhile_cons_of_pos (by simp [newline, end_mark]),
          List.dropWhile_cons_of_pos (by simp [newline, end_mark])]
        exact ih behind

/-- A character that begins no token spoils its line. -/
theorem alike_invalid {c : Char} {t u : Text} (stops : Stops c t)
    (mark : ¬ (c = '{' ∨ c = '}' ∨ c = ',')) (quote : c ≠ '"') (end_mark : c ≠ nul)
    (h : Alike (Mode.gap.step c) t u) : Alike .spoiled t u := by
  by_cases slash : c = '/'
  · subst c
    exact alike_of_slash h stops.lone
  · obtain ⟨opens, closes, comma⟩ : c ≠ '{' ∧ c ≠ '}' ∧ c ≠ ',' := by simpa using mark
    obtain ⟨blank, tab, return_mark⟩ : c ≠ ' ' ∧ c ≠ '\t' ∧ c ≠ '\r' := by
      simpa [IsWhite] using stops.white
    have spoiled : Mode.gap.step c = .spoiled := by
      simp [Mode.step, end_mark, opens, closes, comma, blank, tab, return_mark, stops.newline, slash,
        quote]
    exact spoiled ▸ h

structure Lexed.Agrees (a b : Lexed) : Prop where
  lexeme : a.lexeme = b.lexeme
  line : a.line = b.line
  rest : a.lexeme.token ≠ .finish → Alike .gap a.rest b.rest

theorem nextLexeme_agrees {t u : Text} (h : Alike .gap t u) (l : Nat) :
    (nextLexeme l t).Agrees (nextLexeme l u) := by
  have skipped : (skipGap .space l t).Agrees (skipGap .space l u) := skipGap_agrees h
  unfold nextLexeme
  generalize skipGap .space l t = a at skipped ⊢
  generalize skipGap .space l u = b at skipped ⊢
  obtain ⟨unclosed, line, rest⟩ := a
  obtain ⟨unclosed', line', rest'⟩ := b
  obtain ⟨same_end, same_line, meets⟩ := skipped
  simp only at same_end same_line meets
  subst same_end same_line
  cases meets with
  | ends ht hu =>
    rcases ht.cases with rfl | ⟨r, rfl⟩
    · rcases hu.cases with rfl | ⟨v, rfl⟩ <;> exact ⟨rfl, rfl, fun token => absurd rfl token⟩
    · rcases hu.cases with rfl | ⟨v, rfl⟩ <;> exact ⟨rfl, rfl, fun token => absurd rfl token⟩
  | @char r v c end_mark stops behind =>
    by_cases mark : c = '{' ∨ c = '}' ∨ c = ','
    · rcases mark with rfl | rfl | rfl <;> exact ⟨rfl, rfl, fun _ => behind⟩
    by_cases quote : c = '"'
    · subst c
      have strings := readLiterals_agrees (l := line) behind
      refine ⟨?_, strings.line, fun _ => strings.rest⟩
      simp only [end_mark, Char.reduceEq, if_true, if_false, strings.problems, strings.isString,
        strings.value]
      rfl
    · obtain ⟨opens, closes, comma⟩ : c ≠ '{' ∧ c ≠ '}' ∧ c ≠ ',' := by simpa using mark
      simp only [end_mark, opens, closes, comma, quote, if_false]
      exact ⟨rfl, rfl, fun _ => alike_spoiled (alike_invalid stops mark quote end_mark behind)⟩

/-- Texts that are read alike have the same lexemes. -/
theorem lexemes_agree {t u : Text} (h : Alike .gap t u) (l : Nat) : lexemes l t = lexemes l u := by
  have first := nextLexeme_agrees h l
  induction l, t using lexemes.induct generalizing u with
  | case1 =>
    rename_i l t next finished
    have finished' : (nextLexeme l u).lexeme.token = .finish := first.lexeme ▸ finished
    rw [lexemes_of_finish finished, lexemes_of_finish finished', first.lexeme]
  | case2 =>
    rename_i l t next token shorter ih
    have token' : (nextLexeme l u).lexeme.token ≠ .finish := first.lexeme ▸ token
    have rest := first.rest token
    rw [lexemes_of_token token, lexemes_of_token token', first.lexeme, ← first.line]
    rw [ih rest (nextLexeme_agrees rest next.line)]

/-! ### Line comments -/

def IsCommentText (c : Text) : Prop := ∀ d ∈ c, d ≠ '\n' ∧ d ≠ nul

theorem Mode.step_eq_slash {m : Mode} {c : Char} (h : m.step c = .slash) : m = .gap ∧ c = '/' := by
  cases m <;> grind [step]

theorem Mode.step_eq_lineComment {m : Mode} {c : Char} (h : m.step c = .lineComment) :
    m = .slash ∧ c = '/' ∨ m = .lineComment ∧ c ≠ '\n' ∧ c ≠ nul := by
  cases m <;> grind [step]

/-- A text that ends in a line comment, cut in front of the comment. -/
theorem commentText_of_lineComment {s : Text} (h : Mode.gap.after s = .lineComment) :
    ∃ p c, s = p ++ '/' :: '/' :: c ∧ Mode.gap.after p = .gap ∧ IsCommentText c := by
  induction s using List.reverseRecOn with
  | nil => cases h
  | append_singleton s d ih =>
    rw [Mode.after_concat] at h
    rcases Mode.step_eq_lineComment h with ⟨slash, rfl⟩ | ⟨comment, newline, end_mark⟩
    · rcases List.eq_nil_or_concat s with rfl | ⟨p, e, hs⟩
      · cases slash
      · obtain rfl : s = p ++ [e] := hs.trans (List.concat_eq_append ..)
        rw [Mode.after_concat] at slash
        obtain ⟨gap, rfl⟩ := Mode.step_eq_slash slash
        exact ⟨p, [], by simp, gap, by simp [IsCommentText]⟩
    · obtain ⟨p, c, rfl, gap, text⟩ := ih comment
      refine ⟨p, c ++ [d], by simp, gap, ?_⟩
      intro e he
      rcases List.mem_append.mp he with he | he
      · exact text e he
      · rw [List.mem_singleton.mp he]
        exact ⟨newline, end_mark⟩

theorem skipGap_commentText {c : Text} (h : IsCommentText c) (l : Nat) (t : Text) :
    skipGap .lineComment l (c ++ t) = skipGap .lineComment l t := by
  induction c with
  | nil => rfl
  | cons d c ih =>
    obtain ⟨⟨newline, end_mark⟩, rest⟩ := List.forall_mem_cons.mp h
    rw [List.cons_append, skipGap, if_neg newline, if_neg end_mark]
    exact ih rest

/-- A line comment up to a NUL is a gap. -/
theorem alike_over_comment {c : Text} (h : IsCommentText c) (r : Text) :
    Alike .gap ('/' :: '/' :: (c ++ nul :: r)) r := by
  refine .gap fun l => ?_
  have comment : skipGap .space l ('/' :: '/' :: (c ++ nul :: r)) =
      skipGap .lineComment l (c ++ nul :: r) := rfl
  rw [comment, skipGap_commentText h]
  rfl

theorem alike_open_comment {c : Text} (h : IsCommentText c) : Alike .gap ('/' :: '/' :: c) [] := by
  refine .gap fun l => ?_
  have comment : skipGap .space l ('/' :: '/' :: c) = skipGap .lineComment l (c ++ []) := by
    rw [List.append_nil]
    rfl
  rw [comment, skipGap_commentText h]
  rfl

/-! ### Reading -/

theorem addFile_alike (db : Database) (path : Text) {t u : Text} (h : Alike .gap t u) :
    db.addFile (holding t) path = db.addFile (holding u) path := by
  have outlines : outlineOf t = outlineOf u := by rw [outlineOf, outlineOf, lexemes_agree h 1]
  have read_eq : db.read path t = db.read path u := by rw [read, read, outlines]
  exact read_eq

/-- A NUL ends a text wherever it does not stand in a line comment: what follows it makes no
difference at all. In a line comment it only ends the comment, so that the text is read as if the comment
and the NUL were not there. -/
theorem nul_ends_text_outside_line_comments (db : Database) (path : Text) :
    (∀ s r, Mode.gap.after s ≠ .lineComment →
      db.addFile (holding (s ++ nul :: r)) path = db.addFile (holding s) path) ∧
    (∀ s, Mode.gap.after s = .lineComment →
      ∃ p c, s = p ++ '/' :: '/' :: c ∧ Mode.gap.after p = .gap ∧ IsCommentText c) ∧
    (∀ p c r, Mode.gap.after p = .gap → IsCommentText c →
      db.addFile (holding (p ++ '/' :: '/' :: c)) path = db.addFile (holding p) path ∧
      db.addFile (holding (p ++ '/' :: '/' :: (c ++ nul :: r))) path =
        db.addFile (holding (p ++ r)) path) := by
  refine ⟨?_, fun s => commentText_of_lineComment, ?_⟩
  · intro s r outside
    have alike : Alike .gap (s ++ nul :: r) (s ++ []) :=
      alike_append s (.ends outside (isEnd_nul r) isEnd_nil)
    rw [List.append_nil] at alike
    exact addFile_alike db path alike
  · intro p c r gap text
    have cut : Alike .gap (p ++ '/' :: '/' :: c) (p ++ []) :=
      alike_append p (gap.symm ▸ alike_open_comment text)
    have past : Alike .gap (p ++ '/' :: '/' :: (c ++ nul :: r)) (p ++ r) :=
      alike_append p (gap.symm ▸ alike_over_comment text r)
    rw [List.append_nil] at cut
    exact ⟨addFile_alike db path cut, addFile_alike db path past⟩

def entryA : Text := "\x7b \"A\", \"^X\", \"\", \"\", \"\" \x7d"

/-- Behind a comment that a NUL ends the entry is read, though the text in front of the NUL has none;
behind a NUL in a string it is not. -/
theorem nul_ends_text_outside_line_comments_entryA :
    let comment : Text := "// a"
    let string : Text := "\x7b \"A"
    Mode.gap.after comment = .lineComment ∧
    (({} : Database).addFile (holding (comment ++ nul :: entryA)) "a.h").database.size = 1 ∧
    (({} : Database).addFile (holding comment) "a.h").database.size = 0 ∧
    Mode.gap.after string = .string ∧
    (({} : Database).addFile (holding (string ++ nul :: entryA)) "a.h").database.size = 0 := by
  obtain ⟨ends, -, goes_on⟩ := nul_ends_text_outside_line_comments {} "a.h"
  obtain ⟨cut, past⟩ := goes_on [] " a" entryA rfl (by simp [IsCommentText, nul])
  have string : Mode.gap.after "\x7b \"A" = .string := by decide +kernel
  have stops := ends "\x7b \"A" entryA (by rw [string]; decide)
  have one : (({} : Database).addFile (holding entryA) "a.h").database.size = 1 := by decide +kernel
  have none : (({} : Database).addFile (holding []) "a.h").database.size = 0 := by decide +kernel
  have cut_entry : (({} : Database).addFile (holding "\x7b \"A") "a.h").database.size = 0 := by
    decide +kernel
  refine ⟨by decide +kernel, ?_, ?_, string, ?_⟩
  · exact (congrArg (·.database.size) past).trans one
  · exact (congrArg (·.database.size) cut).trans none
  · exact (congrArg (·.database.size) stops).trans cut_entry

end DriveHealth.Database
