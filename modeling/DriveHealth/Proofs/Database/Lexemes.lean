import DriveHealth.Database.Token
import Mathlib.Tactic.Push

/-! The lexemes of a text as a list: one after the other up to the end, which is the last one. A
token is bad exactly if something is wrong with it, and only a comment that does not end can be
wrong in front of a good one. -/
namespace DriveHealth.Database

theorem lexemes_of_finish {l : Nat} {t : Text} (h : (nextLexeme l t).lexeme.token = .finish) :
    lexemes l t = [(nextLexeme l t).lexeme] := by
  rw [lexemes]
  exact dif_pos h

theorem lexemes_of_token {l : Nat} {t : Text} (h : (nextLexeme l t).lexeme.token ≠ .finish) :
    lexemes l t =
      (nextLexeme l t).lexeme :: lexemes (nextLexeme l t).line (nextLexeme l t).rest := by
  rw [lexemes]
  exact dif_neg h

/-- The end of the text is the last lexeme and no other one. -/
inductive Ended : List Lexeme → Prop where
  | finish {x} : x.token = .finish → Ended [x]
  | token {x xs} : x.token ≠ .finish → Ended xs → Ended (x :: xs)

theorem lexemes_ended (l : Nat) (t : Text) : Ended (lexemes l t) := by
  induction l, t using lexemes.induct with
  | case1 l t next h =>
    rw [lexemes_of_finish h]
    exact .finish h
  | case2 l t next h _ ih =>
    rw [lexemes_of_token h]
    exact .token h ih

theorem forall_mem_lexemes {P : Lexeme → Prop} (h : ∀ l t, P (nextLexeme l t).lexeme) (l : Nat)
    (t : Text) : ∀ x ∈ lexemes l t, P x := by
  induction l, t using lexemes.induct with
  | case1 l t next hn =>
    rw [lexemes_of_finish hn]
    intro x hx
    rw [List.mem_singleton.mp hx]
    exact h l t
  | case2 l t next hn _ ih =>
    rw [lexemes_of_token hn]
    intro x hx
    rcases List.mem_cons.mp hx with rfl | hx
    · exact h l t
    · exact ih x hx

def tokens (xs : List Lexeme) : List Token := (xs.map (·.token)).takeWhile (· ≠ .finish)

def tokensOf (t : Text) : List Token := tokens (lexemes 1 t)

theorem tokens_cons_finish {x : Lexeme} (h : x.token = .finish) (xs : List Lexeme) :
    tokens (x :: xs) = [] := by
  simp [tokens, h]

theorem tokens_cons {x : Lexeme} (h : x.token ≠ .finish) (xs : List Lexeme) :
    tokens (x :: xs) = x.token :: tokens xs := by
  simp [tokens, h]

theorem Ended.mem_tokens {xs : List Lexeme} (h : Ended xs) {x : Lexeme} (hx : x ∈ xs)
    (hf : x.token ≠ .finish) : x.token ∈ tokens xs := by
  induction h with
  | finish hn =>
    rw [List.mem_singleton.mp hx] at hf
    exact absurd hn hf
  | token hn _ ih =>
    rw [tokens_cons hn]
    rcases List.mem_cons.mp hx with rfl | hx
    · exact List.mem_cons_self
    · exact List.mem_cons_of_mem _ (ih hx)

theorem skipped_problem {s : Skipped} {q : Located LexicalProblem} (h : q ∈ s.problems) :
    q.value = .unclosedComment := by
  unfold Skipped.problems at h
  split at h
  · rw [List.mem_singleton.mp h]
  · cases h

theorem readLiteral_problem (l : Nat) (t : Text) :
    ∀ q ∈ (readLiteral l t).problems, q.value ≠ .unclosedComment := by
  fun_induction readLiteral l t with
  | case1 | case3 | case4 | case9 => simp [Literal.unterminated]
  | case2 => simp
  | case5 | case6 | case7 | case10 =>
    rename_i ih
    exact ih
  | case8 =>
    rename_i ih
    simpa using ih

theorem readLiteral_closed {l : Nat} {t : Text} (h : (readLiteral l t).problems = []) :
    (readLiteral l t).isClosed = true := by
  fun_induction readLiteral l t with
  | case1 | case3 | case4 | case9 => simp [Literal.unterminated] at h
  | case2 => rfl
  | case5 | case6 | case7 | case10 =>
    rename_i ih
    exact ih h
  | case8 => cases h

theorem readLiteral_whole_iff (l : Nat) (t : Text) :
    (readLiteral l t).problems = [] ↔
      ∀ q ∈ (readLiteral l t).problems, q.value = .unclosedComment := by
  constructor
  · intro h q hq
    rw [h] at hq
    cases hq
  · intro h
    rw [List.eq_nil_iff_forall_not_mem]
    intro q hq
    exact readLiteral_problem l t q hq (h q hq)

/-- A comment that does not end leaves the string in front of it whole. -/
theorem readLiterals_isString_iff (l : Nat) (t : Text) :
    (readLiterals l t).isString = true ↔
      ∀ q ∈ (readLiterals l t).problems, q.value = .unclosedComment := by
  fun_induction readLiterals l t with
  | case1 l t literal hc gap r hr hlt next ih =>
    simp only [List.forall_mem_append, Bool.and_eq_true, List.isEmpty_iff]
    rw [ih, readLiteral_whole_iff, and_iff_left fun q hq => skipped_problem hq]
  | case2 l t literal hc gap hr =>
    simp only [List.forall_mem_append, List.isEmpty_iff]
    rw [readLiteral_whole_iff, and_iff_left fun q hq => skipped_problem hq]
  | case3 l t literal hc =>
    rw [← readLiteral_whole_iff]
    exact iff_of_false (by simp) fun h => hc (readLiteral_closed h)

inductive Mark : Char → Token → Prop where
  | openBrace : Mark '{' .openBrace
  | closeBrace : Mark '}' .closeBrace
  | comma : Mark ',' .comma

inductive Behind (gap : Skipped) : Lexed → Prop where
  | finish : (∀ c r, gap.rest = c :: r → c = nul) →
      Behind gap ⟨⟨gap.problems, gap.line, .finish⟩, gap.line, gap.rest⟩
  | mark {c token r} : gap.rest = c :: r → Mark c token →
      Behind gap ⟨⟨gap.problems, gap.line, token⟩, gap.line, r⟩
  | string {r token} : gap.rest = '"' :: r →
      token = (if (readLiterals gap.line r).isString then
        .string (readLiterals gap.line r).value else .bad) →
      Behind gap ⟨⟨gap.problems ++ (readLiterals gap.line r).problems, gap.line, token⟩,
        (readLiterals gap.line r).line, (readLiterals gap.line r).rest⟩
  | invalid {c r} : gap.rest = c :: r → c ≠ nul → c ≠ '"' → (∀ token, ¬ Mark c token) →
      Behind gap ⟨⟨gap.problems ++ [⟨gap.line, .invalidCharacter c⟩], gap.line, .bad⟩, gap.line,
        r.dropWhile fun d => d ≠ '\n' ∧ d ≠ nul⟩

theorem nextLexeme_behind (l : Nat) (t : Text) :
    Behind (skipGap .space l t) (nextLexeme l t) := by
  unfold nextLexeme
  dsimp only
  split
  · rename_i hr
    rw [← hr]
    exact .finish (by simp [hr])
  · rename_i c r hr
    by_cases h0 : c = nul
    · rw [if_pos h0, ← hr]
      exact .finish (by simp [hr, h0])
    by_cases h1 : c = '{'
    · subst c
      exact .mark hr .openBrace
    by_cases h2 : c = '}'
    · subst c
      exact .mark hr .closeBrace
    by_cases h3 : c = ','
    · subst c
      exact .mark hr .comma
    by_cases h4 : c = '"'
    · subst c
      exact .string hr rfl
    rw [if_neg h0, if_neg h1, if_neg h2, if_neg h3, if_neg h4]
    refine .invalid hr h0 h4 ?_
    rintro token (_ | _ | _)
    · exact h1 rfl
    · exact h2 rfl
    · exact h3 rfl

/-- A token is bad exactly if something is wrong besides a comment without an end. -/
theorem nextLexeme_bad_iff (l : Nat) (t : Text) :
    (nextLexeme l t).lexeme.token = .bad ↔
      ∃ q ∈ (nextLexeme l t).lexeme.problems, q.value ≠ .unclosedComment := by
  generalize hx : nextLexeme l t = x
  have hb : Behind (skipGap .space l t) x := hx ▸ nextLexeme_behind l t
  cases hb with
  | finish =>
    refine iff_of_false (by simp) ?_
    rintro ⟨q, hq, hn⟩
    exact hn (skipped_problem hq)
  | mark _ hm =>
    refine iff_of_false (by cases hm <;> simp) ?_
    rintro ⟨q, hq, hn⟩
    exact hn (skipped_problem hq)
  | @string r token _ ht =>
    by_cases hs : (readLiterals (skipGap .space l t).line r).isString
    · rw [if_pos hs] at ht
      refine iff_of_false (by simp [ht]) ?_
      rintro ⟨q, hq, hn⟩
      rcases List.mem_append.mp hq with hq | hq
      · exact hn (skipped_problem hq)
      · exact hn ((readLiterals_isString_iff _ _).mp hs q hq)
    · rw [if_neg hs] at ht
      refine iff_of_true ht ?_
      rw [readLiterals_isString_iff] at hs
      push Not at hs
      obtain ⟨q, hq, hn⟩ := hs
      exact ⟨q, List.mem_append_right _ hq, hn⟩
  | invalid =>
    refine iff_of_true rfl ⟨_, List.mem_append_right _ (List.mem_singleton_self _), ?_⟩
    simp

theorem lexeme_bad_iff {l : Nat} {t : Text} {x : Lexeme} (hx : x ∈ lexemes l t) :
    x.token = .bad ↔ ∃ q ∈ x.problems, q.value ≠ .unclosedComment :=
  forall_mem_lexemes (P := fun x => x.token = .bad ↔ ∃ q ∈ x.problems, q.value ≠ .unclosedComment)
    nextLexeme_bad_iff l t x hx

end DriveHealth.Database
