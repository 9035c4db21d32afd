import DriveHealth.Text.Number
import DriveHealth.Message
/-!
Tokens of a database text: braces, commas and strings. Blanks, newlines and comments may stand between
tokens and between the literals that make up one string. The text ends at its end or at a NUL where a
token could start.

Every step gives back the rest of the text, which is shorter unless the text has ended.
-/

namespace DriveHealth.Database

inductive LexicalProblem where
  | unclosedComment
  | unterminatedString
  | unknownEscape (c : Char)
  | invalidCharacter (c : Char)
  deriving DecidableEq, Repr

def LexicalProblem.text : LexicalProblem → Text
  | unclosedComment => "Missing '*/'"
  | unterminatedString => "Missing terminating '\"'"
  | unknownEscape c => "Unknown escape sequence '\\" ++ [c, '\'']
  | invalidCharacter c => "Syntax error, invalid char '" ++ [c, '\'']

/-- Something found in a line. Lines are counted from one. -/
structure Located (α : Type) where
  line : Nat
  value : α
  deriving DecidableEq, Repr

inductive Token where
  | openBrace
  | closeBrace
  | comma
  | string (value : Text)
  | bad
  | finish
  deriving DecidableEq, Repr

inductive Gap where
  | space
  | lineComment
  | blockComment
  deriving DecidableEq, Repr

/-- The place behind a gap, and whether the gap ended inside a comment. -/
structure Skipped where
  isUnclosed : Bool
  line : Nat
  rest : Text
  deriving DecidableEq, Repr

/-- Skips blanks and comments. A line comment ends at a newline or a NUL, which belong to it; a block
comment that meets a NUL is unclosed. -/
def skipGap : Gap → (line : Nat) → Text → Skipped
  | .space, line, '/' :: '/' :: r => skipGap .lineComment line r
  | .space, line, '/' :: '*' :: r => skipGap .blockComment line r
  | .space, line, c :: r =>
    if c = '\n' then skipGap .space (line + 1) r
    else if c = ' ' ∨ c = '\t' ∨ c = '\r' then skipGap .space line r
    else ⟨false, line, c :: r⟩
  | .lineComment, line, c :: r =>
    if c = '\n' then skipGap .space (line + 1) r
    else if c = nul then skipGap .space line r
    else skipGap .lineComment line r
  | .blockComment, line, '*' :: '/' :: r => skipGap .space line r
  | .blockComment, line, c :: r =>
    if c = '\n' then skipGap .blockComment (line + 1) r
    else if c = nul then ⟨true, line, c :: r⟩
    else skipGap .blockComment line r
  | .blockComment, line, [] => ⟨true, line, []⟩
  | _, line, [] => ⟨false, line, []⟩

theorem skipGap_rest_le (gap : Gap) (line : Nat) (t : Text) :
    (skipGap gap line t).rest.length ≤ t.length := by
  fun_induction skipGap gap line t <;> simp_all <;> omega

def Skipped.problems (s : Skipped) : List (Located LexicalProblem) :=
  if s.isUnclosed then [⟨s.line, .unclosedComment⟩] else []

structure Literal where
  value : Text
  problems : List (Located LexicalProblem)
  isClosed : Bool
  line : Nat
  rest : Text
  deriving DecidableEq, Repr

def Literal.cons (c : Char) (l : Literal) : Literal := { l with value := c :: l.value }

def Literal.unterminated (line : Nat) (rest : Text) : Literal :=
  ⟨[], [⟨line, .unterminatedString⟩], false, line, rest⟩

/-- Reads a literal up to its closing quote. Behind a backslash `n` is a newline, and a newline, a quote
and a backslash stand for themselves; another character is left out. A newline or a NUL ends a literal
that has no closing quote. -/
def readLiteral : (line : Nat) → Text → Literal
  | line, [] => .unterminated line []
  | line, '"' :: r => ⟨[], [], true, line, r⟩
  | line, ['\\'] => .unterminated line ['\\']
  | line, '\\' :: c :: r =>
    if c = nul then .unterminated line ('\\' :: c :: r)
    else if c = 'n' then (readLiteral line r).cons '\n'
    else if c = '\n' then (readLiteral (line + 1) r).cons c
    else if c = '\\' ∨ c = '"' then (readLiteral line r).cons c
    else
      let l := readLiteral line r
      { l with problems := ⟨line, .unknownEscape c⟩ :: l.problems }
  | line, c :: r =>
    if c = nul ∨ c = '\n' then .unterminated line (c :: r) else (readLiteral line r).cons c

theorem readLiteral_rest_le (line : Nat) (t : Text) :
    (readLiteral line t).rest.length ≤ t.length := by
  fun_induction readLiteral line t <;> grind [Literal.unterminated, Literal.cons]

/-- A token with the line where it starts and everything that was wrong on the way to it and in it. -/
structure Lexeme where
  problems : List (Located LexicalProblem)
  line : Nat
  token : Token
  deriving DecidableEq, Repr

structure Lexed where
  lexeme : Lexeme
  line : Nat
  rest : Text
  deriving DecidableEq, Repr

/-- A string behind its first opening quote: literals with gaps between them, and the gap behind the
last one. Text with a problem is no string. -/
structure Literals where
  value : Text
  problems : List (Located LexicalProblem)
  isString : Bool
  line : Nat
  rest : Text
  deriving DecidableEq, Repr

def readLiterals (line : Nat) (t : Text) : Literals :=
  let l := readLiteral line t
  if l.isClosed then
    let gap := skipGap .space l.line l.rest
    match h : gap.rest with
    | '"' :: r =>
      have : r.length < t.length := by
        have h₁ := skipGap_rest_le .space l.line l.rest
        have h₂ := readLiteral_rest_le line t
        have h₃ : (skipGap .space l.line l.rest).rest.length = r.length + 1 := by
          rw [show (skipGap .space l.line l.rest).rest = '"' :: r from h, List.length_cons]
        have h₄ : l.rest.length ≤ t.length := h₂
        omega
      let next := readLiterals gap.line r
      ⟨l.value ++ next.value, l.problems ++ gap.problems ++ next.problems,
       l.problems.isEmpty && next.isString, next.line, next.rest⟩
    | _ => ⟨l.value, l.problems ++ gap.problems, l.problems.isEmpty, gap.line, gap.rest⟩
  else ⟨l.value, l.problems, false, l.line, l.rest⟩
termination_by t.length

/-- The token at the start of a text. The first character decides; an invalid one spoils its line. -/
def nextLexeme (line : Nat) (t : Text) : Lexed :=
  let gap := skipGap .space line t
  let mark (token : Token) (rest : Text) : Lexed :=
    ⟨⟨gap.problems, gap.line, token⟩, gap.line, rest⟩
  match gap.rest with
  | [] => mark .finish []
  | c :: r =>
    if c = nul then mark .finish (c :: r)
    else if c = '{' then mark .openBrace r
    else if c = '}' then mark .closeBrace r
    else if c = ',' then mark .comma r
    else if c = '"' then
      let s := readLiterals gap.line r
      ⟨⟨gap.problems ++ s.problems, gap.line, if s.isString then .string s.value else .bad⟩,
       s.line, s.rest⟩
    else
      ⟨⟨gap.problems ++ [⟨gap.line, .invalidCharacter c⟩], gap.line, .bad⟩, gap.line,
       r.dropWhile fun d => d ≠ '\n' ∧ d ≠ nul⟩

theorem readLiterals_rest_le (line : Nat) (t : Text) :
    (readLiterals line t).rest.length ≤ t.length := by
  fun_induction readLiterals line t <;> grind [readLiteral_rest_le, skipGap_rest_le]

theorem nextLexeme_rest_lt {line : Nat} {t : Text}
    (h : (nextLexeme line t).lexeme.token ≠ .finish) :
    (nextLexeme line t).rest.length < t.length := by
  have hg := skipGap_rest_le .space line t
  unfold nextLexeme at h ⊢
  dsimp only at h ⊢
  split at h
  · exact absurd rfl h
  · rename_i c r hr
    rw [hr, List.length_cons] at hg
    have hs := readLiterals_rest_le (skipGap .space line t).line r
    have hd : (r.dropWhile fun d => d ≠ '\n' ∧ d ≠ nul).length ≤ r.length :=
      (List.dropWhile_sublist _).length_le
    grind

/-- All tokens of a text up to its end, which is the last one. -/
def lexemes (line : Nat) (t : Text) : List Lexeme :=
  let next := nextLexeme line t
  if h : next.lexeme.token = .finish then [next.lexeme]
  else
    have : next.rest.length < t.length := nextLexeme_rest_lt h
    next.lexeme :: lexemes next.line next.rest
termination_by t.length

end DriveHealth.Database
