import DriveHealth.Proofs.Database.EntryList
import DriveHealth.Proofs.Database.Sites
import Mathlib.Data.List.Forall2

/-! The lines in messages about a database text. A message is about a problem in the text, about a token
that should not stand where it is, or about an entry. Each of them has a place in the text, and the
message has the line of this place. -/
namespace DriveHealth.Database

/-! ### Tokens with their places

What is wrong with a row of tokens depends on the tokens only, whatever their places are. -/

section

variable {α β : Type}

namespace Place

/-- Whether the token should not stand here. A bad token was reported before. -/
def refuses (p : Place) : Token → Bool
  | .bad => false
  | .finish => !p.mayFinish
  | t => (p.accept? 0 t).isNone

def behind (p : Place) (t : Token) : Place := ((p.accept? 0 t).map Prod.fst).getD (recovered 0 t)

end Place

/-- The tokens that should not stand where they are, each with the character that should. -/
def unexpected (p : Place) : List (α × Token) → List (α × Char)
  | [] => []
  | (a, t) :: r => (if p.refuses t then [(a, p.wanted)] else []) ++ unexpected (p.behind t) r

/-- An entry has the place of its brace. -/
def entryAt? : List (α × Token) → Option (α × Settings)
  | [] => none
  | x :: r => (settingsAt? (x.2 :: r.map Prod.snd)).map fun s => (x.1, s)

/-- The entries that begin anywhere in a row of tokens, in order. -/
def entriesIn (ts : List (α × Token)) : List (α × Settings) := ts.tails.filterMap entryAt?

theorem unexpected_map (f : α → β) (p : Place) (ts : List (α × Token)) :
    unexpected p (ts.map fun x => (f x.1, x.2)) = (unexpected p ts).map fun u => (f u.1, u.2) := by
  induction ts generalizing p with
  | nil => rfl
  | cons x r ih =>
    obtain ⟨a, t⟩ := x
    rw [List.map_cons, unexpected, unexpected, List.map_append, ih]
    split
    · rfl
    · rfl

theorem entryAt_map (f : α → β) (ts : List (α × Token)) :
    entryAt? (ts.map fun x => (f x.1, x.2)) = (entryAt? ts).map fun e => (f e.1, e.2) := by
  cases ts with
  | nil => rfl
  | cons x r =>
    have tokens : (r.map fun x => (f x.1, x.2)).map Prod.snd = r.map Prod.snd := by
      rw [List.map_map]
      rfl
    rw [List.map_cons, entryAt?, entryAt?, tokens, Option.map_map]
    rfl

theorem filterMap_cons_toList (f : α → Option β) (a : α) (l : List α) :
    (a :: l).filterMap f = (f a).toList ++ l.filterMap f := by
  rw [List.filterMap_cons]
  cases f a with
  | none => rfl
  | some b => rfl

theorem entriesIn_cons (x : α × Token) (r : List (α × Token)) :
    entriesIn (x :: r) = (entryAt? (x :: r)).toList ++ entriesIn r := by
  rw [entriesIn, List.tails_cons, filterMap_cons_toList]
  rfl

theorem entriesIn_map (f : α → β) (ts : List (α × Token)) :
    entriesIn (ts.map fun x => (f x.1, x.2)) = (entriesIn ts).map fun e => (f e.1, e.2) := by
  induction ts with
  | nil => rfl
  | cons x r ih =>
    have first := entryAt_map f (x :: r)
    rw [List.map_cons] at first
    rw [List.map_cons, entriesIn_cons, entriesIn_cons, ih, first, List.map_append]
    cases entryAt? (x :: r) with
    | none => rfl
    | some e => rfl

end

/-! ### Items with their lines -/

namespace Item

def lexical? : Item → Option (Nat × LexicalProblem)
  | lexical p => some (p.line, p.value)
  | _ => none

def expected? : Item → Option (Nat × Char)
  | expected p => some (p.line, p.value)
  | _ => none

def entryLine? : Item → Option (Nat × Settings)
  | entry s => some (s.line, s.value)
  | _ => none

def line? : Item → Option Nat
  | lexical p => some p.line
  | expected p => some p.line
  | stray => none
  | entry s => some s.line

end Item

/-- A lexeme as a token at a line. -/
def Lexeme.placed (x : Lexeme) : Nat × Token := (x.line, x.token)

namespace Place

/-- A place that does not know in which line its entry was begun. -/
def unlined : Place → Place
  | beforeString _ values => beforeString 0 values
  | behindString _ values => behindString 0 values
  | p => p

/-- No line makes a difference to what comes next. -/
theorem accept_unlined (p : Place) (l : Nat) (t : Token) :
    (p.unlined.accept? 0 t).map Prod.fst = (p.accept? l t).map fun a => a.1.unlined := by
  cases p with
  | start => cases t <;> rfl
  | beforeString m values => cases t <;> rfl
  | behindString m values =>
    cases t with
    | comma =>
      simp only [unlined, accept?]
      split
      · rfl
      · rfl
    | closeBrace =>
      simp only [unlined, accept?]
      split
      · rfl
      · rfl
    | openBrace | string | bad | finish => rfl
  | behindEntry => cases t <;> rfl
  | recovering => cases t <;> rfl

theorem wanted_unlined (p : Place) : p.unlined.wanted = p.wanted := by cases p <;> rfl

theorem mayFinish_unlined (p : Place) : p.unlined.mayFinish = p.mayFinish := by cases p <;> rfl

theorem behind_of_accept {p next : Place} {l : Nat} {t : Token} {items : List Item}
    (h : p.accept? l t = some (next, items)) : p.unlined.behind t = next.unlined := by
  rw [behind, accept_unlined p l t, h]
  rfl

theorem behind_of_refused {p : Place} {l : Nat} {t : Token} (h : p.accept? l t = none) :
    p.unlined.behind t = (recovered l t).unlined := by
  rw [behind, accept_unlined p l t, h]
  cases t <;> rfl

theorem refuses_iff {p : Place} {l : Nat} {t : Token} (bad : t ≠ .bad) (finish : t ≠ .finish) :
    p.unlined.refuses t = true ↔ p.accept? l t = none := by
  have same := accept_unlined p l t
  have token : p.unlined.refuses t = (p.unlined.accept? 0 t).isNone := by
    cases t with
    | bad => exact absurd rfl bad
    | finish => exact absurd rfl finish
    | openBrace | closeBrace | comma | string => rfl
  rw [token, Option.isNone_iff_eq_none, ← Option.map_eq_none_iff, same, Option.map_eq_none_iff]

/-- A token that is in its place completes an entry or nothing. -/
theorem accept_items {p next : Place} {l : Nat} {t : Token} {items : List Item}
    (h : p.accept? l t = some (next, items)) : items = [] ∨ ∃ s, items = [.entry s] := by
  unfold accept? at h
  split at h
  · cases h
    exact .inl rfl
  · cases h
    exact .inl rfl
  · cases h
    exact .inl rfl
  · cases h
    exact .inl rfl
  · split at h
    · cases h
      exact .inl rfl
    · cases h
  · split at h
    · cases h
    · cases h
      exact .inr ⟨_, rfl⟩
  · cases h
    exact .inl rfl
  · cases h

/-- The entry that was begun, if the tokens that follow complete it. -/
def completed? (p : Place) (ts : List Token) : Option (Nat × Settings) :=
  match p with
  | beforeString l _ | behindString l _ => (settingsAt? (p.begun ++ ts)).map fun s => (l, s)
  | start | behindEntry | recovering => none

/-- A token in its place completes the entry that was begun, or leaves it to the tokens that follow, or
begins one. -/
theorem completed_of_accept {p next : Place} {l : Nat} {t : Token} {items : List Item} (hp : p.Fits)
    (h : p.accept? l t = some (next, items)) (ts : List Token) :
    (p.completed? (t :: ts)).toList ++ ((settingsAt? (t :: ts)).map fun s => (l, s)).toList =
      items.filterMap Item.entryLine? ++ (next.completed? ts).toList := by
  unfold accept? at h
  split at h
  · cases h
    rfl
  · cases h
    rfl
  · rename_i other
    cases h
    have none : settingsAt? (t :: ts) = none := settingsAt_cons_of_ne other ts
    rw [none]
    rfl
  · rename_i m values v
    cases h
    have begun : (behindString m (values ++ [v])).begun ++ ts =
        (beforeString m values).begun ++ .string v :: ts := by
      rw [begun_behindString, List.append_assoc]
      rfl
    rw [completed?, completed?, begun]
    exact List.append_nil _
  · rename_i m values
    split at h
    · cases h
      have begun : (beforeString m values).begun ++ ts = (behindString m values).begun ++ .comma :: ts := by
        rw [begun_beforeString hp.1, List.append_assoc]
        rfl
      rw [completed?, completed?, begun]
      exact List.append_nil _
    · cases h
  · rename_i m values
    split at h
    · cases h
    · rename_i full
      cases h
      have whole : values.length = fieldCount := Nat.le_antisymm hp.2 (Nat.le_of_not_lt full)
      have begun : (behindString m values).begun ++ .closeBrace :: ts =
          entryTokens (settingsOf values) ++ ts := by
        rw [← begun_closed whole, List.append_assoc]
        rfl
      have found := settingsAt_eq_some_iff.mpr (List.prefix_append (entryTokens (settingsOf values)) ts)
      rw [completed?, begun, found]
      rfl
  · cases h
    rfl
  · cases h

/-- A token out of place costs the entry that was begun, and a brace begins one anyway. -/
theorem completed_of_refused {p : Place} {l : Nat} {t : Token} (hp : p.Fits) (h : p.accept? l t = none)
    (ts : List Token) :
    (p.completed? (t :: ts)).toList ++ ((settingsAt? (t :: ts)).map fun s => (l, s)).toList =
      ((recovered l t).completed? ts).toList := by
  have costs : p.completed? (t :: ts) = none := by
    cases p with
    | start => rfl
    | behindEntry => rfl
    | recovering => rfl
    | beforeString m values => rw [completed?, settingsAt_of_refused hp (by simp [begun]) h ts]; rfl
    | behindString m values => rw [completed?, settingsAt_of_refused hp (by simp [begun]) h ts]; rfl
  rw [costs]
  by_cases brace : t = .openBrace
  · subst t
    rfl
  · rw [settingsAt_cons_of_ne brace ts]
    cases t with
    | openBrace => exact absurd rfl brace
    | closeBrace | comma | string | bad | finish => rfl

/-- The end of the text completes nothing. -/
theorem completed_finish (p : Place) : p.completed? [.finish] = none := by
  have unfinished : settingsAt? (p.begun ++ [.finish]) = none := by
    rw [Option.eq_none_iff_forall_ne_some]
    intro s hs
    have closed : Token.closeBrace ∈ p.begun ++ [.finish] :=
      (settingsAt_eq_some_iff.mp hs).subset (by simp [entryTokens])
    rcases List.mem_append.mp closed with closed | closed
    · exact closeBrace_not_mem_begun p closed
    · cases List.mem_singleton.mp closed
  cases p with
  | start => rfl
  | behindEntry => rfl
  | recovering => rfl
  | beforeString m values => rw [completed?, unfinished]; rfl
  | behindString m values => rw [completed?, unfinished]; rfl

end Place

/-! ### Outlines -/

theorem lexical_problems (ps : List (Located LexicalProblem)) :
    (ps.map Item.lexical).filterMap Item.lexical? = ps.map fun q => (q.line, q.value) := by
  rw [List.filterMap_map]
  exact congrFun (List.filterMap_eq_map (f := fun q : Located LexicalProblem => (q.line, q.value))) ps

theorem expected_problems (ps : List (Located LexicalProblem)) :
    (ps.map Item.lexical).filterMap Item.expected? = [] := by
  rw [List.filterMap_map]
  exact List.filterMap_eq_nil_iff.mpr fun _ _ => rfl

theorem entry_problems (ps : List (Located LexicalProblem)) :
    (ps.map Item.lexical).filterMap Item.entryLine? = [] := by
  rw [List.filterMap_map]
  exact List.filterMap_eq_nil_iff.mpr fun _ _ => rfl

theorem lexical_complaint (p : Place) (l : Nat) (t : Token) : (p.complaint l t).lexical? = none := by
  cases t <;> rfl

theorem entry_complaint (p : Place) (l : Nat) (t : Token) : (p.complaint l t).entryLine? = none := by
  cases t <;> rfl

theorem expected_complaint {p : Place} {l : Nat} {t : Token} (finish : t ≠ .finish)
    (h : p.accept? l t = none) :
    (p.complaint l t).expected?.toList = if p.unlined.refuses t then [(l, p.unlined.wanted)] else [] := by
  by_cases bad : t = .bad
  · subst t
    rfl
  · have complaint : p.complaint l t = .expected ⟨l, p.wanted⟩ := by
      cases t with
      | bad => exact absurd rfl bad
      | openBrace | closeBrace | comma | string | finish => rfl
    rw [complaint, if_pos ((Place.refuses_iff bad finish).mpr h), Place.wanted_unlined]
    rfl

theorem not_refuses_of_accept {p : Place} {l : Nat} {t : Token} {a : Place × List Item}
    (finish : t ≠ .finish) (h : p.accept? l t = some a) : ¬ p.unlined.refuses t = true := by
  by_cases bad : t = .bad
  · subst t
    exact Bool.false_ne_true
  · rw [Place.refuses_iff (l := l) bad finish, h]
    exact Option.some_ne_none a

/-- The problems of an outline are those of the lexemes. -/
theorem outline_lexical {p : Place} {xs : List Lexeme} (hx : Ended xs) :
    (outline p xs).filterMap Item.lexical? =
      (xs.flatMap (·.problems)).map fun q => (q.line, q.value) := by
  induction hx generalizing p with
  | @finish x hf =>
    rw [outline_finish p [] hf, List.filterMap_append, lexical_problems, List.flatMap_singleton]
    split
    · exact List.append_nil _
    · rw [List.filterMap_cons_none (lexical_complaint ..)]
      exact List.append_nil _
  | @token x r hf _ ih =>
    rw [List.flatMap_cons, List.map_append]
    cases ha : p.accept? x.line x.token with
    | none =>
      rw [outline_refused r hf ha, List.filterMap_append, lexical_problems,
        List.filterMap_cons_none (lexical_complaint ..), ih]
    | some a =>
      obtain ⟨next, items⟩ := a
      have nothing : items.filterMap Item.lexical? = [] := by
        rcases Place.accept_items ha with rfl | ⟨s, rfl⟩
        · rfl
        · rfl
      rw [outline_accepted r hf ha, List.filterMap_append, lexical_problems, List.filterMap_append,
        nothing, ih]
      rfl

/-- The tokens that an outline complains about are those that should not stand where they are. -/
theorem outline_expected {p : Place} {xs : List Lexeme} (hx : Ended xs) :
    (outline p xs).filterMap Item.expected? = unexpected p.unlined (xs.map Lexeme.placed) := by
  induction hx generalizing p with
  | @finish x hf =>
    rw [outline_finish p [] hf, List.filterMap_append, expected_problems, hf, List.map_singleton,
      Lexeme.placed, hf]
    rw [unexpected, Place.refuses, Place.mayFinish_unlined, Place.wanted_unlined]
    cases p.mayFinish with
    | true => rfl
    | false => rfl
  | @token x r hf _ ih =>
    rw [List.map_cons, Lexeme.placed, unexpected]
    cases ha : p.accept? x.line x.token with
    | none =>
      rw [outline_refused r hf ha, List.filterMap_append, expected_problems, filterMap_cons_toList,
        expected_complaint hf ha, Place.behind_of_refused ha, ← ih]
      rfl
    | some a =>
      obtain ⟨next, items⟩ := a
      have nothing : items.filterMap Item.expected? = [] := by
        rcases Place.accept_items ha with rfl | ⟨s, rfl⟩
        · rfl
        · rfl
      rw [outline_accepted r hf ha, List.filterMap_append, expected_problems, List.filterMap_append,
        nothing, if_neg (not_refuses_of_accept hf ha), Place.behind_of_accept ha, ← ih]
      rfl

/-- The entries of an outline are those that begin among the tokens, and the one that was begun. -/
theorem outline_entries {p : Place} (hp : p.Fits) {xs : List Lexeme} (hx : Ended xs) :
    (outline p xs).filterMap Item.entryLine? =
      (p.completed? (xs.map (·.token))).toList ++ entriesIn (xs.map Lexeme.placed) := by
  -- What the tokens in front have begun is kept apart from what begins among those that are left.
  induction hx generalizing p with
  | @finish x hf =>
    have none : ([x].map Lexeme.placed).tails.filterMap entryAt? = [] := by
      rw [List.map_singleton, Lexeme.placed, hf]
      rfl
    rw [outline_finish p [] hf, List.filterMap_append, entry_problems, entriesIn, none, List.map_singleton, hf,
      Place.completed_finish]
    split
    · rfl
    · rw [List.filterMap_cons_none (entry_complaint ..)]
      rfl
  | @token x r hf _ ih =>
    have here : entryAt? ((x :: r).map Lexeme.placed) =
        (settingsAt? (x.token :: r.map (·.token))).map fun s => (x.line, s) := by
      rw [List.map_cons, entryAt?, List.map_map]
      rfl
    rw [List.map_cons] at here ⊢
    rw [List.map_cons, entriesIn_cons, here, ← List.append_assoc]
    cases ha : p.accept? x.line x.token with
    | none =>
      rw [outline_refused r hf ha, List.filterMap_append, entry_problems, List.nil_append,
        List.filterMap_cons_none (entry_complaint ..), Place.completed_of_refused hp ha,
        ih (Place.recovered_fits ..)]
    | some a =>
      obtain ⟨next, items⟩ := a
      rw [outline_accepted r hf ha, List.filterMap_append, entry_problems, List.nil_append,
        List.filterMap_append, Place.completed_of_accept hp ha,
        ih (Place.accept_advance hp ha).fits, List.append_assoc]

/-! ### Messages -/

/-- The items that reading reports: all of them, or those up to the one at which it is given up. -/
theorem addItems_messages (path : Text) (db : Database) (all : List Item) :
    ∃ items, items <+: all ∧ ((addItems path db all).fault = none → items = all) ∧
      (addItems path db all).messages = items.flatMap (Item.messages path) := by
  by_cases hb : db.builtin = []
  · rw [addItems_eq hb]
    exact ⟨all, List.prefix_refl all, fun _ => rfl, rfl⟩
  · rcases none_converts_or_first all with none | ⟨before, s, after, rfl, none, good⟩
    · rw [addItems_of_none_converts none]
      exact ⟨all, List.prefix_refl all, fun _ => rfl, rfl⟩
    · rw [addItems_fault hb none good]
      refine ⟨before ++ [.entry s], ⟨after, by simp⟩, ?_, rfl⟩
      intro going_on
      cases going_on

/-- Reading may close with information on the number of entries. -/
theorem read_closing (db : Database) (path t : Text) :
    ∃ closing : List Message, (∀ m ∈ closing, m.level = .info) ∧
      (db.read path t).messages = (addItems path db (outlineOf t)).messages ++ closing ∧
      (db.read path t).fault = (addItems path db (outlineOf t)).fault := by
  rw [read]
  split
  · exact ⟨[], by simp, (List.append_nil _).symm, rfl⟩
  · exact ⟨[_], by simp, rfl, rfl⟩

/-- A message about an item has the line of the item. -/
theorem Item.message_line {i : Item} {path : Text} {m : Message} (h : m ∈ i.messages path) :
    ∃ n note, i.line? = some n ∧ m.text = path ++ "(" ++ decimal n ++ ")" ++ ": " ++ note := by
  cases i with
  | lexical p =>
    rw [List.mem_singleton.mp h]
    exact ⟨p.line, _, rfl, rfl⟩
  | expected p =>
    rw [List.mem_singleton.mp h]
    exact ⟨p.line, _, rfl, rfl⟩
  | stray => cases h
  | entry s =>
    obtain ⟨p, -, rfl⟩ := List.mem_map.mp h
    exact ⟨s.line, p.text, rfl, rfl⟩

/-- A token with the text in front of it and the text that starts with it. -/
structure Placed where
  before : Text
  rest : Text
  token : Token
  deriving DecidableEq, Repr

theorem exists_placed {starts : List (Text × Text)} {xs : List Lexeme}
    (h : List.Forall₂ (fun s x => x.line = lineBehind s.1 ∧ Begins x.token s.2) starts xs) :
    ∃ ps : List Placed, ps.map (fun p => (p.before, p.rest)) = starts ∧
      ps.map (·.token) = xs.map (·.token) ∧ (∀ p ∈ ps, Begins p.token p.rest) ∧
      (ps.map fun p => (lineBehind p.before, p.token)) = xs.map Lexeme.placed := by
  induction h with
  | nil => exact ⟨[], rfl, rfl, by simp, rfl⟩
  | @cons s x starts xs first _ ih =>
    obtain ⟨line, begins⟩ := first
    obtain ⟨ps, same_starts, same_tokens, all_begin, lines⟩ := ih
    refine ⟨⟨s.1, s.2, x.token⟩ :: ps, ?_, ?_, ?_, ?_⟩
    · exact congrArg (List.cons s) same_starts
    · exact congrArg (List.cons x.token) same_tokens
    · exact List.forall_mem_cons.mpr ⟨begins, all_begin⟩
    · rw [List.map_cons, List.map_cons, lines, Lexeme.placed, line]

/-- The items of a text have the lines of what they are about: of the place of the problem, of the start
of the token that should not stand there, and of the brace of the entry. -/
structure LinesRight (t : Text) (ps : List Placed) : Prop where
  starts : ps.map (fun p => (p.before, p.rest)) = tokenSites t
  tokens : ps.map (·.token) = (lexemes 1 t).map (·.token)
  begins : ∀ p ∈ ps, p.before ++ p.rest = t ∧ Begins p.token p.rest
  shows : ∀ s ∈ problemSites t, ∃ rest, s.1 ++ rest = t ∧ Shows s.2 rest
  lexical : (outlineOf t).filterMap Item.lexical? =
    (problemSites t).map fun s => (lineBehind s.1, s.2)
  expected : (outlineOf t).filterMap Item.expected? =
    (unexpected .start (ps.map fun p => (p.before, p.token))).map fun u => (lineBehind u.1, u.2)
  entries : (outlineOf t).filterMap Item.entryLine? =
    (entriesIn (ps.map fun p => (p.before, p.token))).map fun e => (lineBehind e.1, e.2)

theorem exists_linesRight (t : Text) : ∃ ps, LinesRight t ps := by
  have starts := starts_lexemes 1 t
  rw [startsIn_sites, List.forall₂_map_left_iff] at starts
  obtain ⟨ps, same_starts, same_tokens, all_begin, lines⟩ :=
    exists_placed (starts.imp fun s x h => ⟨h.line, h.begins⟩)
  have ended := lexemes_ended 1 t
  have placed : (ps.map fun p => (p.before, p.token)).map (fun x => (lineBehind x.1, x.2)) =
      (lexemes 1 t).map Lexeme.placed := by
    rw [List.map_map]
    exact lines
  refine ⟨ps, same_starts, same_tokens, ?_, fun s => problemSites_shows, ?_, ?_, ?_⟩
  · intro p hp
    refine ⟨?_, all_begin p hp⟩
    apply tokenSites_append
    rw [← same_starts]
    exact List.mem_map_of_mem hp
  · rw [outlineOf, outline_lexical ended, problems_lexemes, problemsIn_sites, List.map_map]
    rfl
  · rw [outlineOf, outline_expected ended, ← unexpected_map, placed]
    rfl
  · rw [outlineOf, outline_entries (p := .start) trivial ended, ← entriesIn_map, placed]
    rfl

/-- Every message with a line is about an item of the text, in their order, and shows the line of the item:
one more than the number of newlines in front of what the item is about. -/
theorem reported_lines_right (db : Database) (path t : Text) :
    (∃ items closing, items <+: outlineOf t ∧
      ((db.addFile (holding t) path).fault = none → items = outlineOf t) ∧
      (db.addFile (holding t) path).messages = items.flatMap (Item.messages path) ++ closing ∧
      ∀ m ∈ closing, m.level = .info) ∧
    (∀ i : Item, ∀ m ∈ i.messages path, ∃ n note, i.line? = some n ∧
      m.text = path ++ "(" ++ decimal n ++ ")" ++ ": " ++ note) ∧
    ∃ ps, LinesRight t ps := by
  refine ⟨?_, fun i m => Item.message_line, exists_linesRight t⟩
  have reading : db.addFile (holding t) path = db.read path t := rfl
  obtain ⟨items, reported, complete, messages⟩ := addItems_messages path db (outlineOf t)
  obtain ⟨closing, info, with_closing, same_fault⟩ := read_closing db path t
  refine ⟨items, closing, reported, ?_, ?_, info⟩
  · rw [reading, same_fault]
    exact complete
  · rw [reading, with_closing, messages]

/-- Three entries, the second one with a text too many. -/
def sixTexts : Text :=
  "\x7b \"A\", \"^A\", \"\", \"\", \"\" \x7d,\n\x7b \"B\", \"^B\", \"\", \"\", \"\", \"\" \x7d,\n" ++
    "\x7b \"C\", \"^C\", \"\", \"\", \"\" \x7d\n"

/-- The closing brace is missing in the second line. -/
theorem reported_lines_right_sixTexts :
    let brace : Item := .expected ⟨2, '}'⟩
    let message : Message := errorAt "a.h" 2 "Syntax error, '\x7d' expected"
    message ∈ brace.messages "a.h" ∧
      (∃ n note, brace.line? = some n ∧
        message.text = "a.h".toList ++ "(" ++ decimal n ++ ")" ++ ": " ++ note) ∧
      ∃ ps, LinesRight sixTexts ps ∧
        (unexpected .start (ps.map fun p => (p.before, p.token))).map (fun u => (lineBehind u.1, u.2)) =
          [(2, '}')] ∧
        (entriesIn (ps.map fun p => (p.before, p.token))).map (fun e => (lineBehind e.1, e.2.family)) =
          [(1, ['A']), (3, ['C'])] := by
  intro brace message
  obtain ⟨-, lines, ps, right⟩ := reported_lines_right {} "a.h" sixTexts
  have here : message ∈ brace.messages "a.h" := List.mem_singleton_self _
  have expected : (outlineOf sixTexts).filterMap Item.expected? = [(2, '}')] := by decide +kernel
  have entries : ((outlineOf sixTexts).filterMap Item.entryLine?).map (fun e => (e.1, e.2.family)) =
      [(1, ['A']), (3, ['C'])] := by decide +kernel
  refine ⟨here, lines brace message here, ps, right, right.expected.symm.trans expected, ?_⟩
  rw [right.entries, List.map_map] at entries
  exact entries

end DriveHealth.Database
