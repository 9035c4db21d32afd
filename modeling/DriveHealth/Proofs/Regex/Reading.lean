import DriveHealth.Regex.Parser
import Mathlib.Tactic.SplitIfs

/-! Patterns taken apart into symbols. What stands behind a backslash or in a bracket expression has no
meaning of its own, so that a reading depends on where the bracket expressions end. A pattern that
can be parsed has a reading in which they end as the grammar has it. -/
namespace DriveHealth.Regex

inductive Symbol where
  | plain (c : Char)
  | escaped (c : Char)
  | bracket (text : Text)
  deriving DecidableEq, Repr

/-- A text as the symbols in it, with bracket expressions delimited by the given rule. -/
inductive Reads (IsBracket : Text → Prop) : Text → List Symbol → Prop where
  | nil : Reads IsBracket [] []
  | plain {c t ss} : c ≠ '\\' → c ≠ '[' → Reads IsBracket t ss →
      Reads IsBracket (c :: t) (.plain c :: ss)
  | escaped {t ss} (c) : Reads IsBracket t ss → Reads IsBracket ('\\' :: c :: t) (.escaped c :: ss)
  | bracket {b t ss} : IsBracket b → Reads IsBracket t ss →
      Reads IsBracket (b ++ t) (.bracket b :: ss)

variable {IsBracket : Text → Prop}

theorem Reads.append {t u : Text} {ss us : List Symbol} (h : Reads IsBracket t ss)
    (h' : Reads IsBracket u us) : Reads IsBracket (t ++ u) (ss ++ us) := by
  induction h with
  | nil => exact h'
  | plain escape opens _ ih => exact .plain escape opens ih
  | escaped c _ ih => exact .escaped c ih
  | bracket hb _ ih =>
    rw [List.append_assoc]
    exact .bracket hb ih

theorem Reads.isBracket {t b : Text} {ss : List Symbol} (h : Reads IsBracket t ss)
    (hb : .bracket b ∈ ss) : IsBracket b := by
  induction h with
  | nil => cases hb
  | plain _ _ _ ih => exact ih (by simpa using hb)
  | escaped _ _ ih => exact ih (by simpa using hb)
  | bracket isBracket _ ih =>
    rcases List.mem_cons.mp hb with same | hb
    · cases same
      exact isBracket
    · exact ih hb

/-- The character that a symbol starts with. -/
def Symbol.head : Symbol → Char
  | plain c => c
  | escaped _ => '\\'
  | bracket _ => '['

theorem Reads.head {t : Text} {ss : List Symbol} (opens : ∀ b, IsBracket b → b.head? = some '[')
    (h : Reads IsBracket t ss) : t.head? = ss.head?.map Symbol.head := by
  cases h with
  | nil => rfl
  | plain => rfl
  | escaped => rfl
  | bracket hb =>
    obtain ⟨u, rfl⟩ := List.head?_eq_some_iff.mp (opens _ hb)
    rfl

/-! ### Bracket expressions -/

/-- The marks of a named element: `[.x.]`, `[=x=]` and `[:class:]`. -/
def IsMark (c : Char) : Prop := c = '.' ∨ c = '=' ∨ c = ':'

instance (c : Char) : Decidable (IsMark c) := inferInstanceAs (Decidable (_ ∨ _))

/-- One piece in front of the rest of a list: a character by itself, or a named element, which goes on to
the first place where its mark stands in front of a `]`. -/
inductive Piece : Text → Text → Prop where
  | literal {c rest} : (c = '[' → ∀ d ∈ rest.head?, ¬ IsMark d) → Piece (c :: rest) rest
  | element {mark name rest} : IsMark mark → ¬ [mark, ']'] <:+: name ++ [mark] →
      Piece ('[' :: mark :: (name ++ mark :: ']' :: rest)) rest

/-- The list of a bracket expression with the `]` that ends it. In the first place a `]` is a character by
itself. -/
inductive Listed : (first : Bool) → Text → Prop where
  | close : Listed false [']']
  | piece {first t rest} : Piece t rest → (t.head? = some ']' → first = true) → Listed false rest →
      Listed first t

/-- Bracket expressions of the grammar. -/
inductive IsPosixBracket : Text → Prop where
  | plain {t} : t.head? ≠ some '^' → Listed true t → IsPosixBracket ('[' :: t)
  | negated {t} : Listed true t → IsPosixBracket ('[' :: '^' :: t)

theorem Listed.ne_nil {first : Bool} {t : Text} (h : Listed first t) : t ≠ [] := by
  cases h with
  | close => simp
  | piece piece _ _ => cases piece <;> simp

/-- A text that starts with a list and goes on with `after`. -/
def ListedUpTo (after : Text) (first : Bool) (t : Text) : Prop :=
  ∃ list, t = list ++ after ∧ Listed first list

theorem ListedUpTo.close {after : Text} : ListedUpTo after false (']' :: after) := ⟨[']'], rfl, .close⟩

/-- A piece in front of a list with something behind it is a piece in front of the list. -/
theorem Piece.cut {t rest after : Text} (h : Piece t (rest ++ after)) (more : rest ≠ []) :
    ∃ u, t = u ++ after ∧ Piece u rest ∧ u.head? = t.head? := by
  obtain ⟨d, rest, rfl⟩ := List.exists_cons_of_ne_nil more
  cases h with
  | @literal c _ mark => exact ⟨c :: d :: rest, rfl, .literal mark, rfl⟩
  | @element mark name _ isMark first =>
    exact ⟨'[' :: mark :: (name ++ mark :: ']' :: d :: rest), by simp, .element isMark first, rfl⟩

theorem IsPosixBracket.head {b : Text} (h : IsPosixBracket b) : b.head? = some '[' := by
  cases h <;> rfl

theorem ListedUpTo.piece {after t rest : Text} {first : Bool} (piece : Piece t rest)
    (start : t.head? = some ']' → first = true) (h : ListedUpTo after false rest) :
    ListedUpTo after first t := by
  obtain ⟨list, rfl, listed⟩ := h
  obtain ⟨u, rfl, piece', head⟩ := piece.cut listed.ne_nil
  exact ⟨u, rfl, .piece piece' (head ▸ start) listed⟩

theorem bind_eq_ok {ε α β : Type} {x : Except ε α} {f : α → Except ε β} {b : β} :
    x >>= f = .ok b ↔ ∃ a, x = .ok a ∧ f a = .ok b := by
  cases x <;> simp [bind, Except.bind]

theorem map_eq_ok {ε α β : Type} {x : Except ε α} {f : α → β} {b : β} :
    x.map f = .ok b ↔ ∃ a, x = .ok a ∧ f a = b := by
  cases x <;> simp [Except.map]

theorem of_guard_ok {ε α β : Type} {c : Prop} [Decidable c] {e : ε} {f : α → Except ε β}
    {x : Except ε β} {b : β} (h : (if c then throw e >>= f else x) = .ok b) : ¬ c ∧ x = .ok b := by
  split at h
  · cases h
  · exact ⟨‹_›, h⟩

namespace Bracket

/-- A name goes on to the first place that can end it. -/
theorem closeName_eq_some {mark : Char} {room : Nat} {t name rest : Text}
    (h : closeName mark room t = some (name, rest)) :
    t = name ++ mark :: ']' :: rest ∧ ¬ [mark, ']'] <:+: name ++ [mark] := by
  fun_induction closeName mark room t generalizing name with
  | case1 => cases h
  | case2 => cases h
  | case3 room c d r ends =>
    obtain ⟨rfl, rfl⟩ := ends
    cases h
    exact ⟨rfl, fun inside => by simpa using inside.length_le⟩
  | case4 => cases h
  | case5 c d r goes_on room ih =>
    obtain ⟨⟨name', rest'⟩, closed, same⟩ := Option.map_eq_some_iff.mp h
    cases same
    obtain ⟨text, first⟩ := ih closed
    refine ⟨congrArg (c :: ·) text, fun inside => ?_⟩
    rcases List.infix_cons_iff.mp inside with front | inside
    · -- The mark would be `c`, with the `]` right behind it.
      obtain ⟨same, front⟩ := List.cons_prefix_cons.mp front
      obtain ⟨more, behind⟩ := front
      rw [List.append_cons, show name' ++ [mark] = ']' :: more from behind.symm] at text
      exact goes_on ⟨same.symm, (List.cons.inj text).1⟩
    · exact first inside

theorem named_piece {r rest : Text} {mark : Char} {make : Text → Element} {e : Element}
    (isMark : IsMark mark) (h : element.named r mark make = .ok (e, rest)) :
    Piece ('[' :: mark :: r) rest := by
  unfold element.named at h
  split at h
  · rename_i name rest' closed
    cases h
    obtain ⟨rfl, first⟩ := closeName_eq_some closed
    exact .element isMark first
  · cases h

theorem element_piece {hyphen : Bool} {t rest : Text} {e : Element}
    (h : element hyphen t = .ok (e, rest)) : Piece t rest := by
  unfold element at h
  split at h
  · cases h
  · exact named_piece (.inl rfl) h
  · exact named_piece (.inr (.inl rfl)) h
  · exact named_piece (.inr (.inr rfl)) h
  · split at h
    · cases h
      exact .literal fun opens => absurd opens (by decide)
    · cases h
  · rename_i c r dot equals colon hyphen
    cases h
    refine .literal fun opens d hd mark => ?_
    obtain ⟨u, rfl⟩ := List.head?_eq_some_iff.mp hd
    rcases mark with rfl | rfl | rfl
    · exact dot u opens rfl
    · exact equals u opens rfl
    · exact colon u opens rfl

theorem listed_eq_ok {m : Member} {more : Text → Except Problem (List Member × Text)}
    {t after : Text} {ms : List Member} (h : listed m more t = .ok (ms, after)) :
    t = ']' :: after ∨ t.head? ≠ some ']' ∧ ∃ ms', more t = .ok (ms', after) := by
  unfold listed at h
  split at h
  · cases h
  · cases h
    exact .inl rfl
  · rename_i open_end
    obtain ⟨⟨ms', after'⟩, read, same⟩ := bind_eq_ok.mp h
    cases same
    refine .inr ⟨fun closes => ?_, ms', read⟩
    obtain ⟨u, rfl⟩ := List.head?_eq_some_iff.mp closes
    exact open_end u rfl

/-- A list that is read is one of the grammar. -/
theorem members_listed {rounds : Nat} {first : Bool} {t after : Text} {ms : List Member}
    (h : members rounds first t = .ok (ms, after)) (start : t.head? = some ']' → first = true) :
    ListedUpTo after first t := by
  induction rounds generalizing first t ms with
  | zero => cases h
  | succ rounds ih =>
    -- What follows a member of its own or a range.
    have further {m : Member} {rest : Text} {ms : List Member}
        (h : listed m (members rounds false) rest = .ok (ms, after)) :
        ListedUpTo after false rest := by
      rcases listed_eq_ok h with rfl | ⟨goes_on, ms', read⟩
      · exact .close
      · exact ih read fun closes => absurd closes goes_on
    obtain ⟨⟨e, rest⟩, read, h⟩ := bind_eq_ok.mp h
    have piece := element_piece read
    have hyphen {u : Text} : Piece ('-' :: u) u := .literal fun opens => absurd opens (by decide)
    simp only at h
    split at h
    · cases h
    · cases h
    · obtain ⟨m, -, same⟩ := bind_eq_ok.mp h
      cases same
      exact .piece piece start (.piece hyphen (by simp) .close)
    · rename_i goes_on _
      obtain ⟨⟨high, rest⟩, read', h⟩ := bind_eq_ok.mp h
      obtain ⟨m, -, h⟩ := bind_eq_ok.mp h
      have range_end : ListedUpTo after false _ :=
        .piece (element_piece read') (fun closes => ?_) (further h)
      · exact .piece piece start (.piece hyphen (by simp) range_end)
      · obtain ⟨u, rfl⟩ := List.head?_eq_some_iff.mp closes
        exact absurd rfl (goes_on u)
    · obtain ⟨m, -, h⟩ := bind_eq_ok.mp h
      exact .piece piece start (further h)

end Bracket

/-! ### Symbols -/

/-- A text that starts with symbols of the grammar and goes on with `rest`. -/
def ReadsUpTo (rest t : Text) : Prop := ∃ u ss, t = u ++ rest ∧ Reads IsPosixBracket u ss

namespace ReadsUpTo

theorem refl (t : Text) : ReadsUpTo t t := ⟨[], [], rfl, .nil⟩

theorem trans {t u v : Text} (h : ReadsUpTo u t) (h' : ReadsUpTo v u) : ReadsUpTo v t := by
  obtain ⟨a, ss, rfl, reads⟩ := h
  obtain ⟨b, us, rfl, reads'⟩ := h'
  exact ⟨a ++ b, ss ++ us, by simp, reads.append reads'⟩

theorem plain {c : Char} (t : Text) (escape : c ≠ '\\') (opens : c ≠ '[') : ReadsUpTo t (c :: t) :=
  ⟨[c], [.plain c], rfl, .plain escape opens .nil⟩

theorem escaped (c : Char) (t : Text) : ReadsUpTo t ('\\' :: c :: t) :=
  ⟨['\\', c], [.escaped c], rfl, .escaped c .nil⟩

theorem bracket {b : Text} (t : Text) (h : IsPosixBracket b) : ReadsUpTo t (b ++ t) :=
  ⟨b, [.bracket b], rfl, by simpa using Reads.bracket h .nil⟩

theorem length_le {t u : Text} (h : ReadsUpTo u t) : u.length ≤ t.length := by
  obtain ⟨a, ss, rfl, -⟩ := h
  simp

end ReadsUpTo

theorem Bracket.parse_eq_ok {t rest : Text} {a : Atom} (h : Bracket.parse t = .ok (a, rest)) :
    ∃ b, '[' :: t = b ++ rest ∧ IsPosixBracket b := by
  have listed {u : Text} {f : List Member → Atom}
      (h : (members u.length true u).map (fun read => (f read.1, read.2)) = .ok (a, rest)) :
      ListedUpTo rest true u := by
    obtain ⟨⟨ms, after⟩, read, same⟩ := map_eq_ok.mp h
    cases same
    exact members_listed read fun _ => rfl
  unfold Bracket.parse at h
  split at h
  · cases h
  · cases h
  · obtain ⟨list, rfl, inside⟩ := listed h
    exact ⟨_, rfl, .negated inside⟩
  · rename_i lone negated
    obtain ⟨list, rfl, inside⟩ := listed h
    refine ⟨_, rfl, .plain (fun caret => ?_) inside⟩
    obtain ⟨r, rfl⟩ := List.head?_eq_some_iff.mp caret
    exact negated (r ++ rest) rfl

theorem Token.escaped_not_open (c : Char) :
    Token.escaped c ≠ .openBracket ∧ Token.escaped c ≠ .openInterval := by
  unfold Token.escaped
  split <;> try split_ifs
  all_goals simp

theorem Token.plain_eq_openBracket {c : Char} (h : Token.plain c = .openBracket) : c = '[' := by
  unfold Token.plain at h
  split at h <;> simp_all

/-- A token other than an opening bracket or a lone backslash is one symbol. -/
theorem Token.next_readsUpTo {t rest : Text} {token : Token} (h : Token.next t = (token, rest))
    (finish : token ≠ .done) (lone : token ≠ .trailingBackslash) (opens : token ≠ .openBracket) :
    ReadsUpTo rest t := by
  unfold Token.next at h
  split at h
  · cases h
    exact absurd rfl finish
  · cases h
    exact absurd rfl lone
  · cases h
    exact .escaped _ _
  · rename_i c r no_escape lone
    cases h
    refine .plain _ (fun escape => ?_) (fun bracket => ?_)
    · subst c
      cases rest with
      | nil => exact no_escape rfl rfl
      | cons d u => exact lone d u rfl rfl
    · subst c
      exact absurd rfl opens

namespace Count

/-- Nothing makes a bad number good again. -/
theorem read_bad (steps : Nat) (value : Option Nat) (t : Text) : (read steps value true t).bad = true := by
  induction steps generalizing value t with
  | zero => rfl
  | succ steps ih =>
    rw [read]
    split
    · rfl
    · rfl
    · rfl
    · split
      · exact ih _ _
      · exact ih _ _
    · exact ih _ _

theorem read_readsUpTo {steps : Nat} {value : Option Nat} {bad : Bool} {t : Text}
    (h : (read steps value bad t).bad = false) : ReadsUpTo (read steps value bad t).rest t := by
  fun_induction read steps value bad t with
  | case1 => exact .refl _
  | case2 => cases h
  | case3 _ _ _ _ _ next => exact Token.next_readsUpTo next nofun nofun nofun
  | case4 _ _ _ _ _ next => exact Token.next_readsUpTo next nofun nofun nofun
  | case5 _ _ _ _ _ _ _ next _ _ ih =>
    exact (Token.next_readsUpTo next nofun nofun nofun).trans (ih h)
  | case6 steps value _ _ _ rest => exact absurd h (by simp [read_bad])
  | case7 steps value _ _ _ rest => exact absurd h (by simp [read_bad])

end Count

theorem readInterval_readsUpTo {t rest : Text} {low : Nat} {high : Option Nat}
    (h : readInterval t = .ok (low, high, rest)) : ReadsUpTo rest t := by
  have number (u : Text) := @Count.read_readsUpTo (u.length + 1) none false u
  -- Every check that fails throws, so what is behind it holds of the interval that was read.
  unfold readInterval at h
  obtain ⟨-, h⟩ := of_guard_ok h
  obtain ⟨good, h⟩ := of_guard_ok h
  have low_number := number t (by simpa using good)
  simp only [pure_bind] at h
  split at h
  · obtain ⟨-, h⟩ := of_guard_ok h
    obtain ⟨-, h⟩ := of_guard_ok h
    obtain ⟨-, h⟩ := of_guard_ok h
    cases h
    exact low_number
  · cases h
  · obtain ⟨-, h⟩ := of_guard_ok h
    obtain ⟨good, h⟩ := of_guard_ok h
    obtain ⟨-, h⟩ := of_guard_ok h
    obtain ⟨-, h⟩ := of_guard_ok h
    obtain ⟨-, h⟩ := of_guard_ok h
    cases h
    exact low_number.trans (number _ (by simpa using good))

namespace Parse

/-- Only a bracket expression and an interval are more than their token. -/
theorem step_rest {p q : Parse} {token : Token} {t rest : Text} (h : p.step token t = .ok (q, rest))
    (bracket : token ≠ .openBracket) (interval : token ≠ .openInterval) : rest = t := by
  cases token with
  | openBracket => exact absurd rfl bracket
  | openInterval => exact absurd rfl interval
  | star | plus | question =>
    obtain ⟨p', -, same⟩ := map_eq_ok.mp h
    cases same
    rfl
  | reference group =>
    rw [step] at h
    split at h
    · cases h
      rfl
    · cases h
  | trailingBackslash => cases h
  | _ =>
    cases h
    rfl

theorem step_readsUpTo {p q : Parse} {c : Char} {t rest : Text}
    (h : p.step (Token.next (c :: t)).1 (Token.next (c :: t)).2 = .ok (q, rest)) :
    ReadsUpTo rest (c :: t) ∧ rest.length ≤ t.length := by
  by_cases escape : c = '\\'
  · subst c
    cases t with
    | nil => cases h
    | cons d u =>
      obtain ⟨bracket, interval⟩ := Token.escaped_not_open d
      obtain rfl : rest = u := step_rest h bracket interval
      exact ⟨.escaped d rest, Nat.le_succ _⟩
  · have token : Token.next (c :: t) = (Token.plain c, t) := by simp [Token.next, escape]
    replace h : p.step (Token.plain c) t = .ok (q, rest) := by rwa [token] at h
    by_cases bracket : Token.plain c = .openBracket
    · obtain rfl := Token.plain_eq_openBracket bracket
      obtain ⟨⟨a, rest'⟩, parsed, same⟩ := map_eq_ok.mp h
      cases same
      obtain ⟨b, text, isBracket⟩ := Bracket.parse_eq_ok parsed
      have shorter := congrArg List.length text
      obtain ⟨u, rfl⟩ := List.head?_eq_some_iff.mp isBracket.head
      rw [text]
      rw [List.length_cons, List.length_append, List.length_cons] at shorter
      exact ⟨.bracket rest isBracket, by omega⟩
    have opens : c ≠ '[' := fun same => bracket (same ▸ rfl)
    by_cases interval : Token.plain c = .openInterval
    · simp only [interval, step] at h
      obtain ⟨-, h⟩ := of_guard_ok h
      obtain ⟨⟨low, high, rest'⟩, read, h⟩ := bind_eq_ok.mp h
      obtain ⟨p', -, same⟩ := bind_eq_ok.mp h
      cases same
      have count := readInterval_readsUpTo read
      exact ⟨.trans (.plain t escape opens) count, count.length_le⟩
    · obtain rfl : rest = t := step_rest h bracket interval
      exact ⟨.plain rest escape opens, Nat.le_refl _⟩

/-- A run that has steps enough takes the whole text, symbol by symbol. -/
theorem run_reads {steps : Nat} {p q : Parse} {t : Text} (enough : t.length ≤ steps)
    (h : run steps p t = .ok q) : ReadsUpTo [] t := by
  induction steps generalizing p t with
  | zero =>
    rw [List.length_eq_zero_iff.mp (Nat.le_zero.mp enough)]
    exact .refl []
  | succ steps ih =>
    cases t with
    | nil => exact .refl []
    | cons c r =>
      obtain ⟨⟨p', rest⟩, stepped, h⟩ := bind_eq_ok.mp h
      obtain ⟨symbols, shorter⟩ := step_readsUpTo stepped
      exact symbols.trans (ih (Nat.le_trans shorter (Nat.le_of_succ_le_succ enough)) h)

end Parse

/-- A pattern that can be parsed has a reading of the grammar. -/
theorem reads_of_parse {source : Text} {pattern : Pattern} (h : Pattern.parse source = .ok pattern) :
    ∃ ss, Reads IsPosixBracket source ss := by
  obtain ⟨p, ran, -⟩ := bind_eq_ok.mp h
  obtain ⟨t, ss, rfl, reads⟩ := Parse.run_reads (Nat.le_refl _) ran
  exact ⟨ss, (List.append_nil t).symm ▸ reads⟩

end DriveHealth.Regex
