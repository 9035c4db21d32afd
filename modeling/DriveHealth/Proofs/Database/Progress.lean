import DriveHealth.Proofs.Database.EndMark
import DriveHealth.Proofs.Database.EntryList

/-! Reading never stands still. What a lexeme takes is the beginning of the text in front of it, and it
takes something unless it is the end, which stays the end. So the loops that read the entries of a text
come to an end, and ask for at most one lexeme more than the text has characters. -/
namespace DriveHealth.Database

/-! ### What a lexeme takes -/

theorem skipGap_rest_suffix (g : Gap) (l : Nat) (t : Text) : (skipGap g l t).rest <:+ t := by
  fun_induction skipGap g l t <;> grind [List.suffix_cons_iff]

theorem readLiteral_rest_suffix (l : Nat) (t : Text) : (readLiteral l t).rest <:+ t := by
  fun_induction readLiteral l t <;>
    grind [List.suffix_cons_iff, Literal.unterminated, Literal.cons]

theorem readLiterals_rest_suffix (l : Nat) (t : Text) : (readLiterals l t).rest <:+ t := by
  fun_induction readLiterals l t with
  | case1 l t literal closed gap r hr shorter next ih =>
    have opened : '"' :: r <:+ t :=
      hr ▸ (skipGap_rest_suffix _ _ _).trans (readLiteral_rest_suffix l t)
    exact ih.trans ((List.suffix_cons _ r).trans opened)
  | case2 l t literal closed gap => exact (skipGap_rest_suffix _ _ _).trans (readLiteral_rest_suffix l t)
  | case3 l t literal => exact readLiteral_rest_suffix l t

theorem nextLexeme_rest_suffix (l : Nat) (t : Text) : (nextLexeme l t).rest <:+ t := by
  have skipped := skipGap_rest_suffix .space l t
  generalize hx : nextLexeme l t = x
  have behind : Behind (skipGap .space l t) x := hx ▸ nextLexeme_behind l t
  cases behind with
  | finish => exact skipped
  | mark first => exact (List.suffix_cons _ _).trans (first ▸ skipped)
  | string first =>
    exact (readLiterals_rest_suffix _ _).trans ((List.suffix_cons _ _).trans (first ▸ skipped))
  | invalid first =>
    exact (List.dropWhile_suffix _).trans ((List.suffix_cons _ _).trans (first ▸ skipped))

/-- Nothing is left behind the end but, perhaps, a NUL and what follows it. -/
theorem isEnd_of_finish {l : Nat} {t : Text} (finish : (nextLexeme l t).lexeme.token = .finish) :
    IsEnd (nextLexeme l t).rest := by
  generalize hx : nextLexeme l t = x at finish ⊢
  have behind : Behind (skipGap .space l t) x := hx ▸ nextLexeme_behind l t
  cases behind with
  | finish ends => exact ends
  | mark _ mark => cases mark <;> cases finish
  | string _ token =>
    rw [token] at finish
    split at finish <;> cases finish
  | invalid => cases finish

theorem nextLexeme_of_isEnd {t : Text} (ends : IsEnd t) (l : Nat) :
    nextLexeme l t = ⟨⟨[], l, .finish⟩, l, t⟩ := by
  rw [nextLexeme, skipGap_ends (by decide) ends]
  rcases ends.cases with rfl | ⟨r, rfl⟩ <;> rfl

/-- The lexemes behind one. -/
def Lexed.behind (x : Lexed) : List Lexeme :=
  if x.lexeme.token = .finish then [] else lexemes x.line x.rest

theorem lexemes_eq_cons (l : Nat) (t : Text) :
    lexemes l t = (nextLexeme l t).lexeme :: (nextLexeme l t).behind := by
  rw [Lexed.behind]
  split
  · rename_i finish
    exact lexemes_of_finish finish
  · rename_i token
    exact lexemes_of_token token

/-- Every lexeme but the last one takes something. -/
theorem length_lexemes_le (l : Nat) (t : Text) : (lexemes l t).length ≤ t.length + 1 := by
  induction l, t using lexemes.induct with
  | case1 l t next finish =>
    rw [lexemes_of_finish finish, List.length_singleton]
    exact Nat.le_add_left 1 _
  | case2 l t next token shorter ih =>
    rw [lexemes_of_token token, List.length_cons]
    exact Nat.succ_le_succ (ih.trans shorter)

/-! ### The loops -/

/-- The loop over the tokens of a text, with a lexeme in hand. At the place `recovering` it stands in the
inner loop, which goes on to an opening brace. -/
structure Reader where
  place : Place
  hand : Lexed
  /-- How many lexemes were asked for. -/
  calls : Nat
  found : List Item
  deriving DecidableEq, Repr

namespace Reader

def token (r : Reader) : Token := r.hand.lexeme.token

theorem not_finish_of_brace {r : Reader} (brace : r.token = .openBrace) : r.token ≠ .finish := by
  rw [brace]
  exact Token.noConfusion

/-- Asks for the lexeme at the start of a text. -/
def asking (place : Place) (calls : Nat) (found : List Item) (line : Nat) (t : Text) : Reader :=
  let next := nextLexeme line t
  ⟨place, next, calls + 1, found ++ next.lexeme.problems.map .lexical⟩

def start (t : Text) : Reader := asking .start 0 [] 1 t

def advance (r : Reader) (place : Place) (items : List Item) : Reader :=
  asking place r.calls (r.found ++ items) r.hand.line r.hand.rest

/-- Goes on to an opening brace, which may be the token in hand. -/
def refuse (r : Reader) : Reader :=
  { r with place := .recovering, found := r.found ++ [r.place.complaint r.hand.lexeme.line r.token] }

/-- Takes the brace in hand for the start of an entry. -/
def resume (r : Reader) : Reader := { r with place := .start }

/-- An end that should not stand here is refused like any other token, and ends the recovery. -/
def step (r : Reader) : Option Reader :=
  if r.token = .finish ∧ r.place.mayFinish then none
  else if r.place = .recovering ∧ r.token = .openBrace then some r.resume
  else
    match r.place.accept? r.hand.lexeme.line r.token with
    | some (place, items) => some (r.advance place items)
    | none => some r.refuse

/-- What a step can do. -/
inductive Turn (r : Reader) : Reader → Prop where
  | accept {place items} : r.token ≠ .finish → ¬ (r.place = .recovering ∧ r.token = .openBrace) →
      r.place.accept? r.hand.lexeme.line r.token = some (place, items) → Turn r (r.advance place items)
  | refuse : ¬ (r.token = .finish ∧ r.place.mayFinish) → r.place ≠ .recovering →
      r.place.accept? r.hand.lexeme.line r.token = none →
      Turn r r.refuse
  | resume : r.place = .recovering → r.token = .openBrace → Turn r r.resume

theorem accept_finish {p : Place} (open_end : ¬ p.mayFinish) (l : Nat) : p.accept? l .finish = none := by
  cases p with
  | start | behindEntry | recovering => exact absurd rfl open_end
  | beforeString | behindString => rfl

theorem accept_recovering (l : Nat) (t : Token) : (Place.recovering.accept? l t).isSome := by
  cases t <;> rfl

theorem turn_of_step {r s : Reader} (h : r.step = some s) : Turn r s := by
  rw [step] at h
  split at h
  · cases h
  rename_i goes_on
  split at h
  · rename_i brace
    cases h
    exact .resume brace.1 brace.2
  rename_i no_brace
  split at h
  · rename_i place items accepted
    cases h
    refine .accept (fun finish => ?_) no_brace accepted
    rw [finish, accept_finish fun may => goes_on ⟨finish, may⟩] at accepted
    cases accepted
  · rename_i refused
    cases h
    refine .refuse goes_on (fun recovering => ?_) refused
    have accepts := accept_recovering r.hand.lexeme.line r.token
    rw [← recovering, refused] at accepts
    cases accepts

/-- How many steps can follow at most without another lexeme. A token is refused once at most: the
recovery keeps an opening brace only for a place that accepts it. -/
def turns (r : Reader) : Nat :=
  if r.place = .recovering then 1
  else if (r.place.accept? r.hand.lexeme.line r.token).isSome then 0
  else 2

theorem behind_advance {r : Reader} (token : r.token ≠ .finish) (p : Place) (items : List Item) :
    r.hand.behind = (r.advance p items).hand.lexeme :: (r.advance p items).hand.behind := by
  rw [show r.hand.behind = lexemes r.hand.line r.hand.rest from if_neg token, lexemes_eq_cons]
  rfl

/-- A step takes a lexeme or comes nearer to taking one. -/
theorem step_descends {r s : Reader} (h : r.step = some s) :
    s.hand.behind.length < r.hand.behind.length ∨
      s.hand.behind.length = r.hand.behind.length ∧ s.turns < r.turns := by
  cases turn_of_step h with
  | @accept place items token =>
    left
    rw [behind_advance token place items, List.length_cons]
    exact Nat.lt_succ_self _
  | refuse _ place refused =>
    right
    refine ⟨rfl, ?_⟩
    rw [show r.turns = 2 by rw [turns, if_neg place, refused]; rfl]
    exact Nat.one_lt_two
  | resume place brace =>
    have accepts : (Place.start.accept? r.hand.lexeme.line r.token).isSome := by
      rw [brace]
      rfl
    right
    refine ⟨rfl, ?_⟩
    rw [show r.turns = 1 from if_pos place]
    exact Nat.lt_one_iff.mpr ((if_neg Place.noConfusion).trans (if_pos accepts))

/-- The loops up to their end. -/
def run (r : Reader) : Reader :=
  match h : r.step with
  | none => r
  | some s =>
    have := step_descends h
    s.run
-- refusing and resuming leave the lexemes as they are, so these alone do not decrease
termination_by (r.hand.behind.length, r.turns)
decreasing_by
  rcases this with fewer | ⟨same, fewer⟩
  · exact .left _ _ fewer
  · rw [same]
    exact .right _ fewer

theorem run_of_step {r s : Reader} (h : r.step = some s) : r.run = s.run := by
  rw [run]
  split
  · rename_i stop
    rw [stop] at h
    cases h
  · rename_i next step
    obtain rfl : next = s := Option.some.inj (step.symm.trans h)
    rfl

theorem run_of_stop {r : Reader} (h : r.step = none) : r.run = r := by
  rw [run]
  split
  · rfl
  · rename_i step
    rw [step] at h
    cases h

/-- The loops end where no step is left, and what every step keeps is kept to the end. -/
theorem run_induction {P : Reader → Prop} (keeps : ∀ r s, r.step = some s → P r → P s) {r : Reader}
    (h : P r) : r.run.step = none ∧ P r.run := by
  induction r using run.induct with
  | case1 r stop =>
    rw [run_of_stop stop]
    exact ⟨stop, h⟩
  | case2 r s step _ ih =>
    rw [run_of_step step]
    exact ih (keeps r s step h)

/-! ### What the loops find -/

/-- The lexeme in hand without its problems, which were told when it was taken. -/
def told (r : Reader) : Lexeme := ⟨[], r.hand.lexeme.line, r.token⟩

/-- What is still to be found. -/
def owed (r : Reader) : List Item := outline r.place (r.told :: r.hand.behind)

theorem found_asking (p : Place) (n : Nat) (found : List Item) (l : Nat) (t : Text) :
    (asking p n found l t).found ++ (asking p n found l t).owed = found ++ outline p (lexemes l t) := by
  rw [lexemes_eq_cons, asking, owed, List.append_assoc, outline, outline]
  rfl

section
variable {r : Reader}

theorem owed_finish (finish : r.token = .finish) :
    r.owed = if r.place.mayFinish then [] else [r.place.complaint r.hand.lexeme.line r.token] :=
  outline_finish (x := r.told) _ _ finish

theorem owed_accepted (token : r.token ≠ .finish) {place : Place} {items : List Item}
    (accepted : r.place.accept? r.hand.lexeme.line r.token = some (place, items)) :
    r.owed = items ++ outline place r.hand.behind :=
  outline_accepted (x := r.told) _ token accepted

theorem owed_refused (token : r.token ≠ .finish)
    (refused : r.place.accept? r.hand.lexeme.line r.token = none) :
    r.owed = r.place.complaint r.hand.lexeme.line r.token ::
      outline (Place.recovered r.hand.lexeme.line r.token) r.hand.behind :=
  outline_refused (x := r.told) _ token refused

theorem owed_recovering (token : r.token ≠ .finish) (place : r.place = .recovering) :
    r.owed = outline (Place.recovered r.hand.lexeme.line r.token) r.hand.behind := by
  have accepted : r.place.accept? r.hand.lexeme.line r.token =
      some (Place.recovered r.hand.lexeme.line r.token, []) := by
    rw [place]
    cases r.token <;> rfl
  exact owed_accepted token accepted

theorem owed_start (place : r.place = .start) (brace : r.token = .openBrace) :
    r.owed = outline (.beforeString r.hand.lexeme.line []) r.hand.behind := by
  have accepted : r.place.accept? r.hand.lexeme.line r.token =
      some (.beforeString r.hand.lexeme.line [], []) := by
    rw [place, brace]
    rfl
  exact owed_accepted (not_finish_of_brace brace) accepted

end

/-- A step tells something of what is owed, or nothing. -/
theorem step_found {r s : Reader} (h : r.step = some s) : s.found ++ s.owed = r.found ++ r.owed := by
  cases turn_of_step h with
  | accept token _ accepted =>
    have behind : r.hand.behind = lexemes r.hand.line r.hand.rest := if_neg token
    rw [advance, found_asking, owed_accepted token accepted, behind, List.append_assoc]
  | refuse goes_on _ refused =>
    -- what is wrong is told before recovering, which finds nothing of its own
    by_cases finish : r.token = .finish
    · have open_end : ¬ r.place.mayFinish := fun may => goes_on ⟨finish, may⟩
      have done : r.refuse.owed = [] := owed_finish finish
      rw [done, owed_finish finish, if_neg open_end, List.append_nil]
      rfl
    · have skipped := owed_recovering (r := r.refuse) finish rfl
      rw [skipped, owed_refused finish refused, refuse, List.append_assoc]
      rfl
  | resume place brace =>
    have begun := owed_start (r := r.resume) rfl brace
    rw [begun, owed_recovering (not_finish_of_brace brace) place, brace]
    rfl

/-- Every call takes one of the lexemes. -/
theorem step_calls {r s : Reader} (h : r.step = some s) :
    s.calls + s.hand.behind.length = r.calls + r.hand.behind.length := by
  cases turn_of_step h with
  | @accept place items token =>
    rw [behind_advance token place items, List.length_cons, ← Nat.add_assoc, Nat.add_right_comm]
    rfl
  | refuse | resume => rfl

theorem calls_start (t : Text) :
    (start t).calls + (start t).hand.behind.length = (lexemes 1 t).length := by
  rw [lexemes_eq_cons, List.length_cons, Nat.add_comm]
  rfl

/-- The loops stop only with the end in hand, where it may stand. -/
theorem finish_of_stop {r : Reader} (h : r.step = none) : r.token = .finish ∧ r.place.mayFinish := by
  rw [step] at h
  split at h
  · assumption
  · split at h
    · cases h
    · split at h <;> cases h

/-- Up to their end, the loops find the outline of a text and take each of its lexemes once. -/
theorem run_start (t : Text) :
    (start t).run.step = none ∧ (start t).run.found = outlineOf t ∧
      (start t).run.calls = (lexemes 1 t).length := by
  obtain ⟨stop, found, calls⟩ := run_induction
    (P := fun r => r.found ++ r.owed = outlineOf t ∧
      r.calls + r.hand.behind.length = (lexemes 1 t).length)
    (fun r s step h => ⟨(step_found step).trans h.1, (step_calls step).trans h.2⟩)
    (r := start t) ⟨found_asking .start 0 [] 1 t, calls_start t⟩
  obtain ⟨finish, may⟩ := finish_of_stop stop
  have none_owed : (start t).run.owed = [] := by rw [owed_finish finish, if_pos may]
  have none_behind : (start t).run.hand.behind = [] := if_pos finish
  rw [none_owed, List.append_nil] at found
  rw [none_behind] at calls
  exact ⟨stop, found, calls⟩

end Reader

/-- Wherever reading stands in a text, the next lexeme takes the beginning of what is left, and at least
one character unless it is the end. At the end, reading finds the end and stays there. So the loop over
the tokens and the loop that recovers from a wrong one end on every text, with its outline, and have
asked together for at most one lexeme more than the text has characters. -/
theorem reading_always_progresses :
    (∀ (line : Nat) (t : Text), let next := nextLexeme line t
      ∃ taken, t = taken ++ next.rest ∧ (next.lexeme.token ≠ .finish → taken ≠ []) ∧
        (next.lexeme.token = .finish → IsEnd next.rest)) ∧
    (∀ (line : Nat) (t : Text), IsEnd t → nextLexeme line t = ⟨⟨[], line, .finish⟩, line, t⟩) ∧
    ∀ t : Text, let last := (Reader.start t).run
      last.step = none ∧ last.found = outlineOf t ∧ last.calls = (lexemes 1 t).length ∧
        last.calls ≤ t.length + 1 := by
  refine ⟨?_, fun line t ends => nextLexeme_of_isEnd ends line, ?_⟩
  · intro line t next
    obtain ⟨taken, cut⟩ := nextLexeme_rest_suffix line t
    refine ⟨taken, cut.symm, ?_, isEnd_of_finish⟩
    rintro token rfl
    have shorter := nextLexeme_rest_lt token
    rw [show (nextLexeme line t).rest = t from cut] at shorter
    exact Nat.lt_irrefl _ shorter
  · intro t last
    obtain ⟨stop, found, calls⟩ := Reader.run_start t
    exact ⟨stop, found, calls, calls.trans_le (length_lexemes_le 1 t)⟩

/-- The bound is reached: a comma is skipped, and the brace behind it is not asked for again. -/
theorem reading_always_progresses_commaBrace :
    let t : Text := ",\x7b"
    (nextLexeme 1 t).lexeme.token ≠ .finish ∧
    (∃ taken, t = taken ++ (nextLexeme 1 t).rest ∧ taken ≠ []) ∧
    IsEnd [nul] ∧ nextLexeme 1 [nul] = ⟨⟨[], 1, .finish⟩, 1, [nul]⟩ ∧
    (Reader.start t).run.calls = 3 ∧ (Reader.start t).run.calls ≤ t.length + 1 := by
  intro t
  obtain ⟨progress, ends, loops⟩ := reading_always_progresses
  have token : (nextLexeme 1 t).lexeme.token ≠ .finish := by decide +kernel
  obtain ⟨taken, cut, some_taken, -⟩ := progress 1 t
  obtain ⟨-, -, calls, few⟩ := loops t
  have three : (lexemes 1 t).length = 3 := by decide +kernel
  exact ⟨token, ⟨taken, cut, some_taken token⟩, isEnd_nul [], ends 1 [nul] (isEnd_nul []),
    calls.trans three, few⟩

end DriveHealth.Database
