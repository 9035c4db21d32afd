import DriveHealth.Proofs.Database.EndMark

/-! Where reading finds tokens and problems. What is to be found at a place of a text depends on where the
characters in front of the place have led, and on the text behind it. The line of a place is one more than
the number of newlines in front of it. Reading finds the same in the same order, with the same lines. -/
namespace DriveHealth.Database

def lineBehind (before : Text) : Nat := 1 + before.count '\n'

instance (t : Text) : Decidable (IsEnd t) :=
  match t with
  | [] => isTrue isEnd_nil
  | c :: r => decidable_of_iff (c = nul) ⟨fun h => h ▸ isEnd_nul r, fun h => h c r rfl⟩

instance (c : Char) (r : Text) : Decidable (IsLone c r) :=
  match r with
  | [] => isTrue fun _ d u h => by cases h
  | d :: u => decidable_of_iff (c = '/' → d ≠ '/' ∧ d ≠ '*')
      ⟨fun h slash e v same => (List.cons.inj same).1 ▸ h slash, fun h slash => h slash d u rfl⟩

instance (c : Char) (r : Text) : Decidable (Stops c r) :=
  decidable_of_iff (¬ IsWhite c ∧ c ≠ '\n' ∧ IsLone c r)
    ⟨fun ⟨white, newline, lone⟩ => ⟨white, newline, lone⟩, fun h => ⟨h.white, h.newline, h.lone⟩⟩

inductive Event where
  | problem (p : LexicalProblem)
  /-- A token starts here; with the text from here on. -/
  | token (rest : Text)
  deriving DecidableEq, Repr

/-- What is wrong if the input ends here. -/
def Mode.unfinished : Mode → List Event
  | string => [.problem .unterminatedString]
  | blockComment | star => [.problem .unclosedComment]
  | _ => []

/-- Where the characters read so far have led. -/
structure Spot where
  mode : Mode
  /-- Whether a quote goes on with the string in front of the gap. -/
  joins : Bool
  deriving DecidableEq, Repr

namespace Spot

def start : Spot := ⟨.gap, false⟩

/-- A closing quote lets the next literal join, and nothing but a gap may stand between them. -/
def step (s : Spot) (c : Char) : Spot where
  mode := s.mode.step c
  joins := match s.mode with
    | .string => c = '"'
    | .gap => s.joins && (IsWhite c || c = '\n' || c = '/')
    | .slash => s.joins && (c = '/' || c = '*')
    | .lineComment | .blockComment | .star => s.joins
    | .escape | .spoiled | .ended => false

def behind (before : Text) : Spot := before.foldl step start

/-- What is to be found in front of a character that does not end the input. A backslash that is the last
character of the input ends a string and is no token either. -/
def eventsAt (s : Spot) (c : Char) (r : Text) : List Event :=
  match s.mode with
  | .string =>
    if c = '\n' then [.problem .unterminatedString]
    else if c = '\\' ∧ IsEnd r then
      [.problem .unterminatedString, .token (c :: r), .problem (.invalidCharacter c)]
    else []
  | .escape => if c ∈ ['n', '\n', '\\', '"'] then [] else [.problem (.unknownEscape c)]
  | .gap =>
    if ¬ Stops c r ∨ (c = '"' ∧ s.joins) then []
    else if c ∈ ['{', '}', ',', '"'] then [.token (c :: r)]
    else [.token (c :: r), .problem (.invalidCharacter c)]
  | _ => []

/-- What is to be found here, given the text from here on. The end of the input is a token. -/
def events (s : Spot) : Text → List Event
  | [] => if s.mode = .ended then [] else s.mode.unfinished ++ [.token []]
  | c :: r =>
    if c ≠ nul then s.eventsAt c r
    else if s.mode = .ended ∨ s.mode = .lineComment then []
    else s.mode.unfinished ++ [.token (c :: r)]

end Spot

/-- The places of a text behind another one: what stands in front of a place and what stands behind it. -/
def cuts (before : Text) : Text → List (Text × Text)
  | [] => [(before, [])]
  | c :: r => (before, c :: r) :: cuts (before ++ [c]) r

/-- What is to be found in a text, each with the text in front of it. -/
def sites (t : Text) : List (Text × Event) :=
  (cuts [] t).flatMap fun (before, rest) => ((Spot.behind before).events rest).map fun e => (before, e)

theorem mem_cuts_behind {before t b r : Text} :
    (b, r) ∈ cuts before t ↔ ∃ x, b = before ++ x ∧ x ++ r = t := by
  induction t generalizing before with
  | nil =>
    rw [cuts, List.mem_singleton, Prod.mk.injEq]
    constructor
    · rintro ⟨rfl, rfl⟩
      exact ⟨[], (List.append_nil _).symm, rfl⟩
    · rintro ⟨x, rfl, empty⟩
      obtain ⟨rfl, rfl⟩ := List.append_eq_nil_iff.mp empty
      exact ⟨List.append_nil before, rfl⟩
  | cons c t ih =>
    rw [cuts, List.mem_cons, ih, Prod.mk.injEq]
    constructor
    · rintro (⟨rfl, rfl⟩ | ⟨x, rfl, rfl⟩)
      · exact ⟨[], (List.append_nil _).symm, rfl⟩
      · exact ⟨c :: x, List.append_assoc before [c] x, rfl⟩
    · rintro ⟨x, rfl, whole⟩
      cases x with
      | nil => exact .inl ⟨List.append_nil before, whole⟩
      | cons d x =>
        obtain ⟨rfl, rest⟩ := List.cons.inj whole
        exact .inr ⟨x, (List.append_assoc before [d] x).symm, rest⟩

theorem mem_cuts_iff {t b r : Text} : (b, r) ∈ cuts [] t ↔ b ++ r = t := by
  rw [mem_cuts_behind]
  constructor
  · rintro ⟨x, rfl, whole⟩
    exact whole
  · intro whole
    exact ⟨b, rfl, whole⟩

/-! ### Lines -/

def located (line : Nat) (es : List Event) : List (Located Event) := es.map fun e => ⟨line, e⟩

def lineAfter (line : Nat) (c : Char) : Nat := if c = '\n' then line + 1 else line

/-- What is to be found in a text that starts in a line, with lines. -/
def sitesFrom (s : Spot) (line : Nat) : Text → List (Located Event)
  | [] => located line (s.events [])
  | c :: r => located line (s.events (c :: r)) ++ sitesFrom (s.step c) (lineAfter line c) r

theorem lineBehind_concat (before : Text) (c : Char) :
    lineBehind (before ++ [c]) = lineAfter (lineBehind before) c := by
  rw [lineBehind, lineBehind, lineAfter, List.count_append]
  split
  · rename_i newline
    subst c
    rfl
  · rename_i other
    rw [List.count_singleton, if_neg (by simpa using other), Nat.add_zero]

theorem Spot.behind_concat (before : Text) (c : Char) :
    behind (before ++ [c]) = (behind before).step c := by
  rw [behind, List.foldl_append]
  rfl

/-- Counting lines on the way gives each place the number of newlines in front of it. -/
theorem sitesFrom_behind (before t : Text) :
    sitesFrom (.behind before) (lineBehind before) t =
      (cuts before t).flatMap fun (b, r) => located (lineBehind b) ((Spot.behind b).events r) := by
  induction t generalizing before with
  | nil => rw [sitesFrom, cuts, List.flatMap_singleton]
  | cons c r ih => rw [sitesFrom, cuts, List.flatMap_cons, ← lineBehind_concat, ← Spot.behind_concat, ih]

theorem sites_located (t : Text) :
    (sites t).map (fun site => ⟨lineBehind site.1, site.2⟩) = sitesFrom .start 1 t := by
  have lines := sitesFrom_behind [] t
  rw [sites, List.map_flatMap]
  refine Eq.trans ?_ lines.symm
  simp [located, Function.comp_def]

/-! ### Equations for single places -/

section

variable {j : Bool} {l : Nat} {c : Char} {r t : Text}

theorem sitesFrom_ended (j : Bool) (l : Nat) (t : Text) : sitesFrom ⟨.ended, j⟩ l t = [] := by
  induction t generalizing j l with
  | nil => rfl
  | cons c r ih =>
    have step : (Spot.mk .ended j).step c = ⟨.ended, false⟩ := rfl
    rw [sitesFrom, step, ih, List.append_nil]
    by_cases end_mark : c = nul
    · simp [Spot.events, end_mark, located]
    · simp [Spot.events, end_mark, located, Spot.eventsAt]

/-- Where the input ends nothing else is to be found. -/
theorem sitesFrom_ends {m : Mode} (h : IsEnd t) (ended : m ≠ .ended) (line : m ≠ .lineComment) :
    sitesFrom ⟨m, j⟩ l t = located l (m.unfinished ++ [.token t]) := by
  rcases h.cases with rfl | ⟨r, rfl⟩
  · rw [sitesFrom, Spot.events, if_neg ended]
  · have step : (Spot.mk m j).step nul = ⟨.ended, ((Spot.mk m j).step nul).joins⟩ := by
      cases m <;> first | rfl | exact absurd rfl line
    rw [sitesFrom, step, sitesFrom_ended, List.append_nil, Spot.events, if_neg (not_not.mpr rfl),
      if_neg (not_or.mpr ⟨ended, line⟩)]

theorem sitesFrom_cons (s : Spot) (h : c ≠ nul) :
    sitesFrom s l (c :: r) =
      located l (s.eventsAt c r) ++ sitesFrom (s.step c) (lineAfter l c) r := by
  rw [sitesFrom, Spot.events, if_pos h]

theorem sitesFrom_silent {s : Spot} (h : c ≠ nul) (silent : s.eventsAt c r = []) :
    sitesFrom s l (c :: r) = sitesFrom (s.step c) (lineAfter l c) r := by
  rw [sitesFrom_cons s h, silent]
  rfl

theorem lineAfter_of_ne (h : c ≠ '\n') : lineAfter l c = l := if_neg h

theorem eventsAt_of_not_stops (h : ¬ Stops c r) : Spot.eventsAt ⟨.gap, j⟩ c r = [] := if_pos (.inl h)

theorem eventsAt_gap (h : Stops c r) :
    Spot.eventsAt ⟨.gap, false⟩ c r =
      if c ∈ ['{', '}', ',', '"'] then [.token (c :: r)]
      else [.token (c :: r), .problem (.invalidCharacter c)] :=
  if_neg (by simp [h])

theorem sitesFrom_white (h : IsWhite c) : sitesFrom ⟨.gap, j⟩ l (c :: r) = sitesFrom ⟨.gap, j⟩ l r := by
  have stays : Spot.step ⟨.gap, j⟩ c = ⟨.gap, j⟩ := by
    rcases h with rfl | rfl | rfl
    · cases j <;> rfl
    · cases j <;> rfl
    · cases j <;> rfl
  have newline : c ≠ '\n' := by
    rintro rfl
    exact absurd h (by decide)
  rw [sitesFrom_silent (not_nul_of_white h) (eventsAt_of_not_stops fun stops => stops.white h), stays,
    lineAfter_of_ne newline]

theorem sitesFrom_newline : sitesFrom ⟨.gap, j⟩ l ('\n' :: r) = sitesFrom ⟨.gap, j⟩ (l + 1) r := by
  have stays : Spot.step ⟨.gap, j⟩ '\n' = ⟨.gap, j⟩ := by cases j <;> rfl
  rw [sitesFrom_silent (by decide) (eventsAt_of_not_stops fun stops => stops.newline rfl), stays]
  rfl

/-- A comment mark leads into its comment, which keeps the string open for a further literal. -/
theorem sitesFrom_comment (h : c = '/' ∨ c = '*') :
    sitesFrom ⟨.gap, j⟩ l ('/' :: c :: r) =
      sitesFrom ⟨if c = '/' then .lineComment else .blockComment, j⟩ l r := by
  have comment : ¬ Stops '/' (c :: r) := by
    intro stops
    obtain ⟨line, block⟩ := stops.lone rfl c r rfl
    rcases h with h | h
    · exact line h
    · exact block h
  have slash : Spot.step ⟨.gap, j⟩ '/' = ⟨.slash, j⟩ := by cases j <;> rfl
  rw [sitesFrom_silent (by decide) (eventsAt_of_not_stops comment), slash]
  rcases h with rfl | rfl
  · have leads : Spot.step ⟨.slash, j⟩ '/' = ⟨.lineComment, j⟩ := by cases j <;> rfl
    rw [sitesFrom_silent (by decide) rfl, leads]
    rfl
  · have leads : Spot.step ⟨.slash, j⟩ '*' = ⟨.blockComment, j⟩ := by cases j <;> rfl
    rw [sitesFrom_silent (by decide) rfl, leads]
    rfl

/-- Where no slash follows, a star in a comment is like any other character. -/
theorem sitesFrom_star (h : ∀ u, t ≠ '/' :: u) :
    sitesFrom ⟨.star, j⟩ l t = sitesFrom ⟨.blockComment, j⟩ l t := by
  cases t with
  | nil => rfl
  | cons c r =>
    by_cases end_mark : c = nul
    · subst c
      rw [sitesFrom_ends (isEnd_nul r) (by decide) (by decide),
        sitesFrom_ends (isEnd_nul r) (by decide) (by decide)]
      rfl
    · have slash : c ≠ '/' := fun hc => h r (by rw [hc])
      have same : Spot.step ⟨.star, j⟩ c = Spot.step ⟨.blockComment, j⟩ c := by
        simp [Spot.step, Mode.step, slash]
      rw [sitesFrom_silent end_mark rfl, sitesFrom_silent end_mark rfl, same]

/-- A slash in front of no comment mark spoils its line. -/
theorem sitesFrom_slash (h : IsLone '/' t) :
    sitesFrom ⟨.slash, j⟩ l t = sitesFrom ⟨.spoiled, false⟩ l t := by
  cases t with
  | nil => rfl
  | cons c r =>
    by_cases end_mark : c = nul
    · subst c
      rw [sitesFrom_ends (isEnd_nul r) (by decide) (by decide),
        sitesFrom_ends (isEnd_nul r) (by decide) (by decide)]
      rfl
    · obtain ⟨line, block⟩ := h rfl c r rfl
      have same : Spot.step ⟨.slash, j⟩ c = Spot.step ⟨.spoiled, false⟩ c := by
        simp [Spot.step, Mode.step, line, block]
      rw [sitesFrom_silent end_mark rfl, sitesFrom_silent end_mark rfl, same]

/-- In a spoiled line nothing is to be found up to its end. -/
theorem sitesFrom_spoiled :
    sitesFrom ⟨.spoiled, j⟩ l t =
      sitesFrom ⟨.gap, false⟩ l (t.dropWhile fun d => d ≠ '\n' ∧ d ≠ nul) := by
  induction t generalizing j with
  | nil => rfl
  | cons c r ih =>
    by_cases end_mark : c = nul
    · subst c
      rw [List.dropWhile_cons_of_neg (by simp), sitesFrom_ends (isEnd_nul r) (by decide) (by decide),
        sitesFrom_ends (isEnd_nul r) (by decide) (by decide)]
      rfl
    · rw [sitesFrom_silent end_mark rfl]
      by_cases newline : c = '\n'
      · subst c
        rw [List.dropWhile_cons_of_neg (by simp), sitesFrom_newline]
        rfl
      · have stays : Spot.step ⟨.spoiled, j⟩ c = ⟨.spoiled, false⟩ := by
          simp [Spot.step, Mode.step, end_mark, newline]
        rw [List.dropWhile_cons_of_pos (by simp [newline, end_mark]), stays, lineAfter_of_ne newline, ih]

end

/-! ### What reading finds -/

def problemAt (p : Located LexicalProblem) : Located Event := ⟨p.line, .problem p.value⟩

/-- Skipping a gap finds what is to be found in it. -/
theorem sitesFrom_skipGap (g : Gap) (j : Bool) (l : Nat) (t : Text) :
    sitesFrom ⟨g.mode, j⟩ l t =
      (skipGap g l t).problems.map problemAt ++
        sitesFrom ⟨.gap, j⟩ (skipGap g l t).line (skipGap g l t).rest := by
  fun_induction skipGap g l t with
  | case1 l r ih =>
    rw [← ih]
    exact sitesFrom_comment (.inl rfl)
  | case2 l r ih =>
    rw [← ih]
    exact sitesFrom_comment (.inr rfl)
  | case3 l r line block ih =>
    rw [← ih]
    exact sitesFrom_newline
  | case4 l c r line block newline white ih =>
    rw [← ih]
    exact sitesFrom_white white
  | case5 => rfl
  | case6 l r ih =>
    rw [← ih]
    exact sitesFrom_silent (by decide) rfl
  | case7 l r newline ih =>
    rw [← ih]
    rfl
  | case8 l c r newline end_mark ih =>
    have stays : Spot.step ⟨.lineComment, j⟩ c = ⟨.lineComment, j⟩ := by
      simp [Spot.step, Mode.step, newline, end_mark]
    rw [← ih, Gap.mode, sitesFrom_silent end_mark rfl, stays, lineAfter_of_ne newline]
  | case9 l r ih =>
    rw [← ih, Gap.mode, sitesFrom_silent (by decide) rfl, sitesFrom_silent (by decide) rfl]
    rfl
  | case10 l r _ ih =>
    rw [← ih]
    exact sitesFrom_silent (by decide) rfl
  | case11 l r _ _ =>
    rw [Gap.mode, sitesFrom_ends (isEnd_nul r) (by decide) (by decide),
      sitesFrom_ends (isEnd_nul r) (by decide) (by decide)]
    rfl
  | case12 l c r closed newline end_mark ih =>
    rw [← ih, Gap.mode, sitesFrom_silent end_mark rfl, lineAfter_of_ne newline]
    by_cases star : c = '*'
    · subst c
      exact sitesFrom_star fun u => closed u rfl
    · have stays : Spot.step ⟨.blockComment, j⟩ c = ⟨.blockComment, j⟩ := by
        simp [Spot.step, Mode.step, end_mark, star]
      rw [stays]
  | case13 l => rfl
  | case14 g l block =>
    cases g with
    | space => rfl
    | lineComment => rfl
    | blockComment => exact absurd rfl block

/-- Behind a gap a token may be read as the first one: no quote is there. -/
theorem sitesFrom_joins {t : Text} {l : Nat} (first : ∀ c r, t = c :: r → c ≠ nul → Stops c r)
    (quote : ∀ r, t ≠ '"' :: r) :
    sitesFrom ⟨.gap, true⟩ l t = sitesFrom ⟨.gap, false⟩ l t := by
  cases t with
  | nil => rfl
  | cons c r =>
    by_cases end_mark : c = nul
    · subst c
      rw [sitesFrom_ends (isEnd_nul r) (by decide) (by decide),
        sitesFrom_ends (isEnd_nul r) (by decide) (by decide)]
    · have stops := first c r rfl end_mark
      have other : c ≠ '"' := fun hc => quote r (by rw [hc])
      have same : Spot.eventsAt ⟨.gap, true⟩ c r = Spot.eventsAt ⟨.gap, false⟩ c r := by
        simp [Spot.eventsAt, other]
      rw [sitesFrom_cons _ end_mark, sitesFrom_cons _ end_mark, same]
      by_cases slash : c = '/'
      · subst c
        have lone : IsLone '/' r := stops.lone
        have joins : Spot.step ⟨.gap, true⟩ '/' = ⟨.slash, true⟩ := rfl
        have starts : Spot.step ⟨.gap, false⟩ '/' = ⟨.slash, false⟩ := rfl
        rw [joins, starts, sitesFrom_slash lone, sitesFrom_slash lone]
      · have behind : Spot.step ⟨.gap, true⟩ c = Spot.step ⟨.gap, false⟩ c := by
          simp [Spot.step, stops.white, stops.newline, slash]
        rw [behind]

/-- A backslash in front of the end of the input ends its string and spoils what is left of it. -/
theorem sitesFrom_backslash_ends {t : Text} (h : IsEnd t) (j : Bool) (l : Nat) :
    sitesFrom ⟨.string, j⟩ l ('\\' :: t) =
      ⟨l, .problem .unterminatedString⟩ :: sitesFrom ⟨.gap, false⟩ l ('\\' :: t) := by
  have stops : Stops '\\' t := ⟨by decide, by decide, fun slash => absurd slash (by decide)⟩
  have string : Spot.eventsAt ⟨.string, j⟩ '\\' t =
      [.problem .unterminatedString, .token ('\\' :: t), .problem (.invalidCharacter '\\')] := by
    simp [Spot.eventsAt, h]
  have gap : Spot.eventsAt ⟨.gap, false⟩ '\\' t =
      [.token ('\\' :: t), .problem (.invalidCharacter '\\')] := by
    simp [Spot.eventsAt, stops]
  have escape : Spot.step ⟨.string, j⟩ '\\' = ⟨.escape, false⟩ := rfl
  have spoiled : Spot.step ⟨.gap, false⟩ '\\' = ⟨.spoiled, false⟩ := rfl
  rw [sitesFrom_cons _ (by decide), sitesFrom_cons _ (by decide), string, gap, escape, spoiled,
    sitesFrom_ends h (by decide) (by decide), sitesFrom_ends h (by decide) (by decide)]
  rfl

theorem sitesFrom_escaped {c : Char} (h : c ≠ nul) (j : Bool) (l : Nat) (r : Text) :
    sitesFrom ⟨.string, j⟩ l ('\\' :: c :: r) =
      located l (Spot.eventsAt ⟨.escape, false⟩ c r) ++ sitesFrom ⟨.string, false⟩ (lineAfter l c) r := by
  have goes_on : ¬ IsEnd (c :: r) := fun ends => h (ends c r rfl)
  have silent : Spot.eventsAt ⟨.string, j⟩ '\\' (c :: r) = [] := by simp [Spot.eventsAt, goes_on]
  have escape : Spot.step ⟨.string, j⟩ '\\' = ⟨.escape, false⟩ := rfl
  have back : Spot.step ⟨.escape, false⟩ c = ⟨.string, false⟩ := by
    simp [Spot.step, step_escape h]
  rw [sitesFrom_silent (by decide) silent, escape, sitesFrom_cons _ h, back]
  rfl

theorem sitesFrom_readLiteral (j : Bool) (l : Nat) (t : Text) :
    sitesFrom ⟨.string, j⟩ l t =
      (readLiteral l t).problems.map problemAt ++
        sitesFrom ⟨.gap, (readLiteral l t).isClosed⟩ (readLiteral l t).line (readLiteral l t).rest := by
  fun_induction readLiteral l t generalizing j with
  | case1 l => rfl
  | case2 l r => exact sitesFrom_silent (by decide) rfl
  | case3 l => exact sitesFrom_backslash_ends isEnd_nil j l
  | case4 l r => exact sitesFrom_backslash_ends (isEnd_nul r) j l
  | case5 l r _ ih =>
    rw [sitesFrom_escaped (by decide)]
    exact ih false
  | case6 l r _ _ ih =>
    rw [sitesFrom_escaped (by decide)]
    exact ih false
  | case7 l c r end_mark letter newline known ih =>
    have silent : Spot.eventsAt ⟨.escape, false⟩ c r = [] := by
      simp [Spot.eventsAt, known]
    rw [sitesFrom_escaped end_mark, silent, lineAfter_of_ne newline]
    exact ih false
  | case8 l c r end_mark letter newline unknown literal ih =>
    have unknown_escape : Spot.eventsAt ⟨.escape, false⟩ c r = [.problem (.unknownEscape c)] := by
      simpa [Spot.eventsAt, letter, newline] using unknown
    rw [sitesFrom_escaped end_mark, unknown_escape, lineAfter_of_ne newline]
    exact congrArg (List.cons _) (ih false)
  | case9 l c r quote single pair last =>
    rcases last with rfl | rfl
    · have string : sitesFrom ⟨.string, j⟩ l (nul :: r) =
          located l [.problem .unterminatedString, .token (nul :: r)] :=
        sitesFrom_ends (isEnd_nul r) (by decide) (by decide)
      have gap : sitesFrom ⟨.gap, false⟩ l (nul :: r) = located l [.token (nul :: r)] :=
        sitesFrom_ends (isEnd_nul r) (by decide) (by decide)
      rw [string]
      exact congrArg (List.cons _) gap.symm
    · rw [sitesFrom_cons _ (by decide)]
      exact congrArg (List.cons _) sitesFrom_newline.symm
  | case10 l c r quote single pair other ih =>
    have not_quote : c ≠ '"' := quote
    have backslash := not_backslash single pair
    obtain ⟨end_mark, newline⟩ := not_or.mp other
    have silent : Spot.eventsAt ⟨.string, j⟩ c r = [] := by
      simp [Spot.eventsAt, newline, backslash]
    have stays : Spot.step ⟨.string, j⟩ c = ⟨.string, false⟩ := by
      simp [Spot.step, step_string quote backslash other, not_quote]
    rw [sitesFrom_silent end_mark silent, stays, lineAfter_of_ne newline]
    exact ih false

/-- What stands behind a gap belongs to no gap. -/
theorem stops_behind_gap {g : Gap} {l : Nat} {t r : Text} {c : Char} (h : (skipGap g l t).rest = c :: r)
    (end_mark : c ≠ nul) : Stops c r := by
  have meets := meets_self g l t
  rw [h] at meets
  cases meets with
  | ends ends => exact absurd (ends c r rfl) end_mark
  | char _ _ stops => exact stops

theorem sitesFrom_quote (j : Bool) (l : Nat) (r : Text) :
    sitesFrom ⟨.gap, j⟩ l ('"' :: r) =
      located l (if j then [] else [.token ('"' :: r)]) ++ sitesFrom ⟨.string, false⟩ l r := by
  have stops : Stops '"' r := ⟨by decide, by decide, fun slash => absurd slash (by decide)⟩
  have events : Spot.eventsAt ⟨.gap, j⟩ '"' r = if j then [] else [.token ('"' :: r)] := by
    simp [Spot.eventsAt, stops]
  have string : Spot.step ⟨.gap, j⟩ '"' = ⟨.string, false⟩ := by cases j <;> rfl
  rw [sitesFrom_cons _ (by decide), events, string]
  rfl

theorem sitesFrom_readLiterals (j : Bool) (l : Nat) (t : Text) :
    sitesFrom ⟨.string, j⟩ l t =
      (readLiterals l t).problems.map problemAt ++
        sitesFrom ⟨.gap, false⟩ (readLiterals l t).line (readLiterals l t).rest := by
  induction l, t using readLiterals.induct generalizing j with
  | case1 =>
    rename_i l t literal closed gap r hr shorter ih
    have closed : (readLiteral l t).isClosed = true := closed
    have skipped := sitesFrom_skipGap .space true literal.line literal.rest
    have rest : (skipGap .space literal.line literal.rest).rest = '"' :: r := hr
    rw [rest, sitesFrom_quote, ih] at skipped
    rw [sitesFrom_readLiteral, readLiterals_joined closed rfl hr, closed]
    refine (congrArg _ skipped).trans ?_
    simp only [List.map_append, List.append_assoc]
    rfl
  | case2 =>
    rename_i l t literal closed gap last
    have closed : (readLiteral l t).isClosed = true := closed
    have skipped := sitesFrom_skipGap .space true literal.line literal.rest
    rw [sitesFrom_joins (fun c r h => stops_behind_gap h) last] at skipped
    rw [sitesFrom_readLiteral, readLiterals_closed closed rfl last, closed]
    refine (congrArg _ skipped).trans ?_
    simp only [List.map_append, List.append_assoc]
    rfl
  | case3 =>
    rename_i l t literal isOpen
    have isOpen : (readLiteral l t).isClosed = false := by simpa using isOpen
    rw [sitesFrom_readLiteral, readLiterals_open isOpen, isOpen]

/-- How the text at a token begins. -/
def Begins : Token → Text → Prop
  | .openBrace, t => t.head? = some '{'
  | .closeBrace, t => t.head? = some '}'
  | .comma, t => t.head? = some ','
  | .string _, t => t.head? = some '"'
  | .bad, t => ¬ IsEnd t
  | .finish, t => IsEnd t

theorem Mark.character {c : Char} {token : Token} (h : Mark c token) :
    ¬ IsWhite c ∧ c ≠ '\n' ∧ c ≠ '/' ∧ c ≠ nul ∧ c ≠ '"' ∧ c ∈ ['{', '}', ',', '"'] := by
  cases h with
  | openBrace => decide
  | closeBrace => decide
  | comma => decide

theorem sitesFrom_mark {c : Char} {token : Token} (h : Mark c token) (l : Nat) (r : Text) :
    sitesFrom ⟨.gap, false⟩ l (c :: r) = ⟨l, .token (c :: r)⟩ :: sitesFrom ⟨.gap, false⟩ l r := by
  obtain ⟨white, newline, slash, end_mark, quote, mark⟩ := h.character
  have stops : Stops c r := ⟨white, newline, fun h => absurd h slash⟩
  have events : Spot.eventsAt ⟨.gap, false⟩ c r = [.token (c :: r)] := by
    rw [eventsAt_gap stops, if_pos mark]
  have stays : Spot.step ⟨.gap, false⟩ c = ⟨.gap, false⟩ := by cases h <;> rfl
  rw [sitesFrom_cons _ end_mark, events, stays, lineAfter_of_ne newline]
  rfl

theorem sitesFrom_invalid {c : Char} {r : Text} (stops : Stops c r) (end_mark : c ≠ nul) (quote : c ≠ '"')
    (mark : ∀ token, ¬ Mark c token) (l : Nat) :
    sitesFrom ⟨.gap, false⟩ l (c :: r) =
      ⟨l, .token (c :: r)⟩ :: ⟨l, .problem (.invalidCharacter c)⟩ ::
        sitesFrom ⟨.gap, false⟩ l (r.dropWhile fun d => d ≠ '\n' ∧ d ≠ nul) := by
  have opens : c ≠ '{' := by
    rintro rfl
    exact mark _ .openBrace
  have closes : c ≠ '}' := by
    rintro rfl
    exact mark _ .closeBrace
  have comma : c ≠ ',' := by
    rintro rfl
    exact mark _ .comma
  have events : Spot.eventsAt ⟨.gap, false⟩ c r = [.token (c :: r), .problem (.invalidCharacter c)] := by
    simp [eventsAt_gap stops, opens, closes, comma, quote]
  rw [sitesFrom_cons _ end_mark, events, lineAfter_of_ne stops.newline]
  by_cases slash : c = '/'
  · subst c
    have lone : IsLone '/' r := stops.lone
    have leads : Spot.step ⟨.gap, false⟩ '/' = ⟨.slash, false⟩ := rfl
    rw [leads, sitesFrom_slash lone, sitesFrom_spoiled]
    rfl
  · obtain ⟨blank, tab, return_mark⟩ : c ≠ ' ' ∧ c ≠ '\t' ∧ c ≠ '\r' := by
      simpa [IsWhite] using stops.white
    have spoils : Spot.step ⟨.gap, false⟩ c = ⟨.spoiled, false⟩ := by
      simp [Spot.step, Mode.step, end_mark, opens, closes, comma, blank, tab, return_mark, stops.newline,
        slash, quote]
    rw [spoils, sitesFrom_spoiled]
    rfl

/-- What reading of a lexeme finds: its start, the problems in front of it and those in it. -/
def FindsLexeme (found : List (Located Event)) (x : Lexeme) (behind : List (Located Event)) : Prop :=
  ∃ before inside rest, x.problems = before ++ inside ∧ Begins x.token rest ∧
    found = before.map problemAt ++ ⟨x.line, .token rest⟩ :: (inside.map problemAt ++ behind)

theorem sitesFrom_nextLexeme (l : Nat) (t : Text) :
    FindsLexeme (sitesFrom .start l t) (nextLexeme l t).lexeme
      (if (nextLexeme l t).lexeme.token = .finish then []
        else sitesFrom .start (nextLexeme l t).line (nextLexeme l t).rest) := by
  have skipped := sitesFrom_skipGap .space false l t
  have stops {c : Char} {r : Text} := stops_behind_gap (g := .space) (l := l) (t := t) (c := c) (r := r)
  have behind := nextLexeme_behind l t
  generalize nextLexeme l t = x at behind ⊢
  generalize skipGap .space l t = gap at skipped stops behind
  cases behind with
  | finish ends =>
    have ends : IsEnd gap.rest := ends
    rw [sitesFrom_ends ends (by decide) (by decide)] at skipped
    exact ⟨gap.problems, [], gap.rest, (List.append_nil _).symm, ends, skipped⟩
  | @mark c token r hr mark =>
    rw [hr, sitesFrom_mark mark] at skipped
    have begins : Begins token (c :: r) := by cases mark <;> rfl
    have goes_on : token ≠ .finish := by cases mark <;> simp
    refine ⟨gap.problems, [], c :: r, (List.append_nil _).symm, begins, ?_⟩
    rw [if_neg goes_on]
    exact skipped
  | @string r token hr htoken =>
    rw [hr, sitesFrom_quote, sitesFrom_readLiterals] at skipped
    have begins : Begins token ('"' :: r) := by
      rw [htoken]
      split
      · rfl
      · exact fun ends => absurd (ends '"' r rfl) (by decide)
    have goes_on : token ≠ .finish := by
      rw [htoken]
      split
      · simp
      · simp
    refine ⟨gap.problems, (readLiterals gap.line r).problems, '"' :: r, rfl, begins, ?_⟩
    rw [if_neg goes_on]
    exact skipped
  | @invalid c r hr end_mark quote mark =>
    rw [hr, sitesFrom_invalid (stops hr end_mark) end_mark quote mark] at skipped
    exact ⟨gap.problems, [⟨gap.line, .invalidCharacter c⟩], c :: r, rfl, fun ends => end_mark (ends c r rfl),
      skipped⟩

/-! ### All lexemes -/

def Event.problem? : Event → Option LexicalProblem
  | problem p => some p
  | token _ => none

def Event.token? : Event → Option Text
  | problem _ => none
  | token rest => some rest

/-- The problems among what was found. -/
def problemsIn (found : List (Located Event)) : List (Located LexicalProblem) :=
  found.filterMap fun e => e.value.problem?.map fun p => ⟨e.line, p⟩

/-- The tokens among what was found, each with the text that starts with it. -/
def startsIn (found : List (Located Event)) : List (Located Text) :=
  found.filterMap fun e => e.value.token?.map fun rest => ⟨e.line, rest⟩

theorem problemsIn_append (a b : List (Located Event)) :
    problemsIn (a ++ b) = problemsIn a ++ problemsIn b := List.filterMap_append

theorem startsIn_append (a b : List (Located Event)) : startsIn (a ++ b) = startsIn a ++ startsIn b :=
  List.filterMap_append

theorem problemsIn_token (l : Nat) (rest : Text) (found : List (Located Event)) :
    problemsIn (⟨l, .token rest⟩ :: found) = problemsIn found := rfl

theorem startsIn_token (l : Nat) (rest : Text) (found : List (Located Event)) :
    startsIn (⟨l, .token rest⟩ :: found) = ⟨l, rest⟩ :: startsIn found := rfl

theorem problemsIn_problems (ps : List (Located LexicalProblem)) : problemsIn (ps.map problemAt) = ps := by
  induction ps with
  | nil => rfl
  | cons p ps ih => exact congrArg (List.cons p) ih

theorem startsIn_problems (ps : List (Located LexicalProblem)) : startsIn (ps.map problemAt) = [] := by
  induction ps with
  | nil => rfl
  | cons p ps ih => exact ih

theorem FindsLexeme.problems {found behind : List (Located Event)} {x : Lexeme}
    (h : FindsLexeme found x behind) : problemsIn found = x.problems ++ problemsIn behind := by
  obtain ⟨before, inside, rest, split, -, rfl⟩ := h
  rw [problemsIn_append, problemsIn_token, problemsIn_append, problemsIn_problems, problemsIn_problems,
    split, List.append_assoc]

theorem FindsLexeme.starts {found behind : List (Located Event)} {x : Lexeme}
    (h : FindsLexeme found x behind) :
    ∃ rest, Begins x.token rest ∧ startsIn found = ⟨x.line, rest⟩ :: startsIn behind := by
  obtain ⟨before, inside, rest, -, begins, rfl⟩ := h
  refine ⟨rest, begins, ?_⟩
  rw [startsIn_append, startsIn_token, startsIn_append, startsIn_problems, startsIn_problems]
  rfl

/-- The problems of the lexemes are those of the text, in order and with their lines. -/
theorem problems_lexemes (l : Nat) (t : Text) :
    (lexemes l t).flatMap (·.problems) = problemsIn (sitesFrom .start l t) := by
  have found := sitesFrom_nextLexeme l t
  induction l, t using lexemes.induct with
  | case1 l t next finished =>
    rw [lexemes_of_finish finished, found.problems, if_pos finished, List.flatMap_singleton]
    exact (List.append_nil _).symm
  | case2 l t next goes_on _ ih =>
    rw [lexemes_of_token goes_on, found.problems, if_neg goes_on, List.flatMap_cons]
    rw [ih (sitesFrom_nextLexeme ..)]

/-! ### Places of a text -/

/-- The problems of a text, each with the text in front of it. -/
def problemSites (t : Text) : List (Text × LexicalProblem) :=
  (sites t).filterMap fun site => site.2.problem?.map fun p => (site.1, p)

/-- The tokens of a text, each as the text in front of it and the text that starts with it. -/
def tokenSites (t : Text) : List (Text × Text) :=
  (sites t).filterMap fun site => site.2.token?.map fun rest => (site.1, rest)

/-- A lexeme and the place where it starts. -/
structure StartsAt (place : Located Text) (x : Lexeme) : Prop where
  line : x.line = place.line
  begins : Begins x.token place.value

/-- The lexemes start at the tokens of the text, in order. -/
theorem starts_lexemes (l : Nat) (t : Text) :
    List.Forall₂ StartsAt (startsIn (sitesFrom .start l t)) (lexemes l t) := by
  have found := sitesFrom_nextLexeme l t
  induction l, t using lexemes.induct with
  | case1 l t next finished =>
    obtain ⟨rest, begins, starts⟩ := found.starts
    rw [lexemes_of_finish finished, starts, if_pos finished]
    exact .cons ⟨rfl, begins⟩ .nil
  | case2 l t next goes_on _ ih =>
    obtain ⟨rest, begins, starts⟩ := found.starts
    rw [lexemes_of_token goes_on, starts, if_neg goes_on]
    exact .cons ⟨rfl, begins⟩ (ih (sitesFrom_nextLexeme ..))

theorem problemsIn_sites (t : Text) :
    problemsIn (sitesFrom .start 1 t) = (problemSites t).map fun s => ⟨lineBehind s.1, s.2⟩ := by
  rw [← sites_located, problemsIn, List.filterMap_map, problemSites, List.map_filterMap]
  simp [Function.comp_def]

theorem startsIn_sites (t : Text) :
    startsIn (sitesFrom .start 1 t) = (tokenSites t).map fun s => ⟨lineBehind s.1, s.2⟩ := by
  rw [← sites_located, startsIn, List.filterMap_map, tokenSites, List.map_filterMap]
  simp [Function.comp_def]

/-- Something is found in front of a character of the input, or where the input ends. -/
theorem Spot.mem_events {s : Spot} {t : Text} {e : Event} (h : e ∈ s.events t) :
    (∃ c r, t = c :: r ∧ e ∈ s.eventsAt c r) ∨ (IsEnd t ∧ (e ∈ s.mode.unfinished ∨ e = .token t)) := by
  have ends {u : Text} (h : e ∈ s.mode.unfinished ++ [.token u]) : e ∈ s.mode.unfinished ∨ e = .token u := by
    rcases List.mem_append.mp h with h | h
    · exact .inl h
    · exact .inr (List.mem_singleton.mp h)
  cases t with
  | nil =>
    rw [events] at h
    split at h
    · cases h
    · exact .inr ⟨isEnd_nil, ends h⟩
  | cons c r =>
    rw [events] at h
    split at h
    · exact .inl ⟨c, r, rfl, h⟩
    · rename_i end_mark
      obtain rfl : c = nul := not_not.mp end_mark
      split at h
      · cases h
      · exact .inr ⟨isEnd_nul r, ends h⟩

theorem Mode.not_token_of_mem {m : Mode} {rest : Text} : .token rest ∉ m.unfinished := by
  cases m <;> simp [unfinished]

theorem Spot.token_of_mem_eventsAt {s : Spot} {c : Char} {r rest : Text} (h : .token rest ∈ s.eventsAt c r) :
    rest = c :: r := by
  rw [eventsAt] at h
  split at h
  · split at h
    · simp at h
    · split at h
      · simpa using h
      · cases h
  · split at h
    · cases h
    · simp at h
  · split at h
    · cases h
    · split at h
      · simpa using h
      · simpa using h
  · cases h

/-- A token is found with the text behind its place. -/
theorem Spot.token_of_mem {s : Spot} {t rest : Text} (h : .token rest ∈ s.events t) : rest = t := by
  rcases mem_events h with ⟨c, r, rfl, here⟩ | ⟨-, unfinished | token⟩
  · exact token_of_mem_eventsAt here
  · exact absurd unfinished Mode.not_token_of_mem
  · exact Event.token.inj token

/-- What stands where a problem is. -/
def Shows : LexicalProblem → Text → Prop
  | .unclosedComment, t => IsEnd t
  | .unterminatedString, t => IsEnd t ∨ t.head? = some '\n' ∨ ∃ r, t = '\\' :: r ∧ IsEnd r
  | .unknownEscape c, t => t.head? = some c
  | .invalidCharacter c, t => t.head? = some c

theorem Mode.shows_of_mem {m : Mode} {p : LexicalProblem} {t : Text} (h : .problem p ∈ m.unfinished)
    (ends : IsEnd t) : Shows p t := by
  cases m with
  | string =>
    cases List.mem_singleton.mp h
    exact .inl ends
  | blockComment | star =>
    cases List.mem_singleton.mp h
    exact ends
  | gap | slash | lineComment | escape | spoiled | ended => cases h

theorem Spot.shows_of_mem_eventsAt {s : Spot} {c : Char} {r : Text} {p : LexicalProblem}
    (h : .problem p ∈ s.eventsAt c r) : Shows p (c :: r) := by
  rw [eventsAt] at h
  split at h
  · split at h
    · rename_i newline
      cases List.mem_singleton.mp h
      exact .inr (.inl (congrArg some newline))
    · split at h
      · rename_i last
        obtain ⟨rfl, ends⟩ := last
        rcases List.mem_cons.mp h with h | h
        · cases h
          exact .inr (.inr ⟨r, rfl, ends⟩)
        · obtain rfl : p = .invalidCharacter '\\' := by simpa using h
          rfl
      · cases h
  · split at h
    · cases h
    · cases List.mem_singleton.mp h
      rfl
  · split at h
    · cases h
    · split at h
      · simp at h
      · obtain rfl : p = .invalidCharacter c := by simpa using h
        rfl
  · cases h

theorem Spot.shows_of_mem {s : Spot} {t : Text} {p : LexicalProblem} (h : .problem p ∈ s.events t) :
    Shows p t := by
  rcases mem_events h with ⟨c, r, rfl, here⟩ | ⟨ends, unfinished | token⟩
  · exact shows_of_mem_eventsAt here
  · exact Mode.shows_of_mem unfinished ends
  · cases token

theorem mem_sites_iff {t before : Text} {e : Event} :
    (before, e) ∈ sites t ↔ ∃ rest, before ++ rest = t ∧ e ∈ (Spot.behind before).events rest := by
  rw [sites, List.mem_flatMap]
  constructor
  · rintro ⟨⟨b, r⟩, cut, here⟩
    obtain ⟨d, event, same⟩ := List.mem_map.mp here
    obtain ⟨rfl, rfl⟩ := Prod.mk.inj same
    exact ⟨r, mem_cuts_iff.mp cut, event⟩
  · rintro ⟨r, whole, event⟩
    exact ⟨(before, r), mem_cuts_iff.mpr whole, List.mem_map.mpr ⟨e, event, rfl⟩⟩

theorem tokenSites_append {t before rest : Text} (h : (before, rest) ∈ tokenSites t) :
    before ++ rest = t := by
  obtain ⟨⟨b, e⟩, found, same⟩ := List.mem_filterMap.mp h
  obtain ⟨u, token, same⟩ := Option.map_eq_some_iff.mp same
  obtain ⟨rfl, rfl⟩ := Prod.mk.inj same
  obtain ⟨r, whole, event⟩ := mem_sites_iff.mp found
  cases e with
  | problem p => cases token
  | token v =>
    obtain rfl : v = u := Option.some.inj token
    rw [Spot.token_of_mem event]
    exact whole

theorem problemSites_shows {t : Text} {s : Text × LexicalProblem} (h : s ∈ problemSites t) :
    ∃ rest, s.1 ++ rest = t ∧ Shows s.2 rest := by
  obtain ⟨⟨b, e⟩, found, same⟩ := List.mem_filterMap.mp h
  obtain ⟨p, problem, rfl⟩ := Option.map_eq_some_iff.mp same
  obtain ⟨r, whole, event⟩ := mem_sites_iff.mp found
  cases e with
  | token v => cases problem
  | problem q =>
    obtain rfl : q = p := Option.some.inj problem
    exact ⟨r, whole, Spot.shows_of_mem event⟩

end DriveHealth.Database
