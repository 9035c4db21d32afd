import DriveHealth.Regex.Compiled
import DriveHealth.Proofs.Regex.Reading
import Mathlib.Tactic.SplitIfs

/-! The scan for portability against the reading of a pattern. The scan ends a bracket expression at the
first `]` behind its first place, also where that `]` belongs to a named element, and reads what is
left of the expression like the rest of the pattern. It is exact for patterns in which that makes
no difference. -/
namespace DriveHealth.Regex

namespace Symbol

/-- The number of open groups behind a symbol. -/
def groups (n : Nat) : Symbol → Nat
  | plain '(' => n + 1
  | plain ')' => n - 1
  | _ => n

theorem groups_plain (n : Nat) (c : Char) :
    (plain c).groups n = if c = '(' then n + 1 else if c = ')' then n - 1 else n := by
  simp only [groups]
  split <;> simp_all

theorem groups_other {s : Symbol} (other : ∀ c, s ≠ plain c) (n : Nat) : s.groups n = n := by
  cases s with
  | plain c => exact absurd rfl (other c)
  | escaped c => rfl
  | bracket b => rfl

/-- Behind these a branch starts. -/
def StartsBranch (s : Symbol) : Prop := s = plain '(' ∨ s = plain '|' ∨ s = plain '^'

/-- In front of these a branch ends. -/
def EndsBranch (s : Symbol) : Prop := s = plain '|' ∨ s = plain ')' ∨ s = plain '$'

end Symbol

/-- The number of open groups behind symbols, with `n` open in front of them. -/
def groupsBehind (n : Nat) (ss : List Symbol) : Nat := ss.foldl Symbol.groups n

/-- With `n` groups open in front of them, the symbols have a `)` without an open `(` before it. -/
def HasUnopened (n : Nat) (ss : List Symbol) : Prop :=
  ∃ before after, ss = before ++ .plain ')' :: after ∧ groupsBehind n before = 0

/-- The branch between a symbol and what follows it is empty. -/
def EmptyBehind (s : Symbol) : Option Symbol → Prop
  | none => s = .plain '|'
  | some u => s.StartsBranch ∧ u = .plain '|' ∨ s = .plain '|' ∧ u.EndsBranch

theorem EmptyBehind.plain {s : Symbol} {next : Option Symbol} (h : EmptyBehind s next) :
    ∃ c, s = .plain c := by
  cases next with
  | none => exact ⟨'|', h⟩
  | some u =>
    rcases h with ⟨rfl | rfl | rfl, -⟩ | ⟨rfl, -⟩
    all_goals exact ⟨_, rfl⟩

/-- A `|` stands last, or behind `(`, `|` or `^`, or in front of `|`, `)` or `$`. -/
def HasEmptyInside (ss : List Symbol) : Prop :=
  ss.getLast? = some (.plain '|') ∨ ∃ s u, [s, u] <:+: ss ∧ EmptyBehind s (some u)

/-- A `|` stands first or last or next to a character that leaves a branch empty. -/
def HasEmptyBranch (ss : List Symbol) : Prop := ss.head? = some (.plain '|') ∨ HasEmptyInside ss

theorem hasUnopened_cons {n : Nat} {s : Symbol} {ss : List Symbol} :
    HasUnopened n (s :: ss) ↔ s = .plain ')' ∧ n = 0 ∨ HasUnopened (s.groups n) ss := by
  constructor
  · rintro ⟨before, after, same, closed⟩
    cases before with
    | nil =>
      cases same
      exact .inl ⟨rfl, closed⟩
    | cons u before =>
      cases same
      exact .inr ⟨before, after, rfl, closed⟩
  · rintro (⟨rfl, rfl⟩ | ⟨before, after, rfl, closed⟩)
    · exact ⟨[], ss, rfl, rfl⟩
    · exact ⟨s :: before, after, rfl, closed⟩

theorem hasEmptyInside_cons {s : Symbol} {ss : List Symbol} :
    HasEmptyInside (s :: ss) ↔ EmptyBehind s ss.head? ∨ HasEmptyInside ss := by
  cases ss with
  | nil => simp [HasEmptyInside, EmptyBehind, List.infix_cons_iff]
  | cons u ss =>
    have neighbours : (∃ x y, [x, y] <:+: s :: u :: ss ∧ EmptyBehind x (some y)) ↔
        EmptyBehind s (some u) ∨ ∃ x y, [x, y] <:+: u :: ss ∧ EmptyBehind x (some y) := by
      constructor
      · rintro ⟨x, y, inside, empty⟩
        rcases List.infix_cons_iff.mp inside with front | inside
        · obtain ⟨rfl, behind⟩ := List.cons_prefix_cons.mp front
          obtain ⟨rfl, -⟩ := List.cons_prefix_cons.mp behind
          exact .inl empty
        · exact .inr ⟨x, y, inside, empty⟩
      · rintro (empty | ⟨x, y, inside, empty⟩)
        · exact ⟨s, u, ⟨[], ss, rfl⟩, empty⟩
        · exact ⟨x, y, List.infix_cons_iff.mpr (.inr inside), empty⟩
    rw [HasEmptyInside, neighbours, HasEmptyInside, List.getLast?_cons_cons, List.head?_cons]
    exact or_left_comm

/-! ### The scan, symbol by symbol -/

namespace Portability

/-- Bracket expressions as the scan delimits them. -/
inductive IsScannedBracket : Text → Prop where
  | plain {c body} : c ≠ '^' → ']' ∉ body → IsScannedBracket ('[' :: c :: (body ++ [']']))
  | negated {c body} : ']' ∉ body → IsScannedBracket ('[' :: '^' :: c :: (body ++ [']']))

theorem IsScannedBracket.head {b : Text} (h : IsScannedBracket b) : b.head? = some '[' := by
  cases h <;> rfl

/-- The scan gets over the text as over a single symbol. -/
def IsPassed (b : Text) : Prop := ∀ depth t, scan .inside depth (b ++ t) = scan .inside depth t

theorem scan_body {body : Text} (inside : ']' ∉ body) (depth : Nat) (t : Text) :
    scan .bracket depth (body ++ ']' :: t) = scan .inside depth t := by
  induction body with
  | nil => rfl
  | cons c body ih =>
    have goes_on : c ≠ ']' := fun h => inside (h ▸ List.mem_cons_self)
    have rest : ']' ∉ body := fun h => inside (List.mem_cons_of_mem c h)
    rw [List.cons_append, scan, if_neg goes_on]
    exact ih rest

theorem IsScannedBracket.isPassed {b : Text} (h : IsScannedBracket b) : IsPassed b := by
  intro depth t
  cases h with
  | @plain c body caret inside =>
    have opens : scan .inside depth ('[' :: c :: (body ++ ']' :: t)) =
        scan .bracket depth (body ++ ']' :: t) := by
      simp [scan, caret]
    simpa [opens] using scan_body inside depth t
  | negated inside => simpa [scan] using scan_body inside depth t

theorem scan_escaped (depth : Nat) (c : Char) (t : Text) :
    scan .inside depth ('\\' :: c :: t) = scan .inside depth t := by
  simp [scan]

theorem scan_start (depth : Nat) (t : Text) :
    scan .start depth t =
      if t.head? = some '|' then some .emptyAlternative else scan .inside depth t := by
  split
  · rename_i bar
    obtain ⟨r, rfl⟩ := List.head?_eq_some_iff.mp bar
    simp [scan]
  · rename_i bar
    unfold scan
    split <;> simp_all

/-- A character with the one behind it leaves a branch empty. -/
def LeavesEmpty (c : Char) (next : Option Char) : Prop :=
  c = '|' ∧ (∀ d ∈ next, d = '|' ∨ d = ')' ∨ d = '$') ∨ (c = '(' ∨ c = '^') ∧ next = some '|'

/-- The scan at a character that is neither a backslash nor a `[`: it finds something or goes on. -/
theorem scan_plain {c : Char} (escape : c ≠ '\\') (opens : c ≠ '[') (depth : Nat) (t : Text) :
    c = ')' ∧ depth = 0 ∧ scan .inside depth (c :: t) = some .unmatchedClose ∨
      LeavesEmpty c t.head? ∧ scan .inside depth (c :: t) = some .emptyAlternative ∨
      ¬ (c = ')' ∧ depth = 0) ∧ ¬ LeavesEmpty c t.head? ∧
        scan .inside depth (c :: t) = scan .inside ((Symbol.plain c).groups depth) t := by
  rw [Symbol.groups_plain, scan]
  · unfold LeavesEmpty
    split_ifs <;> simp_all [Option.all_eq_true, or_assoc]
  all_goals simp [escape, opens]

/-- What the scan says about symbols with `depth` groups open in front of them. -/
inductive Finds (depth : Nat) (ss : List Symbol) : Option Problem → Prop where
  | nothing : ¬ HasUnopened depth ss → ¬ HasEmptyInside ss → Finds depth ss none
  | unopened : HasUnopened depth ss → Finds depth ss (some .unmatchedClose)
  | empty : HasEmptyInside ss → Finds depth ss (some .emptyAlternative)

theorem Finds.nil (depth : Nat) : Finds depth [] none := by
  refine .nothing ?_ ?_
  · rintro ⟨before, after, same, -⟩
    cases before <;> cases same
  · rintro (last | ⟨s, u, inside, -⟩)
    · cases last
    · cases List.infix_nil.mp inside

theorem Finds.cons {depth : Nat} {s : Symbol} {ss : List Symbol} {found : Option Problem}
    (h : Finds (s.groups depth) ss found) (opened : ¬ (s = .plain ')' ∧ depth = 0))
    (full : ¬ EmptyBehind s ss.head?) : Finds depth (s :: ss) found := by
  have unopened_iff : HasUnopened depth (s :: ss) ↔ HasUnopened (s.groups depth) ss := by
    rw [hasUnopened_cons, or_iff_right opened]
  have empty_iff : HasEmptyInside (s :: ss) ↔ HasEmptyInside ss := by
    rw [hasEmptyInside_cons, or_iff_right full]
  cases h with
  | nothing opened full => exact .nothing (opened ∘ unopened_iff.mp) (full ∘ empty_iff.mp)
  | unopened h => exact .unopened (unopened_iff.mpr h)
  | empty h => exact .empty (empty_iff.mpr h)

/-- A symbol without a meaning of its own changes nothing. -/
theorem Finds.cons_other {depth : Nat} {s : Symbol} {ss : List Symbol} {found : Option Problem}
    (h : Finds depth ss found) (other : ∀ c, s ≠ .plain c) : Finds depth (s :: ss) found := by
  refine Finds.cons ((Symbol.groups_other other depth).symm ▸ h) (fun closes => other _ closes.1) fun empty => ?_
  obtain ⟨c, plain⟩ := empty.plain
  exact other c plain

theorem leavesEmpty_iff (c : Char) (next : Option Symbol) :
    LeavesEmpty c (next.map Symbol.head) ↔ EmptyBehind (.plain c) next := by
  cases next with
  | none => simp [LeavesEmpty, EmptyBehind]
  | some s =>
    cases s <;> simp [LeavesEmpty, EmptyBehind, Symbol.StartsBranch, Symbol.EndsBranch, Symbol.head]
    grind

/-- The scan finds what is in the symbols if it gets over every bracket expression. -/
theorem scan_finds {t : Text} {ss : List Symbol} (reads : Reads IsPosixBracket t ss)
    (passed : ∀ b, .bracket b ∈ ss → IsPassed b) (depth : Nat) :
    Finds depth ss (scan .inside depth t) := by
  induction reads generalizing depth with
  | nil => exact .nil depth
  | @plain c t ss escape opens reads ih =>
    have behind := leavesEmpty_iff c ss.head?
    rw [← reads.head fun b => IsPosixBracket.head] at behind
    rcases scan_plain escape opens depth t with ⟨rfl, rfl, found⟩ | ⟨empty, found⟩ | ⟨opened, full, on⟩
    · rw [found]
      exact .unopened (hasUnopened_cons.mpr (.inl ⟨rfl, rfl⟩))
    · rw [found]
      exact .empty (hasEmptyInside_cons.mpr (.inl (behind.mp empty)))
    · rw [on]
      have rest := ih (fun b hb => passed b (List.mem_cons_of_mem _ hb)) ((Symbol.plain c).groups depth)
      exact rest.cons (by simpa using opened) (fun empty => full (behind.mpr empty))
  | @escaped t ss c reads ih =>
    rw [scan_escaped]
    exact (ih (fun b hb => passed b (List.mem_cons_of_mem _ hb)) depth).cons_other nofun
  | @bracket b t ss hb reads ih =>
    rw [passed b List.mem_cons_self]
    exact (ih (fun b hb => passed b (List.mem_cons_of_mem _ hb)) depth).cons_other nofun

theorem LeavesEmpty.startsBranch {c : Char} {next : Option Char} (h : LeavesEmpty c next) :
    (Symbol.plain c).StartsBranch := by
  rcases h with ⟨rfl, -⟩ | ⟨rfl | rfl, -⟩
  · exact .inr (.inl rfl)
  · exact .inl rfl
  · exact .inr (.inr rfl)

/-! ### Bracket expressions that the scan gets over -/

/-- With `n` groups open in front of them, there is nothing to find in the symbols, whatever follows. -/
structure IsQuiet (n : Nat) (ss : List Symbol) : Prop where
  opened : ¬ HasUnopened n ss
  full : ¬ HasEmptyInside ss
  last : ∀ s ∈ ss.getLast?, ¬ s.StartsBranch

theorem IsQuiet.tail {n : Nat} {s : Symbol} {ss : List Symbol} (h : IsQuiet n (s :: ss)) :
    IsQuiet (s.groups n) ss where
  opened := fun opened => h.opened (hasUnopened_cons.mpr (.inr opened))
  full := fun empty => h.full (hasEmptyInside_cons.mpr (.inr empty))
  last := fun u hu => h.last u (by rw [List.getLast?_cons, hu]; rfl)

/-- A quiet text is passed over, with as many groups open behind it as its symbols leave open. -/
theorem scan_append {u : Text} {ss : List Symbol} (reads : Reads IsScannedBracket u ss) {n : Nat}
    (quiet : IsQuiet n ss) (outer : Nat) (t : Text) :
    scan .inside (outer + n) (u ++ t) = scan .inside (outer + groupsBehind n ss) t := by
  induction reads generalizing n with
  | nil => rfl
  | @plain c u ss escape opens reads ih =>
    have opened : ¬ (c = ')' ∧ n = 0) := fun ⟨closes, outside⟩ =>
      quiet.opened (hasUnopened_cons.mpr (.inl ⟨congrArg _ closes, outside⟩))
    have groups : (Symbol.plain c).groups (outer + n) = outer + (Symbol.plain c).groups n := by
      rw [Symbol.groups_plain, Symbol.groups_plain]
      split_ifs <;> grind
    have full : ¬ LeavesEmpty c (u ++ t).head? := by
      intro empty
      have head : u.head? = ss.head?.map Symbol.head := reads.head fun b => IsScannedBracket.head
      cases ss with
      | nil => exact quiet.last _ rfl empty.startsBranch
      | cons s ss =>
        rw [List.head?_append, head, List.head?_cons, Option.map_some, Option.some_or] at empty
        have behind := (leavesEmpty_iff c (some s)).mp empty
        exact quiet.full (hasEmptyInside_cons.mpr (.inl behind))
    rcases scan_plain escape opens (outer + n) (u ++ t) with ⟨closes, none, -⟩ | ⟨empty, -⟩ | ⟨-, -, on⟩
    · exact absurd ⟨closes, by omega⟩ opened
    · exact absurd empty full
    · rw [List.cons_append, on, groups]
      exact ih quiet.tail
  | @escaped u ss c reads ih =>
    rw [List.cons_append, List.cons_append, scan_escaped]
    exact ih quiet.tail
  | @bracket b u ss hb reads ih =>
    rw [List.append_assoc, hb.isPassed]
    exact ih quiet.tail

/-- The scan reads a bracket expression as symbols among which there is nothing to find and which leave
no group open. -/
def IsHarmless (b : Text) : Prop :=
  ∃ ss, Reads IsScannedBracket b ss ∧ IsQuiet 0 ss ∧ groupsBehind 0 ss = 0

theorem IsHarmless.isPassed {b : Text} (h : IsHarmless b) : IsPassed b := by
  obtain ⟨ss, reads, quiet, closed⟩ := h
  intro depth t
  have passed := scan_append reads quiet depth t
  rwa [closed] at passed

/-- Not one of the characters that open or close a group or separate branches. -/
def IsOrdinary (s : Symbol) : Prop := s ≠ .plain '(' ∧ s ≠ .plain ')' ∧ s ≠ .plain '|'

theorem isQuiet_of_ordinary {n : Nat} {ss : List Symbol} (ordinary : ∀ s ∈ ss, IsOrdinary s)
    (last : ∀ s ∈ ss.getLast?, ¬ s.StartsBranch) : IsQuiet n ss where
  opened := by
    rintro ⟨before, after, rfl, -⟩
    exact (ordinary _ (by simp)).2.1 rfl
  full := by
    have no_bar (h : Symbol.plain '|' ∈ ss) : False := (ordinary _ h).2.2 rfl
    rintro (bar | ⟨s, u, inside, ⟨-, rfl⟩ | ⟨rfl, -⟩⟩)
    · exact no_bar (List.mem_of_getLast? bar)
    · exact no_bar (inside.subset (by simp))
    · exact no_bar (inside.subset (by simp))
  last := last

theorem groupsBehind_of_ordinary {ss : List Symbol} (ordinary : ∀ s ∈ ss, IsOrdinary s) (n : Nat) :
    groupsBehind n ss = n := by
  induction ss with
  | nil => rfl
  | cons s ss ih =>
    obtain ⟨first, rest⟩ := List.forall_mem_cons.mp ordinary
    have groups : s.groups n = n := by
      cases s with
      | plain c =>
        rw [Symbol.groups_plain, if_neg fun h => first.1 (congrArg _ h),
          if_neg fun h => first.2.1 (congrArg _ h)]
      | escaped c => rfl
      | bracket b => rfl
    rw [groupsBehind, List.foldl_cons, groups]
    exact ih rest

/-- The end of a bracket expression in which the scan, reading it like the rest of the pattern, meets
nothing but ordinary characters and named elements that end at their first `]`. -/
inductive IsTame : Text → Prop where
  | close : IsTame [']']
  | literal {c rest} : c ∉ ['\\', '[', ']', '(', ')', '|'] → IsTame rest → IsTame (c :: rest)
  | element {mark name rest} : IsMark mark → ']' ∉ name → IsTame rest →
      IsTame ('[' :: mark :: (name ++ mark :: ']' :: rest))

theorem IsTame.reads {t : Text} (h : IsTame t) :
    ∃ ss, Reads IsScannedBracket t ss ∧ (∀ s ∈ ss, IsOrdinary s) ∧
      ss.getLast? = some (.plain ']') := by
  have further (s : Symbol) {ss : List Symbol} (last : ss.getLast? = some (.plain ']')) :
      (s :: ss).getLast? = some (.plain ']') := by
    rw [List.getLast?_cons, last]
    rfl
  induction h with
  | close => exact ⟨_, .plain (by decide) (by decide) .nil, by simp [IsOrdinary], rfl⟩
  | @literal c rest own _ ih =>
    obtain ⟨ss, reads, ordinary, last⟩ := ih
    have ordinary_c : IsOrdinary (.plain c) := by
      simp_all [IsOrdinary]
    exact ⟨_, .plain (by simp_all) (by simp_all) reads, List.forall_mem_cons.mpr ⟨ordinary_c, ordinary⟩,
      further _ last⟩
  | @element mark name rest isMark inside _ ih =>
    obtain ⟨ss, reads, ordinary, last⟩ := ih
    have caret : mark ≠ '^' := by rcases isMark with rfl | rfl | rfl <;> decide
    have closes : mark ≠ ']' := by rcases isMark with rfl | rfl | rfl <;> decide
    have scanned : IsScannedBracket ('[' :: mark :: ((name ++ [mark]) ++ [']'])) :=
      .plain caret (by simp [inside, closes.symm])
    have all_reads := Reads.bracket scanned reads
    refine ⟨_, by simpa using all_reads, List.forall_mem_cons.mpr ⟨?_, ordinary⟩, further _ last⟩
    exact ⟨nofun, nofun, nofun⟩

theorem isHarmless_of_isTame {b t : Text} (h : IsScannedBracket b) (tame : IsTame t) :
    IsHarmless (b ++ t) := by
  obtain ⟨ss, reads, ordinary, last⟩ := tame.reads
  have all : ∀ s ∈ .bracket b :: ss, IsOrdinary s :=
    List.forall_mem_cons.mpr ⟨⟨nofun, nofun, nofun⟩, ordinary⟩
  refine ⟨_, .bracket h reads, isQuiet_of_ordinary all fun s hs => ?_, groupsBehind_of_ordinary all 0⟩
  rw [List.getLast?_cons, last] at hs
  cases hs
  simp [Symbol.StartsBranch]

/-- Some named element stands in the bracket expression. -/
def HasElement (b : Text) : Prop := ∃ c, IsMark c ∧ ['[', c] <:+: b.tail

/-- A list without a named element ends at the first `]` that it can end at. -/
theorem list_of_no_element {first : Bool} {t : Text} (h : Listed first t)
    (none : ∀ c, IsMark c → ¬ ['[', c] <:+: t) :
    ∃ front body, t = front ++ (body ++ [']']) ∧ front.length = first.toNat ∧ ']' ∉ body := by
  induction h with
  | close => exact ⟨[], [], rfl, rfl, by simp⟩
  | @piece first t rest piece start _ ih =>
    cases piece with
    | @element mark name rest isMark _ => exact absurd ⟨[], _, rfl⟩ (none mark isMark)
    | @literal c _ _ =>
      have none_rest (d : Char) (isMark : IsMark d) : ¬ ['[', d] <:+: rest :=
        fun inside => none d isMark (List.infix_cons_iff.mpr (.inr inside))
      obtain ⟨front, body, rfl, no_front, inside⟩ := ih none_rest
      obtain rfl := List.length_eq_zero_iff.mp no_front
      cases first with
      | true => exact ⟨[c], body, rfl, rfl, inside⟩
      | false =>
        refine ⟨[], c :: body, rfl, rfl, fun closes => ?_⟩
        rcases List.mem_cons.mp closes with rfl | closes
        · exact Bool.false_ne_true (start rfl)
        · exact inside closes

/-- Without a named element the grammar and the scan end a bracket expression in the same place. -/
theorem isScannedBracket_of_no_element {b : Text} (h : IsPosixBracket b) (none : ¬ HasElement b) :
    IsScannedBracket b := by
  cases h with
  | @plain t caret listed =>
    obtain ⟨front, body, rfl, one, inside⟩ := list_of_no_element listed fun c hc h => none ⟨c, hc, h⟩
    obtain ⟨c, rfl⟩ := List.length_eq_one_iff.mp one
    exact .plain (fun same => caret (congrArg some same)) inside
  | @negated t listed =>
    have none' (c : Char) (hc : IsMark c) (h : ['[', c] <:+: t) : False :=
      none ⟨c, hc, List.infix_cons_iff.mpr (.inr h)⟩
    obtain ⟨front, body, rfl, one, inside⟩ := list_of_no_element listed none'
    obtain ⟨c, rfl⟩ := List.length_eq_one_iff.mp one
    exact .negated inside

end Portability

/-! ### Exactness -/

open Portability

/-- The scan of a whole pattern finds one of two things, or nothing. -/
theorem problem?_cases {source : Text} {ss : List Symbol} (reads : Reads IsPosixBracket source ss)
    (passed : ∀ b, .bracket b ∈ ss → IsPassed b) :
    problem? source = none ∧ ¬ HasUnopened 0 ss ∧ ¬ HasEmptyBranch ss ∨
      problem? source = some .unmatchedClose ∧ HasUnopened 0 ss ∨
      problem? source = some .emptyAlternative ∧ HasEmptyBranch ss := by
  have inside := scan_finds reads passed 0
  have first : source.head? = some '|' ↔ ss.head? = some (.plain '|') := by
    rw [reads.head fun b => IsPosixBracket.head]
    cases ss.head? with
    | none => simp
    | some s => cases s <;> simp [Symbol.head]
  unfold problem?
  rw [scan_start]
  split
  · rename_i bar
    exact .inr (.inr ⟨rfl, .inl (first.mp bar)⟩)
  · rename_i bar
    generalize scan .inside 0 source = found at inside
    cases inside with
    | nothing opened full =>
      refine .inl ⟨rfl, opened, ?_⟩
      rintro (bar' | empty)
      · exact bar (first.mpr bar')
      · exact full empty
    | unopened h => exact .inr (.inl ⟨rfl, h⟩)
    | empty h => exact .inr (.inr ⟨rfl, .inr h⟩)

/-- A pattern that can be parsed has a reading. By it the expression is refused for an unmatched `)` or an
empty alternative exactly if the pattern has one, and is good otherwise, if the scan reads the bracket
expressions with named elements without finding anything in them. -/
theorem portability_check_exact {source : Text} {pattern : Pattern}
    (parsed : Pattern.parse source = .ok pattern) :
    (∃ ss, Reads IsPosixBracket source ss) ∧
      ∀ ss, Reads IsPosixBracket source ss →
        (∀ b, .bracket b ∈ ss → HasElement b → IsHarmless b) →
        let r := RegularExpression.compile source
        (r.message = "Unmatched ')'" ∨ r.message = "Empty '|' subexpression" ↔
          HasUnopened 0 ss ∨ HasEmptyBranch ss) ∧
        (r.message = "Unmatched ')'" → HasUnopened 0 ss) ∧
        (r.message = "Empty '|' subexpression" → HasEmptyBranch ss) ∧
        (r.problem = none ↔ ¬ (HasUnopened 0 ss ∨ HasEmptyBranch ss)) := by
  refine ⟨reads_of_parse parsed, fun ss reads harmless => ?_⟩
  have passed (b : Text) (hb : .bracket b ∈ ss) : IsPassed b := by
    by_cases named : HasElement b
    · exact (harmless b hb named).isPassed
    · exact (isScannedBracket_of_no_element (reads.isBracket hb) named).isPassed
  have distinct : Problem.unmatchedClose.message ≠ Problem.emptyAlternative.message := by decide
  simp only [RegularExpression.compile, parsed]
  rcases problem?_cases reads passed with ⟨found, opened, full⟩ | ⟨found, opened⟩ | ⟨found, empty⟩
  · have good : ¬ (HasUnopened 0 ss ∨ HasEmptyBranch ss) := not_or.mpr ⟨opened, full⟩
    rw [found]
    refine ⟨⟨?_, fun h => absurd h good⟩, nofun, nofun, fun _ => good, fun _ => rfl⟩
    rintro (message | message) <;> cases message
  · rw [found]
    exact ⟨⟨fun _ => .inl opened, fun _ => .inl rfl⟩, fun _ => opened,
      fun message => absurd message distinct, nofun, fun good => absurd (.inl opened) good⟩
  · rw [found]
    exact ⟨⟨fun _ => .inr empty, fun _ => .inr rfl⟩, fun message => absurd message.symm distinct,
      fun _ => empty, nofun, fun good => absurd (.inr empty) good⟩

/-- A named element ends the bracket expression for the scan, which takes the `)` in it for one outside. -/
example : (RegularExpression.compile "[[:alpha:])]").message = "Unmatched ')'" := by decide +kernel

/-- `[[:lower:][:digit:]_]` -/
def wordClass : Text :=
  let lower : Text := ['l', 'o', 'w', 'e', 'r']
  let digit : Text := ['d', 'i', 'g', 'i', 't']
  '[' :: '[' :: ':' :: (lower ++ ':' :: ']' :: '[' :: ':' :: (digit ++ ':' :: ']' :: ['_', ']']))

/-- A `)` behind a bracket expression with named elements is reported. -/
theorem portability_check_exact_wordClass :
    (∃ pattern, Pattern.parse (wordClass ++ [')']) = .ok pattern) ∧ HasElement wordClass ∧
      IsHarmless wordClass ∧ (RegularExpression.compile (wordClass ++ [')'])).problem ≠ none := by
  have good : (Pattern.parse (wordClass ++ [')'])).isOk = true := by decide +kernel
  have colon : IsMark ':' := .inr (.inr rfl)
  have isBracket : IsPosixBracket wordClass :=
    .plain (by decide) (.piece (.element colon (by decide)) (by decide)
      (.piece (.element colon (by decide)) (by decide)
        (.piece (.literal (by decide)) (by decide) .close)))
  have scanned : IsScannedBracket ('[' :: '[' :: ([':', 'l', 'o', 'w', 'e', 'r', ':'] ++ [']'])) :=
    .plain (by decide) (by decide)
  have harmless : IsHarmless wordClass :=
    isHarmless_of_isTame scanned (.element colon (by decide) (.literal (by decide) .close))
  have reads : Reads IsPosixBracket (wordClass ++ [')']) [.bracket wordClass, .plain ')'] :=
    .bracket isBracket (.plain (by decide) (by decide) .nil)
  have only (b : Text) (hb : .bracket b ∈ [Symbol.bracket wordClass, .plain ')']) : IsHarmless b := by
    obtain rfl : b = wordClass := by simpa using hb
    exact harmless
  have unopened : HasUnopened 0 [.bracket wordClass, .plain ')'] := ⟨[.bracket wordClass], [], rfl, rfl⟩
  cases parsed : Pattern.parse (wordClass ++ [')']) with
  | error p =>
    rw [parsed] at good
    cases good
  | ok pattern =>
    obtain ⟨-, -, -, accepted⟩ := (portability_check_exact parsed).2 _ reads fun b hb _ => only b hb
    refine ⟨⟨pattern, rfl⟩, ⟨':', colon, by decide⟩, harmless, fun none => ?_⟩
    exact accepted.mp none (.inl unopened)

end DriveHealth.Regex
