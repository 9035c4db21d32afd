import DriveHealth.CommandLine.Run
import DriveHealth.File.Tree
import Mathlib.Data.List.Basic

/-! Which options a command line sets. Every letter has its own part of the options: the last argument of
a letter decides on it, definitions are collected and styles add up. So the order of different letters
does not matter, and a page together with a model is always wrong use. -/
namespace DriveHealth.CommandLine

/-- The arguments that an option can have. -/
inductive Takes : Char → Text → Prop where
  | database (path) : Takes 'B' path
  | identify (path) : Takes 'i' path
  | model (name) : Takes 'm' name
  | definition {t : Text} : t ≠ "help" → Takes 'v' t
  | brief : Takes 'f' "brief"
  | hex : Takes 'f' "hex"
  | little : Takes 'e' "le"
  | big : Takes 'e' "be"
  | matching : Takes 'P' "show"
  | all : Takes 'P' "showall"
  | nvme : Takes 'd' "nvme"
  | verbosity (level) : Takes 'r' level

/-- An option with its argument if it has one. -/
inductive Group where
  | showAll
  | setting (letter : Char) (argument : Text) (takes : Takes letter argument)

namespace Group

def letter : Group → Char
  | showAll => 'a'
  | setting letter _ _ => letter

def arguments : Group → List Text
  | showAll => [['-', 'a']]
  | setting letter argument _ => [['-', letter], argument]

def argument? (letter : Char) : Group → Option Text
  | showAll => none
  | setting l argument _ => if l = letter then some argument else none

def isShowAll : Group → Bool
  | showAll => true
  | setting _ _ _ => false

theorem argument?_of_ne {letter : Char} {g : Group} (h : g.letter ≠ letter) :
    g.argument? letter = none := by
  cases g with
  | showAll => rfl
  | setting l argument takes => exact if_neg h

end Group

def argumentsOf (gs : List Group) : List Text := gs.flatMap Group.arguments

/-- The arguments that are given to a letter, in their order. -/
def given (letter : Char) (gs : List Group) : List Text := gs.filterMap (·.argument? letter)

theorem given_append (letter : Char) (gs hs : List Group) :
    given letter (gs ++ hs) = given letter gs ++ given letter hs := List.filterMap_append

theorem given_setting (letter l : Char) (argument : Text) (takes : Takes l argument) :
    given letter [.setting l argument takes] = if l = letter then [argument] else [] := by
  by_cases h : l = letter
  · simp [given, Group.argument?, h]
  · simp [given, Group.argument?, h]

/-! ### The options of groups -/

def styleOf (formats : List Text) : TableStyle where
  isBrief := formats.contains "brief"
  hexIds := formats.contains "hex"
  hexValues := formats.contains "hex"

def orderOf (orders : List Text) : ByteOrder :=
  orders.getLast?.elim .host fun t => if t = "be".toList then .big else .little

def listedOf (kinds : List Text) : Option Listed :=
  kinds.getLast?.map fun t => if t = "showall".toList then .all else .matching

def verbosityOf (levels : List Text) : Verbosity :=
  levels.getLast?.elim 0 fun t => (leadingInteger t % 256).toNat.toUInt8

/-- The options that groups stand for, part by part. -/
def Options.ofGroups (gs : List Group) : Options where
  database := (given 'B' gs).getLast?
  identify := (given 'i' gs).getLast?
  model := (given 'm' gs).getLast?
  definitions := given 'v' gs
  style := styleOf (given 'f' gs)
  order := orderOf (given 'e' gs)
  listed := listedOf (given 'P' gs)
  isNvme := !(given 'd' gs).isEmpty
  showAll := gs.any Group.isShowAll
  verbosity := verbosityOf (given 'r' gs)

theorem styleOf_brief (formats : List Text) :
    styleOf (formats ++ ["brief".toList]) = { styleOf formats with isBrief := true } := by
  simp [styleOf]

theorem styleOf_hex (formats : List Text) :
    styleOf (formats ++ ["hex".toList]) =
      { styleOf formats with hexIds := true, hexValues := true } := by
  simp [styleOf]

theorem orderOf_append (orders : List Text) (t : Text) :
    orderOf (orders ++ [t]) = if t = "be".toList then .big else .little := by
  rw [orderOf, List.getLast?_concat, Option.elim_some]

theorem listedOf_append (kinds : List Text) (t : Text) :
    listedOf (kinds ++ [t]) = some (if t = "showall".toList then .all else .matching) := by
  rw [listedOf, List.getLast?_concat, Option.map_some]

theorem verbosityOf_append (levels : List Text) (t : Text) :
    verbosityOf (levels ++ [t]) = (leadingInteger t % 256).toNat.toUInt8 := by
  rw [verbosityOf, List.getLast?_concat, Option.elim_some]

/-- A drive is known by a page and by a model. -/
def Conflict (gs : List Group) : Prop := given 'i' gs ≠ [] ∧ given 'm' gs ≠ []

instance (gs : List Group) : Decidable (Conflict gs) := inferInstanceAs (Decidable (_ ∧ _))

variable {done : List Group} {letter : Char} {argument : Text}

theorem Conflict.append {gs : List Group} (h : Conflict gs) (hs : List Group) :
    Conflict (gs ++ hs) := by
  constructor
  · rw [given_append]
    exact fun none => h.1 (List.append_eq_nil_iff.mp none).1
  · rw [given_append]
    exact fun none => h.2 (List.append_eq_nil_iff.mp none).1

/-! ### One group -/

theorem given_showAll (letter : Char) (gs : List Group) :
    given letter (gs ++ [.showAll]) = given letter gs := by
  rw [given_append]
  exact List.append_nil _

theorem Options.ofGroups_showAll (gs : List Group) :
    Options.ofGroups (gs ++ [.showAll]) = { Options.ofGroups gs with showAll := true } := by
  simp only [Options.ofGroups, given_showAll, List.any_append, List.any_cons, List.any_nil,
    Group.isShowAll, Bool.or_true, Bool.true_or]

theorem Options.ofGroups_setting (takes : Takes letter argument) :
    Options.ofGroups (done ++ [.setting letter argument takes]) =
      { database := (given 'B' done ++ if letter = 'B' then [argument] else []).getLast?
        identify := (given 'i' done ++ if letter = 'i' then [argument] else []).getLast?
        model := (given 'm' done ++ if letter = 'm' then [argument] else []).getLast?
        definitions := given 'v' done ++ if letter = 'v' then [argument] else []
        style := styleOf (given 'f' done ++ if letter = 'f' then [argument] else [])
        order := orderOf (given 'e' done ++ if letter = 'e' then [argument] else [])
        listed := listedOf (given 'P' done ++ if letter = 'P' then [argument] else [])
        isNvme := !(given 'd' done ++ if letter = 'd' then [argument] else []).isEmpty
        showAll := done.any Group.isShowAll
        verbosity := verbosityOf (given 'r' done ++ if letter = 'r' then [argument] else []) } := by
  simp only [Options.ofGroups, given_append, given_setting, List.any_append, List.any_cons,
    List.any_nil, Group.isShowAll, Bool.or_false]

theorem Options.set?_ofGroups (takes : Takes letter argument)
    (free : ¬ Conflict (done ++ [.setting letter argument takes])) :
    (Options.ofGroups done).set? letter argument =
      some (Options.ofGroups (done ++ [.setting letter argument takes])) := by
  rw [Options.ofGroups_setting]
  cases takes with
  | database | definition | nvme => simp [Options.set?, Options.ofGroups]
  | identify path =>
    have none_given : given 'm' done = [] := by
      by_contra model
      apply free
      simp [Conflict, given_append, given_setting, model]
    simp [Options.set?, Options.ofGroups, none_given]
  | model name =>
    have none_given : given 'i' done = [] := by
      by_contra page
      apply free
      simp [Conflict, given_append, given_setting, page]
    simp [Options.set?, Options.ofGroups, none_given]
  | brief =>
    simp only [Options.set?, Options.ofGroups, Char.reduceEq, reduceIte, List.append_nil,
      styleOf_brief]
  | hex =>
    simp only [Options.set?, Options.ofGroups, Char.reduceEq, reduceIte, List.append_nil,
      styleOf_hex]
    rw [if_neg (by decide)]
  | little | big =>
    simp only [Options.set?, Options.ofGroups, Char.reduceEq, reduceIte, List.append_nil,
      orderOf_append]
    rfl
  | matching | all =>
    simp only [Options.set?, Options.ofGroups, Char.reduceEq, reduceIte, List.append_nil,
      listedOf_append]
    rfl
  | verbosity level => simp [Options.set?, Options.ofGroups, verbosityOf_append]

theorem given_push_other {other : Char} (h : letter ≠ other) (takes : Takes letter argument) :
    given other (done ++ [.setting letter argument takes]) = given other done := by
  rw [given_append, given_setting, if_neg h, List.append_nil]

theorem Options.set?_conflict (takes : Takes letter argument) (free : ¬ Conflict done)
    (conflict : Conflict (done ++ [.setting letter argument takes])) :
    (Options.ofGroups done).set? letter argument = none := by
  obtain ⟨page, model⟩ := conflict
  by_cases hi : letter = 'i'
  · subst hi
    rw [given_push_other (by decide)] at model
    simp [Options.set?, Options.ofGroups, model]
  · rw [given_push_other hi] at page
    by_cases hm : letter = 'm'
    · subst hm
      simp [Options.set?, Options.ofGroups, page]
    · rw [given_push_other hm] at model
      exact absurd ⟨page, model⟩ free

/-! ### Parsing -/

theorem Takes.sets (takes : Takes letter argument) :
    letter ≠ 'a' ∧ letter ≠ 'h' ∧ letter ≠ 'V' ∧ (letter = 'v' → argument ≠ "help") := by
  cases takes with
  | definition ne => exact ⟨by decide, by decide, by decide, fun _ => ne⟩
  | _ => exact ⟨by decide, by decide, by decide, fun h => absurd h (by decide)⟩

theorem Options.parse_setting (o : Options) (takes : Takes letter argument) (r : List Text) :
    o.parse (['-', letter] :: argument :: r) =
      (o.set? letter argument).elim .wrongUse fun o' => o'.parse r := by
  obtain ⟨notAll, notHelp, notRelease, notList⟩ := takes.sets
  rw [Options.parse]
  · cases o.set? letter argument with
    | none => rfl
    | some o' => rfl
  · exact notAll
  · exact notHelp
  · exact notRelease
  · exact notList

theorem Options.parse_operands (o : Options) {operands : List Text}
    (plain : ∀ t ∈ operands.head?, t.head? ≠ some '-') : o.parse operands = .run o operands := by
  have noOption (w : Text) (r : List Text) : operands ≠ ('-' :: w) :: r := by
    rintro rfl
    exact plain _ rfl rfl
  rw [Options.parse]
  · exact fun r => noOption ['a'] r
  · exact fun r => noOption ['h'] r
  · exact fun r => noOption ['V'] r
  · exact fun r => noOption ['v'] _
  · exact fun letter argument r => noOption [letter] _
  · exact fun w r => noOption w r

theorem argumentsOf_cons (g : Group) (gs : List Group) :
    argumentsOf (g :: gs) = g.arguments ++ argumentsOf gs := List.flatMap_cons

/-- Parsing goes group by group; what is done so far is in the options. -/
theorem Options.parse_groups {operands : List Text}
    (plain : ∀ t ∈ operands.head?, t.head? ≠ some '-') (done rest : List Group)
    (free : ¬ Conflict done) :
    (Options.ofGroups done).parse (argumentsOf rest ++ operands) =
      if Conflict (done ++ rest) then .wrongUse else .run (.ofGroups (done ++ rest)) operands := by
  induction rest generalizing done with
  | nil =>
    rw [List.append_nil, if_neg free]
    exact parse_operands _ plain
  | cons g rest ih =>
    rw [argumentsOf_cons, List.append_assoc, List.append_cons done g rest]
    cases g with
    | showAll =>
      have still : ¬ Conflict (done ++ [.showAll]) := by
        rwa [Conflict, given_showAll, given_showAll]
      rw [← ih _ still, Options.ofGroups_showAll]
      rfl
    | setting letter argument takes =>
      refine (Options.parse_setting _ takes _).trans ?_
      -- The first conflict ends the parsing, whatever follows.
      by_cases conflict : Conflict (done ++ [.setting letter argument takes])
      · rw [set?_conflict takes free conflict, if_pos (conflict.append rest)]
        rfl
      · rw [set?_ofGroups takes conflict]
        exact ih _ conflict

theorem ofArguments_groups (gs : List Group) {operands : List Text}
    (plain : ∀ t ∈ operands.head?, t.head? ≠ some '-') :
    Request.ofArguments (argumentsOf gs ++ operands) =
      if Conflict gs then .wrongUse else .run (.ofGroups gs) operands :=
  Options.parse_groups plain [] gs fun conflict => conflict.1 rfl

/-! ### The order of groups -/

/-- Options of different letters are independent, and styles add up. -/
def Independent (g h : Group) : Prop := g.letter ≠ h.letter ∨ g.letter = 'f' ∧ h.letter = 'f'

variable {g h : Group}

theorem given_exchange (independent : Independent g h) {letter : Char} (hl : letter ≠ 'f')
    (before behind : List Group) :
    given letter (before ++ g :: h :: behind) = given letter (before ++ h :: g :: behind) := by
  -- The letter cannot be that of both: it is not `f`, and for others the groups differ.
  have silent : g.argument? letter = none ∨ h.argument? letter = none := by
    by_cases hg : g.letter = letter
    · right
      apply Group.argument?_of_ne
      intro hh
      obtain different | ⟨format, -⟩ := independent
      · exact different (hg.trans hh.symm)
      · exact hl (hg.symm.trans format)
    · exact .inl (Group.argument?_of_ne hg)
  rw [given_append, given_append]
  congr 1
  obtain hg | hh := silent
  · simp [given, List.filterMap_cons, hg]
  · simp [given, List.filterMap_cons, hh]

theorem styleOf_perm {formats others : List Text} (p : formats.Perm others) :
    styleOf formats = styleOf others := by
  rw [styleOf, styleOf, p.contains_eq, p.contains_eq]

theorem Options.ofGroups_exchange (independent : Independent g h) (before behind : List Group) :
    Options.ofGroups (before ++ g :: h :: behind) =
      Options.ofGroups (before ++ h :: g :: behind) := by
  have p : (before ++ g :: h :: behind).Perm (before ++ h :: g :: behind) :=
    .append_left before (.swap h g behind)
  have same {letter : Char} (hl : letter ≠ 'f') := given_exchange independent hl before behind
  have style : styleOf (given 'f' (before ++ g :: h :: behind)) =
      styleOf (given 'f' (before ++ h :: g :: behind)) := styleOf_perm (p.filterMap _)
  have showAll : (before ++ g :: h :: behind).any Group.isShowAll =
      (before ++ h :: g :: behind).any Group.isShowAll := p.any_eq
  simp [Options.ofGroups, same, style, showAll]

theorem conflict_exchange (independent : Independent g h) (before behind : List Group) :
    Conflict (before ++ g :: h :: behind) ↔ Conflict (before ++ h :: g :: behind) := by
  rw [Conflict, Conflict, given_exchange independent (by decide), given_exchange independent (by decide)]

theorem given_ne_nil {gs : List Group} (mem : g ∈ gs) (setting : g.letter ≠ 'a') :
    given g.letter gs ≠ [] := by
  cases g with
  | showAll => exact absurd rfl setting
  | setting letter argument takes =>
    have found : argument ∈ given letter gs := List.mem_filterMap.mpr ⟨_, mem, if_pos rfl⟩
    exact List.ne_nil_of_mem found

/-- Exchanging neighbours of different letters, or two formats, changes nothing of a run; a page together
with a model asks for the usage in any order. -/
theorem option_order_irrelevant (fs : FileSystem) {operands : List Text}
    (plain : ∀ t ∈ operands.head?, t.head? ≠ some '-') :
    (∀ (before behind : List Group) (g h : Group), Independent g h →
      run (argumentsOf (before ++ g :: h :: behind) ++ operands) fs =
        run (argumentsOf (before ++ h :: g :: behind) ++ operands) fs) ∧
    ∀ gs : List Group, (∃ g ∈ gs, g.letter = 'i') → (∃ g ∈ gs, g.letter = 'm') →
      (run (argumentsOf gs ++ operands) fs).status.code = 1 ∧
        (run (argumentsOf gs ++ operands) fs).report = usage ∧
        (run (argumentsOf gs ++ operands) fs).log = [] := by
  constructor
  · intro before behind g h independent
    have first := ofArguments_groups (before ++ g :: h :: behind) plain
    have second := ofArguments_groups (before ++ h :: g :: behind) plain
    rw [run, run, first, second, Options.ofGroups_exchange independent]
    simp only [conflict_exchange independent]
  · rintro gs ⟨page, pageGiven, isPage⟩ ⟨model, modelGiven, isModel⟩
    have pages : given 'i' gs ≠ [] := by
      rw [← isPage]
      apply given_ne_nil pageGiven
      rw [isPage]
      decide
    have models : given 'm' gs ≠ [] := by
      rw [← isModel]
      apply given_ne_nil modelGiven
      rw [isModel]
      decide
    rw [run, ofArguments_groups gs plain, if_pos ⟨pages, models⟩]
    exact ⟨rfl, rfl, rfl⟩

/-- A page of attributes without a record. -/
def pageFiles : FileSystem :=
  FileTree.fileSystem (.ofList [("p", '\x10' :: List.replicate 361 '\x00')])

theorem option_order_irrelevant_formats :
    run ["-v", "9,raw8", "-f", "hex", "-f", "brief", "-e", "be", "p"] pageFiles =
        run ["-v", "9,raw8", "-f", "brief", "-f", "hex", "-e", "be", "p"] pageFiles ∧
      (run ["-m", "A1", "-a", "-i", "d", "p"] pageFiles).status.code = 1 ∧
      (run ["-m", "A1", "-a", "-i", "d", "p"] pageFiles).report = usage := by
  have plain : ∀ t ∈ (["p"] : List Text).head?, t.head? ≠ some '-' := by
    intro t ht
    cases ht
    decide
  obtain ⟨exchange, both⟩ := option_order_irrelevant pageFiles plain
  have definition : Takes 'v' "9,raw8" := .definition (by decide)
  have formats := exchange [.setting 'v' _ definition] [.setting 'e' _ .big]
    (.setting 'f' _ .hex) (.setting 'f' _ .brief) (.inr ⟨rfl, rfl⟩)
  let model : Group := .setting 'm' "A1" (.model _)
  let page : Group := .setting 'i' "d" (.identify _)
  have conflict := both [model, .showAll, page] ⟨page, by simp, rfl⟩ ⟨model, by simp, rfl⟩
  exact ⟨formats, conflict.1, conflict.2.1⟩

end DriveHealth.CommandLine
