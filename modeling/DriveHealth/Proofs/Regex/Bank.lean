import DriveHealth.Regex.Bank
import DriveHealth.Proofs.Database.Conversion
import Mathlib.Data.List.Induction

/-! Expressions in a bank of places. Whatever was done to the bank, every expression in it is what its
own pattern compiles to, if it has one: what was compiled, what was wrong and the pattern itself never
come from different actions. So a copy, which compiles once more, always succeeds. -/
namespace DriveHealth

namespace RegularExpression

/-- Never set, or what the pattern that it has compiles to. -/
def IsDetermined (r : RegularExpression) : Prop := r = {} ∨ r = compile r.source

theorem isDetermined_compile (source : Text) : (compile source).IsDetermined := by
  right
  rw [source_compile]

theorem compile_cases (source : Text) :
    (∃ p, compile source = { source, problem := some p }) ∨
      ∃ pattern, compile source = { source, pattern := some pattern } ∧
        Regex.Pattern.parse source = .ok pattern := by
  rw [compile]
  split
  · exact .inl ⟨_, rfl⟩
  · rename_i pattern parsed
    split
    · exact .inl ⟨_, rfl⟩
    · exact .inr ⟨pattern, rfl, parsed⟩

theorem IsDetermined.copy {r : RegularExpression} (h : r.IsDetermined) : r.copy = .ok r := by
  rcases h with rfl | h
  · rfl
  · rcases compile_cases r.source with ⟨p, bad⟩ | ⟨pattern, good, -⟩
    · rw [h, bad]
      rfl
    · have problem : (compile r.source).problem = none := by rw [good]
      have compiled : r.pattern.isNone = false := by rw [h, good]; rfl
      rw [RegularExpression.copy, compiled]
      simp only [Bool.false_eq_true, if_false, problem]
      rw [← h]

/-- An expression that is not empty was compiled from its pattern. -/
theorem IsDetermined.active {r : RegularExpression} (h : r.IsDetermined) (full : r.isEmpty = false) :
    ∃ pattern, Regex.Pattern.parse r.source = .ok pattern ∧ r.active? = some pattern := by
  rcases h with rfl | h
  · cases full
  · rcases compile_cases r.source with ⟨p, bad⟩ | ⟨pattern, good, parsed⟩
    · rw [h, bad] at full
      simp [isEmpty] at full
    · refine ⟨pattern, parsed, ?_⟩
      rw [active?, full, h, good]
      rfl

theorem require_eq (source : Text) :
    require source =
      match (compile source).problem with
      | none => .ok (compile source)
      | some p => .error ("error in regular expression \"" ++ source ++ "\": " ++ p.message) := rfl

end RegularExpression

namespace RegexBank

def Determined (b : RegexBank) : Prop := ∀ i, (b.get i).IsDetermined

theorem get_set (b : RegexBank) (place : Nat) (r : RegularExpression) (i : Nat) :
    (b.set place r).get i = if i = place then r else b.get i := rfl

theorem set_get (b : RegexBank) (place : Nat) : b.set place (b.get place) = b := by
  obtain ⟨get⟩ := b
  rw [set, mk.injEq]
  funext i
  by_cases h : i = place
  · rw [if_pos h, h]
  · rw [if_neg h]

theorem Determined.set {b : RegexBank} (h : b.Determined) {r : RegularExpression}
    (hr : r.IsDetermined) (place : Nat) : (b.set place r).Determined := by
  intro i
  rw [get_set]
  by_cases hi : i = place
  · rw [if_pos hi]
    exact hr
  · rw [if_neg hi]
    exact h i

/-- What an action leaves in its place. A construction from a bad pattern leaves what was there. -/
inductive Leaves (b : RegexBank) : Action → RegularExpression → Prop where
  | compile (place source) : Leaves b (.compile place source) (.compile source)
  | construct (place) {source} : (RegularExpression.compile source).problem = none →
      Leaves b (.construct place source) (.compile source)
  | kept (place) {source} : (RegularExpression.compile source).problem ≠ none →
      Leaves b (.construct place source) (b.get place)
  | assign (place origin) : Leaves b (.assign place origin) (b.get origin)
  | copy (place origin) : Leaves b (.copy place origin) (b.get origin)

/-- The one way to fail. -/
inductive Throws : Action → Text → Prop where
  | construct (place) {source p} : (RegularExpression.compile source).problem = some p →
      Throws (.construct place source)
        ("error in regular expression \"" ++ source ++ "\": " ++ p.message)

theorem setCopy_eq {r : RegularExpression} (h : r.IsDetermined) (b : RegexBank) (place : Nat) :
    b.setCopy place r = .ok (b.set place r) := by
  rw [setCopy, h.copy]
  rfl

/-- An action writes one expression to its place, or it throws and writes nothing. -/
theorem act_cases {b : RegexBank} (h : b.Determined) (a : Action) :
    (∃ r, Leaves b a r ∧ b.act a = .ok (b.set a.place r)) ∨
      (∃ m, Throws a m ∧ Leaves b a (b.get a.place) ∧ b.act a = .error m) := by
  cases a with
  | compile place source => exact .inl ⟨_, .compile place source, rfl⟩
  | construct place source =>
    rw [act, RegularExpression.require_eq]
    cases hp : (RegularExpression.compile source).problem with
    | none =>
      have made := RegularExpression.isDetermined_compile source
      exact .inl ⟨_, .construct place hp, setCopy_eq made b place⟩
    | some p => exact .inr ⟨_, .construct place hp, .kept place (by simp [hp]), rfl⟩
  | assign place origin =>
    refine .inl ⟨_, .assign place origin, ?_⟩
    rw [act]
    by_cases same : place = origin
    · subst origin
      rw [if_pos rfl]
      exact congrArg Except.ok (set_get b place).symm
    · rw [if_neg same]
      exact setCopy_eq (h origin) b place
  | copy place origin => exact .inl ⟨_, .copy place origin, setCopy_eq (h origin) b place⟩

theorem Leaves.isDetermined {b : RegexBank} (h : b.Determined) {a : Action} {r : RegularExpression}
    (l : Leaves b a r) : r.IsDetermined := by
  cases l with
  | compile | construct => exact RegularExpression.isDetermined_compile _
  | kept place => exact h place
  | assign place origin | copy place origin => exact h origin

theorem after_concat (b : RegexBank) (actions : List Action) (a : Action) :
    after b (actions ++ [a]) = ((after b actions).act a).toOption.getD (after b actions) := by
  rw [after, List.foldl_append]
  rfl

/-- A failed action has written what was there before. -/
theorem step_eq {b : RegexBank} (h : b.Determined) (a : Action) :
    ∃ r, Leaves b a r ∧ (b.act a).toOption.getD b = b.set a.place r := by
  rcases act_cases h a with ⟨r, leaves, done⟩ | ⟨m, -, leaves, failed⟩
  · refine ⟨r, leaves, ?_⟩
    rw [done]
    rfl
  · refine ⟨_, leaves, ?_⟩
    rw [failed, set_get]
    rfl

/-- After any actions every place holds what its own pattern compiles to. -/
theorem after_determined (actions : List Action) : (after {} actions).Determined := by
  induction actions using List.reverseRecOn with
  | nil =>
    intro i
    exact .inl rfl
  | append_singleton actions a ih =>
    obtain ⟨r, leaves, written⟩ := step_eq ih a
    rw [after_concat, written]
    exact ih.set (leaves.isDetermined ih) a.place

/-- Whatever was done, an expression was never set or is what its own pattern compiles to. One more
action changes no place but its own, where it leaves what it is for; it throws only as a construction
from a bad pattern, and then changes nothing. Copies never fail, and an empty expression matches
nothing, while any other one searches for its own pattern. -/
theorem expressions_determined_by_last_pattern (actions : List Action) (a : Action) :
    let b := after {} actions
    let next := after {} (actions ++ [a])
    (∀ i, b.get i = {} ∨ b.get i = .compile (b.get i).source) ∧
    Leaves b a (next.get a.place) ∧
    (∀ i, i ≠ a.place → next.get i = b.get i) ∧
    (∀ m, b.act a = .error m → Throws a m ∧ next = b) ∧
    (∀ i, (b.get i).copy = .ok (b.get i)) ∧
    (∀ i, (b.get i).isEmpty = true → ∀ subject,
      (b.get i).isMatch subject = false ∧ ∀ count, (b.get i).groups? subject count = none) ∧
    (∀ i, (b.get i).isEmpty = false → ∃ pattern, Regex.Pattern.parse (b.get i).source = .ok pattern ∧
      ∀ subject, (b.get i).isMatch subject = (pattern.search subject).isSome ∧
        ∀ count, (b.get i).groups? subject count = pattern.searchGroups subject count) := by
  intro b next
  have determined : b.Determined := after_determined actions
  obtain ⟨r, leaves, written⟩ := step_eq determined a
  have next_eq : next = b.set a.place r := (after_concat {} actions a).trans written
  refine ⟨determined, ?_, ?_, ?_, fun i => (determined i).copy, ?_, ?_⟩
  · rw [next_eq, get_set, if_pos rfl]
    exact leaves
  · intro i hi
    rw [next_eq, get_set, if_neg hi]
  · intro m failed
    have kept : next = b := by
      rw [show next = _ from after_concat {} actions a, failed]
      rfl
    rcases act_cases determined a with ⟨r, -, done⟩ | ⟨m', throws, -, failed'⟩
    · rw [done] at failed
      cases failed
    · rw [failed'] at failed
      cases failed
      exact ⟨throws, kept⟩
  · intro i empty subject
    have inactive : (b.get i).active? = none := by rw [RegularExpression.active?, if_pos empty]
    rw [RegularExpression.isMatch, inactive]
    refine ⟨rfl, ?_⟩
    intro count
    rw [RegularExpression.groups?, inactive]
    rfl
  · intro i full
    obtain ⟨pattern, parsed, active⟩ := (determined i).active full
    refine ⟨pattern, parsed, ?_⟩
    intro subject
    rw [RegularExpression.isMatch, active]
    refine ⟨rfl, ?_⟩
    intro count
    rw [RegularExpression.groups?, active]
    rfl

end RegexBank

end DriveHealth
