import DriveHealth.Proofs.Text.Number
import Mathlib.Data.List.Infix

/-! Blanks around a text. Trimming takes away exactly the blanks at both ends, and what is left is the
longest part of the text that has none there. -/
namespace DriveHealth

def StartsBare (t : Text) : Prop := ∀ c ∈ t.head?, isBlank c = false

def EndsBare (t : Text) : Prop := ∀ c ∈ t.getLast?, isBlank c = false

/-- Neither begins nor ends with a blank. -/
def IsBare (t : Text) : Prop := StartsBare t ∧ EndsBare t

theorem startsBare_reverse {t : Text} : StartsBare t.reverse ↔ EndsBare t := by
  rw [StartsBare, List.head?_reverse, EndsBare]

theorem isBlanks_reverse {t : Text} (h : IsBlanks t) : IsBlanks t.reverse := by
  intro c hc
  exact h c (List.mem_reverse.mp hc)

theorem StartsBare.append {s : Text} (h : StartsBare s) (some_char : s ≠ []) (t : Text) :
    StartsBare (s ++ t) := by
  obtain ⟨c, r, rfl⟩ := List.exists_cons_of_ne_nil some_char
  exact h

theorem StartsBare.start {s t : Text} (h : StartsBare (s ++ t)) : StartsBare s := by
  cases s with
  | nil =>
    intro c hc
    cases hc
  | cons c r => exact h

theorem skipBlanks_of_startsBare {t : Text} (h : StartsBare t) : skipBlanks t = t := by
  cases t with
  | nil => rfl
  | cons c r => exact List.dropWhile_cons_of_neg (by simp [h c rfl])

theorem skipBlanks_behind {blanks t : Text} (hb : IsBlanks blanks) (h : StartsBare t) :
    skipBlanks (blanks ++ t) = t := by
  rw [skipBlanks, List.dropWhile_append_of_pos hb]
  exact skipBlanks_of_startsBare h

theorem startsBare_skipBlanks (t : Text) : StartsBare (skipBlanks t) := by
  intro c hc
  have stop := List.head?_dropWhile_not isBlank t
  rw [skipBlanks] at hc
  rw [hc] at stop
  exact stop

theorem skipBlanks_split (t : Text) : ∃ blanks, IsBlanks blanks ∧ t = blanks ++ skipBlanks t := by
  refine ⟨t.takeWhile isBlank, ?_, List.takeWhile_append_dropWhile.symm⟩
  intro c hc
  exact List.mem_takeWhile_imp hc

/-- A part that begins without a blank lies behind the blanks of the text. -/
theorem infix_skipBlanks {u t : Text} (h : u <:+: t) (bare : StartsBare u) : u <:+: skipBlanks t := by
  by_cases empty : u = []
  · rw [empty]
    exact List.nil_infix
  obtain ⟨x, y, rfl⟩ := h
  rw [List.append_assoc, skipBlanks, List.dropWhile_append]
  split
  · have rest : skipBlanks (u ++ y) = u ++ y := skipBlanks_of_startsBare (bare.append empty y)
    rw [← skipBlanks, rest]
    exact (List.prefix_append u y).isInfix
  · rw [← List.append_assoc]
    exact List.infix_append _ u y

/-! ### Trimming -/

theorem trim_eq {before t behind : Text} (hb : IsBlanks before) (bare : IsBare t) (he : IsBlanks behind) :
    trim (before ++ t ++ behind) = t := by
  by_cases empty : t = []
  · have blanks : IsBlanks (before ++ behind) := by
      intro c hc
      rcases List.mem_append.mp hc with hc | hc
      · exact hb c hc
      · exact he c hc
    have nothing : skipBlanks (before ++ behind) = [] := List.dropWhile_eq_nil_iff.mpr blanks
    rw [empty, List.append_nil, trim, nothing]
    rfl
  · have first := skipBlanks_behind hb (bare.1.append empty behind)
    have last := skipBlanks_behind (isBlanks_reverse he) (startsBare_reverse.mpr bare.2)
    rw [trim, List.append_assoc, first, List.reverse_append, last, List.reverse_reverse]

theorem skipBlanks_eq_trim (t : Text) : ∃ behind, IsBlanks behind ∧ skipBlanks t = trim t ++ behind := by
  obtain ⟨blanks, hb, last⟩ := skipBlanks_split (skipBlanks t).reverse
  refine ⟨blanks.reverse, isBlanks_reverse hb, ?_⟩
  have whole := congrArg List.reverse last
  rwa [List.reverse_reverse, List.reverse_append] at whole

/-- What trimming takes away are blanks. -/
theorem trim_split (t : Text) :
    ∃ before behind, IsBlanks before ∧ IsBlanks behind ∧ t = before ++ trim t ++ behind := by
  obtain ⟨before, hb, first⟩ := skipBlanks_split t
  obtain ⟨behind, he, last⟩ := skipBlanks_eq_trim t
  refine ⟨before, behind, hb, he, ?_⟩
  rwa [List.append_assoc, ← last]

theorem isBare_trim (t : Text) : IsBare (trim t) := by
  constructor
  · obtain ⟨behind, -, last⟩ := skipBlanks_eq_trim t
    have bare := startsBare_skipBlanks t
    rw [last] at bare
    exact bare.start
  · rw [← startsBare_reverse, trim, List.reverse_reverse]
    exact startsBare_skipBlanks _

theorem trim_of_isBare {t : Text} (h : IsBare t) : trim t = t := by
  rw [trim, skipBlanks_of_startsBare h.1, skipBlanks_of_startsBare (startsBare_reverse.mpr h.2),
    List.reverse_reverse]

theorem trim_trim (t : Text) : trim (trim t) = trim t := trim_of_isBare (isBare_trim t)

/-- Every part of a text that neither begins nor ends with a blank is left by trimming. -/
theorem infix_trim {u t : Text} (h : u <:+: t) (bare : IsBare u) : u <:+: trim t := by
  have first := infix_skipBlanks h bare.1
  have last := infix_skipBlanks (List.reverse_infix.mpr first) (startsBare_reverse.mpr bare.2)
  rw [trim]
  exact List.reverse_infix.mp (by rwa [List.reverse_reverse])

theorem mem_of_mem_trim {c : Char} {t : Text} (h : c ∈ trim t) : c ∈ t := by
  obtain ⟨before, behind, -, -, split⟩ := trim_split t
  rw [split]
  exact List.mem_append_left _ (List.mem_append_right _ h)

theorem length_trim_le (t : Text) : (trim t).length ≤ t.length := by
  obtain ⟨before, behind, -, -, split⟩ := trim_split t
  have length := congrArg List.length split
  rw [List.length_append, List.length_append] at length
  omega

end DriveHealth
