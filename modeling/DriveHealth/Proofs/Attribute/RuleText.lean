import DriveHealth.Attribute.Rule
import DriveHealth.Proofs.Text.Parts

/-! Rules and their texts. A known rule has one spelling, every other text is kept as it is, so that
reading a text and writing the rule undo each other. -/
namespace DriveHealth

/-! ### Names and orders -/

theorem Format.mem_all (f : Format) : f ∈ Format.all := by
  cases f <;> decide

theorem Format.names_nodup : (Format.all.map Format.name).Nodup := by decide +kernel

theorem Format.name_of_ofName? {t : Text} {f : Format} (h : Format.ofName? t = some f) : f.name = t := by
  rw [ofName?] at h
  simpa using List.find?_some h

theorem Format.ofName?_name (f : Format) : Format.ofName? f.name = some f := by
  cases f <;> decide +kernel

theorem Format.colon_not_mem_name (f : Format) : ':' ∉ f.name := by
  cases f <;> decide

theorem ByteSource.mapM_ofLetter?_eq_some_iff {t : Text} {order : List ByteSource} :
    t.mapM ByteSource.ofLetter? = some order ↔ Rule.orderText order = t := by
  induction t generalizing order with
  | nil => cases order <;> simp [Rule.orderText]
  | cons c r ih =>
    constructor
    · intro h
      rw [List.mapM_cons] at h
      obtain ⟨source, hs, h⟩ := Option.bind_eq_some_iff.mp h
      obtain ⟨rest, hr, h⟩ := Option.bind_eq_some_iff.mp h
      cases h
      rw [Rule.orderText, List.map_cons, ByteSource.letter_of_ofLetter? hs, ← ih.mp hr]
      rfl
    · intro h
      cases order with
      | nil => cases h
      | cons source rest =>
        obtain ⟨rfl, hr⟩ := List.cons.inj h
        rw [List.mapM_cons, ByteSource.ofLetter?_letter, ih.mpr hr]
        rfl

theorem ByteSource.letter_mem (source : ByteSource) : source.letter ∈ ("012345rvwz" : Text) := by
  cases source with
  | vendor i => revert i; decide
  | _ => decide

theorem ByteSource.exists_letter_of_mem {c : Char} (h : c ∈ ("012345rvwz" : Text)) :
    ∃ source : ByteSource, source.letter = c := by
  have all : ("012345rvwz" : Text).all (fun c => (ByteSource.ofLetter? c).isSome) = true := by decide
  obtain ⟨source, hs⟩ := Option.isSome_iff_exists.mp (List.all_eq_true.mp all c h)
  exact ⟨source, ByteSource.letter_of_ofLetter? hs⟩

namespace Rule

/-- The orders that a rule can be written with. -/
def IsOrder (order : List ByteSource) : Prop := 1 ≤ order.length ∧ order.length ≤ maxOrder

theorem length_orderText (order : List ByteSource) : (orderText order).length = order.length :=
  List.length_map _

theorem parseOrder?_eq_some_iff {t : Text} {order : List ByteSource} :
    parseOrder? t = some order ↔ IsOrder order ∧ orderText order = t := by
  have refused_iff : (t.isEmpty || decide (maxOrder < t.length)) = true ↔
      ¬ (1 ≤ t.length ∧ t.length ≤ maxOrder) := by
    cases t <;> simp
  rw [parseOrder?]
  split
  · rename_i refused
    constructor
    · intro h
      cases h
    · rintro ⟨bounds, rfl⟩
      rw [refused_iff, length_orderText] at refused
      exact absurd bounds refused
  · rename_i taken
    rw [ByteSource.mapM_ofLetter?_eq_some_iff]
    constructor
    · rintro rfl
      rw [refused_iff, not_not, length_orderText] at taken
      exact ⟨taken, rfl⟩
    · rintro ⟨-, h⟩
      exact h

/-! ### Spellings -/

/-- How known rules are written. -/
inductive Spells : Text → Format → Option (List ByteSource) → Prop where
  | plain (f) : Spells f.name f Option.none
  | ordered (f) {order} : IsOrder order → Spells (f.name ++ ':' :: orderText order) f (some order)

theorem Spells.text {t : Text} {f : Format} {order : Option (List ByteSource)}
    (h : Spells t f order) : (known f order).text = t := by
  cases h <;> rfl

theorem Spells.parse {t : Text} {f : Format} {order : Option (List ByteSource)}
    (h : Spells t f order) : parse t = known f order := by
  cases h with
  | plain f =>
    rw [Rule.parse, cutAt_of_not_mem f.colon_not_mem_name]
    simp only [f.ofName?_name]
  | ordered f bounds =>
    rw [Rule.parse, cutAt_append f.colon_not_mem_name]
    simp only [f.ofName?_name, parseOrder?_eq_some_iff.mpr ⟨bounds, rfl⟩]

/-- A text is the spelling of a known rule or a rule that keeps it. -/
theorem spells_or_unknown (t : Text) :
    (∃ f order, Spells t f order) ∨ parse t = unknown t := by
  rw [parse]
  split
  · rename_i name cut
    split
    · rename_i f hf
      refine .inl ⟨f, Option.none, ?_⟩
      rw [eq_of_cutAt cut, ← Format.name_of_ofName? hf, Option.elim_none, List.append_nil]
      exact .plain f
    · exact .inr rfl
  · rename_i name letters cut
    split
    · rename_i f order hf ho
      obtain ⟨bounds, rfl⟩ := parseOrder?_eq_some_iff.mp ho
      refine .inl ⟨f, some order, ?_⟩
      rw [eq_of_cutAt cut, ← Format.name_of_ofName? hf]
      exact .ordered f bounds
    · exact .inr rfl

theorem text_parse (t : Text) : (parse t).text = t := by
  rcases spells_or_unknown t with ⟨f, order, h⟩ | h
  · rw [h.parse, h.text]
  · rw [h, text]

theorem parse_eq_known_iff {t : Text} {f : Format} {order : Option (List ByteSource)} :
    parse t = known f order ↔ Spells t f order := by
  constructor
  · intro known
    rcases spells_or_unknown t with ⟨g, other, h⟩ | h
    · rw [h.parse] at known
      cases known
      exact h
    · rw [h] at known
      cases known
  · exact Spells.parse

theorem isKnown_parse_iff {t : Text} : (parse t).isKnown = true ↔ ∃ f order, Spells t f order := by
  rcases spells_or_unknown t with ⟨f, order, h⟩ | h
  · exact iff_of_true (by rw [h.parse]; rfl) ⟨f, order, h⟩
  · refine iff_of_false (by rw [h]; exact Bool.false_ne_true) ?_
    rintro ⟨f, order, spells⟩
    rw [spells.parse] at h
    cases h

/-- A text is the text of an order if it consists of the ten letters. -/
theorem exists_orderText_iff {letters : Text} :
    (∃ order, orderText order = letters) ↔ ∀ c ∈ letters, c ∈ ("012345rvwz" : Text) := by
  constructor
  · rintro ⟨order, rfl⟩ c hc
    obtain ⟨source, -, rfl⟩ := List.mem_map.mp hc
    exact source.letter_mem
  · intro h
    induction letters with
    | nil => exact ⟨[], rfl⟩
    | cons c r ih =>
      obtain ⟨first, rest⟩ := List.forall_mem_cons.mp h
      obtain ⟨source, rfl⟩ := ByteSource.exists_letter_of_mem first
      obtain ⟨order, rfl⟩ := ih rest
      exact ⟨source :: order, rfl⟩

/-- The spellings of known rules in terms of characters alone. -/
theorem exists_spells_iff {t : Text} :
    (∃ f order, Spells t f order) ↔
      ∃ name ∈ Format.all.map Format.name, t = name ∨ ∃ letters, t = name ++ ':' :: letters ∧
        1 ≤ letters.length ∧ letters.length ≤ 8 ∧ ∀ c ∈ letters, c ∈ ("012345rvwz" : Text) := by
  constructor
  · rintro ⟨f, order, h⟩
    refine ⟨f.name, List.mem_map_of_mem f.mem_all, ?_⟩
    cases h with
    | plain => exact .inl rfl
    | @ordered f order bounds =>
      obtain ⟨some_letters, few⟩ := bounds
      rw [← length_orderText order] at some_letters few
      exact .inr ⟨orderText order, rfl, some_letters, few, exists_orderText_iff.mp ⟨order, rfl⟩⟩
  · rintro ⟨name, hn, h⟩
    obtain ⟨f, -, rfl⟩ := List.mem_map.mp hn
    rcases h with rfl | ⟨letters, rfl, some_letters, few, inside⟩
    · exact ⟨f, Option.none, .plain f⟩
    · obtain ⟨order, rfl⟩ := exists_orderText_iff.mpr inside
      rw [length_orderText] at some_letters few
      exact ⟨f, some order, .ordered f ⟨some_letters, few⟩⟩

/-- Every text survives being read as a rule, and the rules that a text can give are those that survive
being written. The known ones among them are written as one of nineteen names, alone or with one to
eight letters behind a colon. -/
theorem texts_and_rules_survive :
    (∀ t, (parse t).text = t) ∧
    (∀ r, (∃ t, parse t = r) ↔ parse r.text = r) ∧
    (Format.all.map Format.name).length = 19 ∧ (Format.all.map Format.name).Nodup ∧
    ∀ t, (parse t).isKnown = true ↔
      ∃ name ∈ Format.all.map Format.name, t = name ∨ ∃ letters, t = name ++ ':' :: letters ∧
        1 ≤ letters.length ∧ letters.length ≤ 8 ∧ ∀ c ∈ letters, c ∈ ("012345rvwz" : Text) := by
  refine ⟨text_parse, ?_, rfl, Format.names_nodup, ?_⟩
  · intro r
    constructor
    · rintro ⟨t, rfl⟩
      rw [text_parse]
    · intro h
      exact ⟨r.text, h⟩
  · intro t
    rw [isKnown_parse_iff, exists_spells_iff]

end Rule

end DriveHealth
