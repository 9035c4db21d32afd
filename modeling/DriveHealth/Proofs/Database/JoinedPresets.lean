import DriveHealth.Proofs.Database.WrittenPresets

/-! Preset texts put one behind the other. A blank keeps them apart: a text that is accepted is read to
its end and no further, and what follows is read on top of what it gave. -/
namespace DriveHealth.PresetText

/-! ### Scanning -/

/-- An argument is the same with a blank and more behind it. -/
theorem takeWhile_take_append (t b : Text) (n : Nat) :
    ((t ++ ' ' :: b).take n).takeWhile (· ≠ ' ') = (t.take n).takeWhile (· ≠ ' ') := by
  induction t generalizing n with
  | nil =>
    cases n with
    | zero => rfl
    | succ n => rfl
  | cons c r ih =>
    cases n with
    | zero => rfl
    | succ n =>
      rw [List.cons_append, List.take_succ_cons, List.take_succ_cons, List.takeWhile_cons,
        List.takeWhile_cons, ih]

theorem setting?_append {t r : Text} {s : Setting} (h : setting? t = some (s, r)) (b : Text) :
    setting? (t ++ ' ' :: b) = some (s, r ++ ' ' :: b) := by
  unfold setting? at h
  split at h
  · rename_i letter u
    dsimp only at h
    split at h
    · cases h
    · rename_i some_argument
      cases h
      have some_body : (skipBlanks u).isEmpty = false := by
        cases body : skipBlanks u with
        | nil => simp [body] at some_argument
        | cons => rfl
      have body : skipBlanks (u ++ ' ' :: b) = skipBlanks u ++ ' ' :: b := by
        rw [skipBlanks, List.dropWhile_append]
        exact if_neg (ne_true_of_eq_false some_body)
      have inside : (((skipBlanks u).take maxArgument).takeWhile (· ≠ ' ')).length ≤
          (skipBlanks u).length :=
        Nat.le_trans (List.takeWhile_prefix _).length_le (List.take_prefix _ _).length_le
      rw [List.cons_append, List.cons_append, setting?]
      simp only [body, takeWhile_take_append]
      rw [if_neg some_argument, List.drop_append_of_le_length inside]
  · cases h

/-- A text that is scanned to its end is scanned to its end with more behind it. -/
theorem scan_append {a : Text} (complete : (scan a).isComplete = true) (b : Text) :
    scan (a ++ ' ' :: b) = ⟨(scan a).settings ++ (scan b).settings, (scan b).isComplete⟩ := by
  induction a using scan.induct with
  | case1 a body nothing =>
    have skipped : (a ++ ' ' :: b).dropWhile isGap = b.dropWhile isGap := by
      rw [List.dropWhile_append, if_pos nothing, List.dropWhile_cons_of_pos rfl]
    rw [scan_eq a, if_pos nothing, scan_eq (a ++ ' ' :: b), skipped, ← scan_eq b]
    rfl
  | case2 a body something bad =>
    rw [scan_eq, if_neg something, bad] at complete
    cases complete
  | case3 a body something s r read _ ih =>
    have skipped : (a ++ ' ' :: b).dropWhile isGap = a.dropWhile isGap ++ ' ' :: b := by
      rw [List.dropWhile_append, if_neg something]
    have more : ¬ (a.dropWhile isGap ++ ' ' :: b).isEmpty = true := by simp
    rw [scan_eq a, if_neg something, read] at complete ⊢
    rw [scan_eq (a ++ ' ' :: b), skipped, if_neg more, setting?_append read]
    simp only [ih complete, List.cons_append]

/-! ### Applying -/

/-- What a second outcome makes of the value of a first one, with what is doubtful in both. -/
def Outcome.followedBy {α : Type} (first second : Outcome α) : Outcome α :=
  { second with doubtful := first.doubtful ++ second.doubtful }

theorem applyToPresets_append {p : Presets} {ss : List Setting}
    (good : (applyToPresets p ss).isGood = true) (ts : List Setting) :
    applyToPresets p (ss ++ ts) =
      (applyToPresets p ss).followedBy (applyToPresets (applyToPresets p ss).value ts) := by
  induction ss generalizing p with
  | nil => rfl
  | cons s r ih =>
    rw [List.cons_append, applyToPresets]
    rw [applyToPresets] at good ⊢
    split at good
    · rename_i is_definition
      rw [if_pos is_definition, if_pos is_definition]
      split at good
      · cases good
      · simp only [ih good]
        split <;> rfl
    · rename_i not_definition
      rw [if_neg not_definition, if_neg not_definition]
      split at good
      · rename_i is_bug
        rw [if_pos is_bug, if_pos is_bug]
        exact ih good
      · cases good

theorem applyToUsbType_append {u : Text} {ss : List Setting}
    (good : (applyToUsbType u ss).isGood = true) (ts : List Setting) :
    applyToUsbType u (ss ++ ts) =
      (applyToUsbType u ss).followedBy (applyToUsbType (applyToUsbType u ss).value ts) := by
  induction ss generalizing u with
  | nil => rfl
  | cons s r ih =>
    rw [List.cons_append, applyToUsbType]
    rw [applyToUsbType] at good ⊢
    split at good
    · rename_i is_type
      rw [if_pos is_type, if_pos is_type]
      exact ih good
    · cases good

/-! ### Reading -/

theorem readPresets_append {m : Presets} {a : Text} (good : (readPresets m a).isGood = true) (b : Text) :
    readPresets m (a ++ ' ' :: b) =
      (readPresets m a).followedBy (readPresets (readPresets m a).value b) := by
  obtain ⟨applied, complete⟩ := (Bool.and_eq_true _ _).to_iff.mp good
  rw [readPresets, scan_append complete b]
  simp only [applyToPresets_append applied]
  rfl

theorem readUsbType_append {u : Text} {a : Text} (good : (readUsbType u a).isGood = true) (b : Text) :
    readUsbType u (a ++ ' ' :: b) =
      (readUsbType u a).followedBy (readUsbType (readUsbType u a).value b) := by
  obtain ⟨applied, complete⟩ := (Bool.and_eq_true _ _).to_iff.mp good
  rw [readUsbType, scan_append complete b]
  simp only [applyToUsbType_append applied]
  rfl

/-! ### Definitions of one attribute -/

def Setting.definition? (s : Setting) : Option Definition :=
  if s.letter = 'v' then Definition.parse? s.argument else none

/-- The definitions of a preset text, in their order. -/
def definitionsIn (t : Text) : List Definition := (scan t).settings.filterMap Setting.definition?

/-- What the last definition under a key gives it. -/
def lastUnder (key : Text) (ds : List Definition) : Option Preset :=
  (ds.filter (·.key = key)).getLast?.map Definition.preset

theorem applyToPresets_value {p : Presets} {ss : List Setting}
    (good : (applyToPresets p ss).isGood = true) :
    (applyToPresets p ss).value = (ss.filterMap Setting.definition?).foldl Presets.define p := by
  induction ss generalizing p with
  | nil => rfl
  | cons s r ih =>
    rw [applyToPresets] at good ⊢
    split at good
    · rename_i is_definition
      split at good
      · cases good
      · rename_i d read
        have defines : s.definition? = some d := by rw [Setting.definition?, if_pos is_definition, read]
        rw [if_pos is_definition, List.filterMap_cons_some defines]
        exact ih good
    · rename_i not_definition
      have nothing : s.definition? = none := if_neg not_definition
      rw [if_neg not_definition, List.filterMap_cons_none nothing]
      split at good
      · rename_i is_bug
        rw [if_pos is_bug]
        exact ih good
      · cases good

theorem get_foldl_define (ds : List Definition) (p : Presets) (key : Text) :
    (ds.foldl Presets.define p).get? key = (lastUnder key ds).or (p.get? key) := by
  induction ds generalizing p with
  | nil => rfl
  | cons d r ih =>
    rw [List.foldl_cons, ih, Presets.define, Presets.get_insert, lastUnder, lastUnder]
    by_cases same : d.key = key
    · rw [List.filter_cons_of_pos (by simpa using same), List.getLast?_cons, if_pos same.symm]
      cases (r.filter (·.key = key)).getLast? with
      | none => rfl
      | some e => rfl
    · rw [List.filter_cons_of_neg (by simpa using same), if_neg (Ne.symm same)]

/-- A preset of an accepted text is that of its last definition, name included, or what was there. -/
theorem get_readPresets {m : Presets} {t : Text} (good : (readPresets m t).isGood = true) (key : Text) :
    (readPresets m t).value.get? key = (lastUnder key (definitionsIn t)).or (m.get? key) := by
  obtain ⟨applied, -⟩ := (Bool.and_eq_true _ _).to_iff.mp good
  have value : (readPresets m t).value = (definitionsIn t).foldl Presets.define m :=
    applyToPresets_value applied
  rw [value, get_foldl_define]

/-! ### Joined texts -/

/-- The messages about what an outcome leaves doubtful. -/
def Outcome.messages {α : Type} (location : Text) (o : Outcome α) : List Message :=
  o.doubtful.map fun definition => (Settings.Problem.unknownFormat definition).message location

/-- What comes out of a joined text is what a second text makes of the outcome of a first one. -/
structure Composes {α : Type} (first second joined : Outcome α) : Prop where
  isGood : joined.isGood = second.isGood
  value : joined.value = second.value
  messages : ∀ location, joined.messages location =
    first.messages location ++ second.messages location

theorem composes_followedBy {α : Type} (first second : Outcome α) :
    Composes first second (first.followedBy second) :=
  ⟨rfl, rfl, fun _ => List.map_append⟩

/-- Behind a text that is accepted, and a blank, any text is read as if it stood alone, on top of what
the first one gave; so it is for presets and for the type of an adapter. An accepted text gives every
attribute the rule and the name of its last definition. -/
theorem joined_texts_compose (a b : Text) :
    (∀ m : Presets, (readPresets m a).isGood = true →
      Composes (readPresets m a) (readPresets (readPresets m a).value b)
        (readPresets m (a ++ ' ' :: b))) ∧
    (∀ usbType : Text, (readUsbType usbType a).isGood = true →
      Composes (readUsbType usbType a) (readUsbType (readUsbType usbType a).value b)
        (readUsbType usbType (a ++ ' ' :: b))) ∧
    ∀ (m : Presets) (t : Text), (readPresets m t).isGood = true → ∀ key,
      (readPresets m t).value.get? key = (lastUnder key (definitionsIn t)).or (m.get? key) := by
  refine ⟨?_, ?_, ?_⟩
  · intro m accepted
    rw [readPresets_append accepted]
    exact composes_followedBy _ _
  · intro usbType accepted
    rw [readUsbType_append accepted]
    exact composes_followedBy _ _
  · intro m t accepted key
    exact get_readPresets accepted key

/-- A definition with an unknown format, without a blank behind its letter, and a second definition of
the same attribute without a name. -/
theorem joined_texts_compose_redefined :
    (readPresets .empty "-v9,bogus,First").isGood = true ∧
    (readPresets .empty "-v9,bogus,First -v 9,hex48").isGood = true ∧
    (readPresets .empty "-v9,bogus,First -v 9,hex48").messages "db" =
      [⟨.warning, "db: Unknown raw format in \"-v 9,bogus,First\""⟩] ∧
    (readPresets .empty "-v9,bogus,First -v 9,hex48").value.get? "9" =
      some { rule := .known .hex48 none } ∧
    (readUsbType [] "-d sat").isGood = true ∧ (readUsbType [] "-d sat -d usbasm").value = "usbasm" := by
  have accepted : (readPresets .empty "-v9,bogus,First").isGood = true := by decide +kernel
  have accepted_type : (readUsbType [] "-d sat").isGood = true := by decide +kernel
  obtain ⟨presets, types, last⟩ := joined_texts_compose "-v9,bogus,First" "-v 9,hex48"
  have joined := presets .empty accepted
  have joined_accepted : (readPresets .empty "-v9,bogus,First -v 9,hex48").isGood = true := by
    rw [show ("-v9,bogus,First -v 9,hex48" : Text) = "-v9,bogus,First" ++ ' ' :: "-v 9,hex48" from rfl,
      joined.isGood]
    decide +kernel
  refine ⟨accepted, joined_accepted, ?_, ?_, accepted_type, ?_⟩
  · exact (joined.messages "db").trans (by decide +kernel)
  · rw [last .empty _ joined_accepted "9"]
    decide +kernel
  · exact ((joined_texts_compose "-d sat" "-d usbasm").2.1 [] accepted_type).value.trans
      (by decide +kernel)

end DriveHealth.PresetText
