import DriveHealth.Proofs.Database.Items
import DriveHealth.Proofs.Database.Lexemes
import Mathlib.Data.List.Infix

/-! The grammar of a database over its tokens, and that reading is exact for it. An entry is eleven
tokens in a row. Reading finds every such row, wherever it stands, and complains unless the tokens
are nothing but such rows with commas between them. -/
namespace DriveHealth.Database

def entryTokens (s : Settings) : List Token :=
  [.openBrace, .string s.family, .comma, .string s.model, .comma, .string s.firmware, .comma,
    .string s.warning, .comma, .string s.presets, .closeBrace]

def settingsAt? : List Token → Option Settings
  | .openBrace :: .string family :: .comma :: .string model :: .comma :: .string firmware ::
      .comma :: .string warning :: .comma :: .string presets :: .closeBrace :: _ =>
    some { family, model, firmware, warning, presets }
  | _ => none

/-- The settings at all places, in order. -/
def settingsIn (ts : List Token) : List Settings := ts.tails.filterMap settingsAt?

/-- Entries with commas between them; a last comma may follow. -/
inductive Listed : List Token → List Settings → Prop where
  | nil : Listed [] []
  | last (s) : Listed (entryTokens s) [s]
  | cons (s) {ts ss} : Listed ts ss → Listed (entryTokens s ++ .comma :: ts) (s :: ss)

theorem settingsAt_eq_some_iff {ts : List Token} {s : Settings} :
    settingsAt? ts = some s ↔ entryTokens s <+: ts := by
  constructor
  · intro h
    unfold settingsAt? at h
    split at h
    · cases h
      exact ⟨_, rfl⟩
    · cases h
  · rintro ⟨r, rfl⟩
    rfl

theorem settingsAt_cons_of_ne {t : Token} (h : t ≠ .openBrace) (ts : List Token) :
    settingsAt? (t :: ts) = none := by
  rw [Option.eq_none_iff_forall_ne_some]
  intro s hs
  exact h (List.cons_prefix_cons.mp (settingsAt_eq_some_iff.mp hs)).1.symm

theorem settingsIn_cons (t : Token) (ts : List Token) :
    settingsIn (t :: ts) = (settingsAt? (t :: ts)).toList ++ settingsIn ts := by
  rw [settingsIn, List.tails_cons, List.filterMap_cons]
  cases settingsAt? (t :: ts) with
  | none => rfl
  | some s => rfl

theorem settingsIn_append_of_none {us ts : List Token} (h : .openBrace ∉ us) :
    settingsIn (us ++ ts) = settingsIn ts := by
  induction us with
  | nil => rfl
  | cons u us ih =>
    obtain ⟨hu, hus⟩ := not_or.mp (mt List.mem_cons.mpr h)
    have hn : settingsAt? (u :: (us ++ ts)) = none := settingsAt_cons_of_ne (Ne.symm hu) _
    rw [List.cons_append, settingsIn_cons, hn, ih hus]
    rfl

theorem settingsIn_entry (s : Settings) (ts : List Token) :
    settingsIn (entryTokens s ++ ts) = s :: settingsIn ts := by
  have hs : settingsAt? (entryTokens s ++ ts) = some s :=
    settingsAt_eq_some_iff.mpr (List.prefix_append _ _)
  have hr : settingsIn ((entryTokens s).tail ++ ts) = settingsIn ts :=
    settingsIn_append_of_none (by simp [entryTokens])
  have hc : entryTokens s ++ ts = .openBrace :: ((entryTokens s).tail ++ ts) := rfl
  rw [hc] at hs ⊢
  rw [settingsIn_cons, hs, hr]
  rfl

theorem settingsIn_cons_of_ne {t : Token} (h : t ≠ .openBrace) (ts : List Token) :
    settingsIn (t :: ts) = settingsIn ts := by
  have hn : .openBrace ∉ [t] := by simpa using Ne.symm h
  exact settingsIn_append_of_none hn

theorem settingsIn_open_of_none {us ts : List Token} (h : .openBrace ∉ us)
    (hn : settingsAt? (.openBrace :: (us ++ ts)) = none) :
    settingsIn (.openBrace :: (us ++ ts)) = settingsIn ts := by
  rw [settingsIn_cons, hn, settingsIn_append_of_none h]
  rfl

theorem settingsIn_eq_nil {ts : List Token} (h : .closeBrace ∉ ts) : settingsIn ts = [] := by
  rw [settingsIn, List.filterMap_eq_nil_iff]
  intro us hus
  rw [Option.eq_none_iff_forall_ne_some]
  intro s hs
  have hm : Token.closeBrace ∈ us :=
    (settingsAt_eq_some_iff.mp hs).subset (by simp [entryTokens])
  exact h ((List.mem_tails _ _).mp hus |>.subset hm)

theorem Listed.settingsIn_eq {ts : List Token} {ss : List Settings} (h : Listed ts ss) :
    settingsIn ts = ss := by
  induction h with
  | nil => rfl
  | last s =>
    have := settingsIn_entry s []
    rwa [List.append_nil] at this
  | cons s _ ih =>
    rw [settingsIn_entry, settingsIn_cons, ih]
    rfl

theorem entryTokens_append_inj {s u : Settings} {ts us : List Token}
    (h : entryTokens s ++ ts = entryTokens u ++ us) : s = u ∧ ts = us := by
  have hs : settingsAt? (entryTokens s ++ ts) = some s :=
    settingsAt_eq_some_iff.mpr (List.prefix_append _ _)
  have hu : settingsAt? (entryTokens s ++ ts) = some u :=
    settingsAt_eq_some_iff.mpr (h ▸ List.prefix_append _ _)
  have he : s = u := Option.some.inj (hs.symm.trans hu)
  subst u
  exact ⟨rfl, List.append_cancel_left h⟩

def IsListed (ts : List Token) : Prop := ∃ ss, Listed ts ss

theorem IsListed.entry_prefix {t : Token} {ts : List Token} (h : IsListed (t :: ts)) :
    ∃ s, entryTokens s <+: t :: ts := by
  obtain ⟨ss, h⟩ := h
  generalize hx : t :: ts = xs at h ⊢
  cases h with
  | nil => cases hx
  | last s => exact ⟨s, List.prefix_refl _⟩
  | cons s _ => exact ⟨s, List.prefix_append _ _⟩

theorem isListed_entry_append {s : Settings} {ts : List Token} :
    IsListed (entryTokens s ++ ts) ↔ ts = [] ∨ ∃ us, ts = .comma :: us ∧ IsListed us := by
  constructor
  · rintro ⟨ss, h⟩
    generalize hx : entryTokens s ++ ts = xs at h
    cases h with
    | nil => cases hx
    | last u =>
      exact Or.inl (entryTokens_append_inj (hx.trans (List.append_nil _).symm)).2
    | cons u h => exact Or.inr ⟨_, (entryTokens_append_inj hx).2, _, h⟩
  · rintro (rfl | ⟨us, rfl, ss, h⟩)
    · rw [List.append_nil]
      exact ⟨_, .last s⟩
    · exact ⟨_, .cons s h⟩

namespace Place

/-- The tokens of the entry that was begun. -/
def begun : Place → List Token
  | beforeString _ values => .openBrace :: values.flatMap fun v => [.string v, .comma]
  | behindString _ values =>
    .openBrace :: (values.flatMap fun v => [.string v, .comma]).dropLast
  | start | behindEntry | recovering => []

def Fits : Place → Prop
  | beforeString _ values => values.length < fieldCount
  | behindString _ values => values ≠ [] ∧ values.length ≤ fieldCount
  | start | behindEntry | recovering => True

theorem begun_behindString (l : Nat) (values : List Text) (v : Text) :
    (behindString l (values ++ [v])).begun = (beforeString l values).begun ++ [.string v] := by
  simp [begun, List.flatMap_append, List.dropLast_append_of_ne_nil]

theorem begun_beforeString {l : Nat} {values : List Text} (h : values ≠ []) :
    (beforeString l values).begun = (behindString l values).begun ++ [.comma] := by
  obtain ⟨us, v, rfl⟩ := List.eq_nil_or_concat values |>.resolve_left h
  simp [begun, List.flatMap_append, List.dropLast_append_of_ne_nil]

theorem begun_closed {l : Nat} {values : List Text} (h : values.length = fieldCount) :
    (behindString l values).begun ++ [.closeBrace] = entryTokens (settingsOf values) := by
  match values, h with
  | [_, _, _, _, _], _ => rfl

theorem openBrace_not_mem_begun_tail (p : Place) : Token.openBrace ∉ p.begun.tail := by
  cases p with
  | beforeString l values => simp [begun]
  | behindString l values =>
    intro h
    have := List.mem_of_mem_dropLast h
    simp at this
  | start | behindEntry | recovering => simp [begun]

theorem closeBrace_not_mem_begun (p : Place) : Token.closeBrace ∉ p.begun := by
  cases p with
  | beforeString l values => simp [begun]
  | behindString l values =>
    intro h
    rcases List.mem_cons.mp h with h | h
    · cases h
    · have := List.mem_of_mem_dropLast h
      simp at this
  | start | behindEntry | recovering => simp [begun]

/-- What a token that is in its place can do. -/
inductive Advance (p : Place) (t : Token) : Place → List Item → Prop where
  | grows {next} : p ≠ behindEntry → next.Fits → next.begun = p.begun ++ [t] →
      Advance p t next []
  | completes {l s} : p.begun ++ [t] = entryTokens s → Advance p t behindEntry [.entry ⟨l, s⟩]
  | separates : p = behindEntry → t = .comma → Advance p t start []
  | skips : p = recovering → t ≠ .openBrace → Advance p t recovering []

theorem accept_advance {p next : Place} {l : Nat} {t : Token} {items : List Item} (hp : p.Fits)
    (h : p.accept? l t = some (next, items)) : p.Advance t next items := by
  unfold accept? at h
  split at h
  · cases h
    exact .grows (by simp) (by simp [Fits, fieldCount]) rfl
  · cases h
    exact .grows (by simp) (by simp [Fits, fieldCount]) rfl
  · rename_i hn
    cases h
    exact .skips rfl hn
  · cases h
    rename_i values v
    refine .grows (by simp) ⟨by simp, ?_⟩ (begun_behindString ..)
    rw [List.length_append]
    exact hp
  · split at h
    · rename_i hl
      cases h
      exact .grows (by simp) hl (begun_beforeString hp.1)
    · cases h
  · split at h
    · cases h
    · rename_i hl
      cases h
      exact .completes (begun_closed (by have := hp.2; omega))
  · cases h
    exact .separates rfl rfl
  · cases h

theorem entryTokens_accept (p : Place) (hp : p.Fits) (hb : p.begun ≠ []) (l : Nat) (s : Settings) :
    ∃ t, (entryTokens s)[p.begun.length]? = some t ∧ p.accept? l t ≠ none := by
  cases p with
  | beforeString m values =>
    match values, hp with
    | [], _ | [_], _ | [_, _], _ | [_, _, _], _ | [_, _, _, _], _ => exact ⟨_, rfl, by simp [accept?]⟩
    | _ :: _ :: _ :: _ :: _ :: _, hp =>
      simp only [Fits, fieldCount, List.length_cons] at hp
      omega
  | behindString m values =>
    match values, hp with
    | [], hp => exact absurd rfl hp.1
    | [_], _ | [_, _], _ | [_, _, _], _ | [_, _, _, _], _ | [_, _, _, _, _], _ =>
      exact ⟨_, rfl, by simp [accept?, fieldCount]⟩
    | _ :: _ :: _ :: _ :: _ :: _ :: _, hp =>
      have := hp.2
      simp only [fieldCount, List.length_cons] at this
      omega
  | start | behindEntry | recovering => exact absurd rfl hb

theorem settingsAt_of_refused {p : Place} {l : Nat} {t : Token} (hp : p.Fits) (hb : p.begun ≠ [])
    (h : p.accept? l t = none) (ts : List Token) : settingsAt? (p.begun ++ t :: ts) = none := by
  rw [Option.eq_none_iff_forall_ne_some]
  intro s hs
  obtain ⟨r, hr⟩ := settingsAt_eq_some_iff.mp hs
  obtain ⟨u, hu, ha⟩ := entryTokens_accept p hp hb l s
  have hx : (entryTokens s ++ r)[p.begun.length]? = some u := by
    rw [List.getElem?_append_left (List.getElem?_eq_some_iff.mp hu).1, hu]
  rw [hr, List.getElem?_append_right (Nat.le_refl _), Nat.sub_self] at hx
  cases hx
  exact ha h

theorem settingsIn_recovered {l : Nat} {t : Token} (ts : List Token) :
    settingsIn ((recovered l t).begun ++ ts) = settingsIn (t :: ts) := by
  by_cases ht : t = .openBrace
  · subst t
    rfl
  · have hr : (recovered l t).begun = [] := by
      cases t <;> first | rfl | exact absurd rfl ht
    rw [hr]
    exact (settingsIn_cons_of_ne ht ts).symm

/-- A token out of place costs the entry that was begun, which could not have become one. -/
theorem settingsIn_refused {p : Place} {l : Nat} {t : Token} (hp : p.Fits)
    (h : p.accept? l t = none) (ts : List Token) :
    settingsIn (p.begun ++ t :: ts) = settingsIn ((recovered l t).begun ++ ts) := by
  rw [settingsIn_recovered]
  by_cases hb : p.begun = []
  · rw [hb, List.nil_append]
  · have hn := settingsAt_of_refused hp hb h ts
    have ho : p.begun = .openBrace :: p.begun.tail := by
      cases p with
      | beforeString | behindString => rfl
      | start | behindEntry | recovering => exact absurd rfl hb
    rw [ho, List.cons_append] at hn ⊢
    exact settingsIn_open_of_none (openBrace_not_mem_begun_tail p) hn

theorem Advance.settingsIn_eq {p next : Place} {t : Token} {items : List Item}
    (h : p.Advance t next items) (ts : List Token) :
    settingsIn (p.begun ++ t :: ts) =
      items.filterMap Item.settings? ++ settingsIn (next.begun ++ ts) := by
  cases h with
  | grows _ _ hn => simp [hn]
  | @completes l s he =>
    have hc : p.begun ++ t :: ts = entryTokens s ++ ts := by rw [← he, List.append_cons]
    rw [hc, settingsIn_entry]
    rfl
  | separates hp ht =>
    subst p t
    exact settingsIn_cons_of_ne (by simp) ts
  | skips hp ht =>
    subst p
    exact settingsIn_cons_of_ne ht ts

theorem Advance.fits {p next : Place} {t : Token} {items : List Item}
    (h : p.Advance t next items) : next.Fits := by
  cases h with
  | grows _ hf _ => exact hf
  | completes | separates | skips => trivial

/-- What may follow at a place. Nothing makes up for a token that was wrong. -/
def Expects (p : Place) (ts : List Token) : Prop :=
  match p with
  | recovering => False
  | behindEntry => ts = [] ∨ ∃ us, ts = .comma :: us ∧ IsListed us
  | start | beforeString _ _ | behindString _ _ => IsListed (p.begun ++ ts)

theorem expects_of_begun {p : Place} (h : p.begun ≠ []) (ts : List Token) :
    p.Expects ts ↔ IsListed (p.begun ++ ts) := by
  cases p with
  | beforeString | behindString => exact Iff.rfl
  | start | behindEntry | recovering => exact absurd rfl h

theorem Advance.expects_iff {p next : Place} {t : Token} {items : List Item}
    (h : p.Advance t next items) (hr : p ≠ recovering) (ts : List Token) :
    p.Expects (t :: ts) ↔ next.Expects ts := by
  cases h with
  | grows hp _ hn =>
    have hb : next.begun ≠ [] := by simp [hn]
    rw [expects_of_begun hb, hn, List.append_assoc, List.singleton_append]
    cases p with
    | start | beforeString | behindString => exact Iff.rfl
    | behindEntry => exact absurd rfl hp
    | recovering => exact absurd rfl hr
  | @completes l s he =>
    have hb : p.begun ≠ [] := by
      intro hb
      simp [hb, entryTokens] at he
    rw [expects_of_begun hb, List.append_cons, he, isListed_entry_append]
    exact Iff.rfl
  | separates hp ht =>
    subst p t
    simp [Expects, begun]
  | skips hp _ => exact absurd hp hr

theorem Advance.next_ne_recovering {p next : Place} {t : Token} {items : List Item}
    (h : p.Advance t next items) (hr : p ≠ recovering) : next ≠ recovering := by
  cases h with
  | grows _ _ hn =>
    rintro rfl
    simp [begun] at hn
  | completes | separates => simp
  | skips hp _ => exact absurd hp hr

theorem Advance.placed {p next : Place} {t : Token} {items : List Item}
    (h : p.Advance t next items) : ∀ i ∈ items, i.isPlaced := by
  cases h with
  | grows | separates | skips => simp
  | completes => simp [Item.isPlaced]

theorem not_expects_of_refused {p : Place} {l : Nat} {t : Token} (hp : p.Fits)
    (h : p.accept? l t = none) (ts : List Token) : ¬ p.Expects (t :: ts) := by
  intro he
  by_cases hb : p.begun = []
  · cases p with
    | start =>
      obtain ⟨s, hs⟩ := IsListed.entry_prefix he
      obtain rfl := (List.cons_prefix_cons.mp hs).1
      simp [accept?] at h
    | behindEntry =>
      rcases he with he | ⟨us, he, -⟩
      · cases he
      · cases he
        simp [accept?] at h
    | recovering => exact he
    | beforeString | behindString => simp [begun] at hb
  · rw [expects_of_begun hb] at he
    obtain ⟨b, bs, hbs⟩ := List.exists_cons_of_ne_nil hb
    have hn := settingsAt_of_refused hp hb h ts
    rw [hbs, List.cons_append] at he hn
    obtain ⟨s, hs⟩ := he.entry_prefix
    rw [settingsAt_eq_some_iff.mpr hs] at hn
    cases hn

theorem expects_nil_iff {p : Place} (hr : p ≠ recovering) : p.Expects [] ↔ p.mayFinish := by
  have key : p.begun ≠ [] → ¬ p.Expects [] := by
    intro hb he
    rw [expects_of_begun hb, List.append_nil] at he
    obtain ⟨b, bs, hbs⟩ := List.exists_cons_of_ne_nil hb
    have hn := closeBrace_not_mem_begun p
    rw [hbs] at he hn
    obtain ⟨s, hs⟩ := he.entry_prefix
    exact hn (hs.subset (by simp [entryTokens]))
  cases p with
  | start => exact iff_of_true ⟨[], .nil⟩ rfl
  | behindEntry => exact iff_of_true (Or.inl rfl) rfl
  | recovering => exact absurd rfl hr
  | beforeString | behindString => exact iff_of_false (key (by simp [begun])) (by simp [mayFinish])

theorem recovered_fits (l : Nat) (t : Token) : (recovered l t).Fits := by
  cases t with
  | openBrace => exact Nat.zero_lt_succ _
  | closeBrace | comma | string | bad | finish => trivial

end Place

theorem settings_lexical (ps : List (Located LexicalProblem)) :
    (ps.map Item.lexical).filterMap Item.settings? = [] := by
  simp [List.filterMap_map, Function.comp_def, Item.settings?]

theorem settings_complaint (p : Place) (l : Nat) (t : Token) :
    (p.complaint l t).settings? = none := by
  cases t <;> rfl

theorem outline_finish {x : Lexeme} (p : Place) (r : List Lexeme) (hf : x.token = .finish) :
    outline p (x :: r) = x.problems.map .lexical ++
      if p.mayFinish then [] else [p.complaint x.line x.token] := by
  simp [outline, hf]

theorem outline_accepted {p next : Place} {x : Lexeme} {items : List Item} (r : List Lexeme)
    (hf : x.token ≠ .finish) (ha : p.accept? x.line x.token = some (next, items)) :
    outline p (x :: r) = x.problems.map .lexical ++ (items ++ outline next r) := by
  simp [outline, hf, ha]

theorem outline_refused {p : Place} {x : Lexeme} (r : List Lexeme) (hf : x.token ≠ .finish)
    (ha : p.accept? x.line x.token = none) :
    outline p (x :: r) = x.problems.map .lexical ++
      p.complaint x.line x.token :: outline (Place.recovered x.line x.token) r := by
  simp [outline, hf, ha]

/-- The entries of an outline stand where the tokens of an entry do, and nowhere else. -/
theorem outline_settings {p : Place} (hp : p.Fits) {xs : List Lexeme} (hx : Ended xs) :
    (outline p xs).filterMap Item.settings? = settingsIn (p.begun ++ tokens xs) := by
  -- The tokens of the entry that was begun stand in front of those that are left.
  induction hx generalizing p with
  | @finish x hf =>
    rw [tokens_cons_finish hf, List.append_nil, settingsIn_eq_nil p.closeBrace_not_mem_begun,
      outline_finish p [] hf, List.filterMap_append, settings_lexical, List.nil_append]
    split
    · rfl
    · simp [settings_complaint]
  | @token x r hf _ ih =>
    rw [tokens_cons hf]
    cases ha : p.accept? x.line x.token with
    | none =>
      rw [outline_refused r hf ha, Place.settingsIn_refused hp ha, ← ih (Place.recovered_fits ..),
        List.filterMap_append, settings_lexical, List.nil_append]
      simp [settings_complaint]
    | some a =>
      obtain ⟨next, items⟩ := a
      have hadv := Place.accept_advance hp ha
      rw [outline_accepted r hf ha, hadv.settingsIn_eq, ← ih hadv.fits, List.filterMap_append,
        settings_lexical, List.nil_append, List.filterMap_append]

theorem complaint_not_placed (p : Place) (l : Nat) (t : Token) :
    (p.complaint l t).isPlaced = false := by
  cases t <;> rfl

theorem lexical_placed (ps : List (Located LexicalProblem)) :
    ∀ i ∈ ps.map Item.lexical, i.isPlaced := by
  intro i hi
  obtain ⟨q, -, rfl⟩ := List.mem_map.mp hi
  rfl

theorem outline_placed_iff {p : Place} (hp : p.Fits) (hr : p ≠ .recovering) {xs : List Lexeme}
    (hx : Ended xs) : (∀ i ∈ outline p xs, i.isPlaced) ↔ p.Expects (tokens xs) := by
  induction hx generalizing p with
  | @finish x hf =>
    rw [tokens_cons_finish hf, Place.expects_nil_iff hr, outline_finish p [] hf,
      List.forall_mem_append, and_iff_right (lexical_placed _)]
    split
    · rename_i hm
      exact iff_of_true (by simp) hm
    · rename_i hm
      exact iff_of_false (by simp [complaint_not_placed]) hm
  | @token x r hf _ ih =>
    rw [tokens_cons hf]
    cases ha : p.accept? x.line x.token with
    | none =>
      rw [outline_refused r hf ha, List.forall_mem_append, List.forall_mem_cons]
      refine iff_of_false ?_ (Place.not_expects_of_refused hp ha _)
      simp [complaint_not_placed]
    | some a =>
      obtain ⟨next, items⟩ := a
      have hadv := Place.accept_advance hp ha
      rw [outline_accepted r hf ha, List.forall_mem_append, and_iff_right (lexical_placed _),
        hadv.expects_iff hr, ← ih hadv.fits (hadv.next_ne_recovering hr), List.forall_mem_append,
        and_iff_right hadv.placed]

theorem outlineOf_settings (t : Text) :
    (outlineOf t).filterMap Item.settings? = settingsIn (tokensOf t) :=
  outline_settings (p := .start) trivial (lexemes_ended 1 t)

theorem outlineOf_placed_iff (t : Text) :
    (∀ i ∈ outlineOf t, i.isPlaced) ↔ IsListed (tokensOf t) :=
  outline_placed_iff (p := .start) trivial (by simp) (lexemes_ended 1 t)

def IsGoodList (ts : List Token) : Prop := ∃ ss, Listed ts ss ∧ ∀ s ∈ ss, s.convert.isGood

theorem outlineOf_fine_iff (t : Text) :
    (outlineOf t).all Item.isFine = true ↔ IsGoodList (tokensOf t) := by
  rw [Item.all_fine_iff, outlineOf_placed_iff, outlineOf_settings]
  constructor
  · rintro ⟨⟨ss, hl⟩, hg⟩
    exact ⟨ss, hl, hl.settingsIn_eq ▸ hg⟩
  · rintro ⟨ss, hl, hg⟩
    exact ⟨⟨ss, hl⟩, hl.settingsIn_eq.symm ▸ hg⟩

/-- Reading appends exactly the entries of eleven tokens in a row whose settings are good, and is
good exactly for a list of entries with good settings. -/
theorem reading_exact_for_grammar {db : Database} {fs : FileSystem} {path t : Text}
    (hb : db.builtin = []) (ht : fs.text? path = some t) :
    (db.addFile fs path).fault = none ∧
    (db.addFile fs path).database = db.appendCustom (goodEntries (settingsIn (tokensOf t))) ∧
    ((db.addFile fs path).isGood = true ↔
      ∃ ss, Listed (tokensOf t) ss ∧ ∀ s ∈ ss, s.convert.isGood) := by
  obtain ⟨m, -, h⟩ := addFile_eq hb ht
  rw [h, outlineOf_settings]
  exact ⟨rfl, rfl, outlineOf_fine_iff t⟩

def begunAgain : Text := "\x7b \"A\", \x7b \"A\", \"^B\", \"\", \"\", \"\" \x7d"

theorem reading_finds_entry_begunAgain :
    (({} : Database).addFile (holding begunAgain) "a.h").database =
      { custom := [(Settings.mk "A" "^B" [] [] []).convert.entry] } ∧
    (({} : Database).addFile (holding begunAgain) "a.h").isGood = false := by
  have hb : ({} : Database).builtin = [] := rfl
  have ht : (holding begunAgain).text? "a.h" = some begunAgain := rfl
  obtain ⟨-, hd, -⟩ := reading_exact_for_grammar hb ht
  have hs : settingsIn (tokensOf begunAgain) = [⟨"A", "^B", [], [], []⟩] := by decide +kernel
  have hg : ∀ s ∈ [Settings.mk "A" "^B" [] [] []], s.convert.isGood = true := by decide +kernel
  refine ⟨?_, by decide +kernel⟩
  rw [hd, hs, goodEntries, List.filter_eq_self.mpr hg]
  rfl

end DriveHealth.Database
