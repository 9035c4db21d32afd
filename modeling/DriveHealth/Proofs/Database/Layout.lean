import DriveHealth.Proofs.Database.EntryList

/-! Databases as people write them. Strings are cut into literals at any place, and blanks and
comments stand between tokens. Whatever the layout is, reading a text gives back the settings that
were written. -/
namespace DriveHealth.Database

inductive Filler where
  | blank (c : Char) (h : c = ' ' ∨ c = '\t' ∨ c = '\r' ∨ c = '\n')
  | lineComment (body : Text) (h : ∀ c ∈ body, c ≠ '\n' ∧ c ≠ nul)
  | blockComment (body : Text) (h : nul ∉ body) (hb : ¬ ['*', '/'] <:+: body)

def Filler.text : Filler → Text
  | blank c _ => [c]
  | lineComment body _ => '/' :: '/' :: (body ++ ['\n'])
  | blockComment body _ _ => '/' :: '*' :: (body ++ ['*', '/'])

def fill (g : List Filler) : Text := g.flatMap Filler.text

/-- Newlines, quotes and backslashes have an escape, all else stands for itself. -/
def escape (c : Char) : Text :=
  if c = '\n' then ['\\', 'n'] else if c = '"' ∨ c = '\\' then ['\\', c] else [c]

def quote (piece : Text) : Text := '"' :: (piece.flatMap escape ++ ['"'])

inductive WrittenString : Text → Text → Prop where
  | last (piece) : WrittenString piece (quote piece)
  | cons (piece) (g : List Filler) {v t} : WrittenString v t →
      WrittenString (piece ++ v) (quote piece ++ fill g ++ t)

inductive WrittenFields : List Text → Text → Prop where
  | last (g h : List Filler) {v t} : WrittenString v t →
      WrittenFields [v] (fill g ++ t ++ fill h)
  | cons (g h : List Filler) {v t vs r} : WrittenString v t → WrittenFields vs r →
      WrittenFields (v :: vs) (fill g ++ t ++ fill h ++ ',' :: r)

def fields (s : Settings) : List Text := [s.family, s.model, s.firmware, s.warning, s.presets]

/-- A database text for a list of settings. A comma behind the last entry is a matter of taste. -/
inductive Written : List Settings → Text → Prop where
  | nil (g : List Filler) : Written [] (fill g)
  | last (g h : List Filler) {s b} : WrittenFields (fields s) b →
      Written [s] (fill g ++ '{' :: (b ++ '}' :: fill h))
  | cons (g h : List Filler) {s b ss r} : WrittenFields (fields s) b → Written ss r →
      Written (s :: ss) (fill g ++ '{' :: (b ++ '}' :: (fill h ++ ',' :: r)))

theorem skipGap_lineComment {body : Text} (h : ∀ c ∈ body, c ≠ '\n' ∧ c ≠ nul) (l : Nat)
    (u : Text) : skipGap .lineComment l (body ++ '\n' :: u) = skipGap .space (l + 1) u := by
  induction body with
  | nil => simp [skipGap]
  | cons c r ih =>
    obtain ⟨hc, hr⟩ := List.forall_mem_cons.mp h
    simp [skipGap, hc, ih hr]

theorem skipGap_blockComment {body : Text} (h : nul ∉ body) (hb : ¬ ['*', '/'] <:+: body)
    (l : Nat) (u : Text) :
    skipGap .blockComment l (body ++ '*' :: '/' :: u) =
      skipGap .space (l + body.count '\n') u := by
  induction body generalizing l with
  | nil => simp [skipGap]
  | cons c r ih =>
    have hc : c ≠ nul := fun hc => h (hc ▸ List.mem_cons_self)
    have hr := ih (fun hm => h (List.mem_cons_of_mem _ hm))
      (fun hi => hb (hi.trans (List.suffix_cons c r).isInfix))
    -- The star of the end cannot be taken for one in the body, nor the other way round.
    have star : ∀ d, c = '*' → r ++ '*' :: '/' :: u ≠ '/' :: d := by
      rintro d rfl hd
      cases r with
      | nil => cases hd
      | cons e r =>
        cases hd
        exact hb ⟨[], r, rfl⟩
    rw [List.cons_append, skipGap]
    · by_cases hn : c = '\n'
      · rw [if_pos hn, hr, hn, List.count_cons_self, Nat.add_assoc, Nat.add_comm 1]
      · rw [if_neg hn, if_neg hc, hr, List.count_cons_of_ne hn]
    · exact star

theorem skipGap_filler (f : Filler) (l : Nat) (u : Text) :
    skipGap .space l (f.text ++ u) = skipGap .space (l + f.text.count '\n') u := by
  cases f with
  | blank c h =>
    rcases h with rfl | rfl | rfl | rfl
    all_goals simp [Filler.text, skipGap]
  | lineComment body h =>
    have hn : body.count '\n' = 0 := List.count_eq_zero.mpr fun hm => (h _ hm).1 rfl
    simp [Filler.text, skipGap, skipGap_lineComment h, hn]
  | blockComment body h hb => simp [Filler.text, skipGap, skipGap_blockComment h hb]

theorem skipGap_fill (g : List Filler) (l : Nat) (u : Text) :
    skipGap .space l (fill g ++ u) = skipGap .space (l + (fill g).count '\n') u := by
  induction g generalizing l with
  | nil => rfl
  | cons f g ih =>
    have hf : fill (f :: g) = f.text ++ fill g := rfl
    rw [hf, List.append_assoc, skipGap_filler, ih, List.count_append, Nat.add_assoc]

def IsSolid (c : Char) : Prop := c = '{' ∨ c = '}' ∨ c = ',' ∨ c = '"'

theorem skipGap_solid {c : Char} (h : IsSolid c) (l : Nat) (u : Text) :
    skipGap .space l (c :: u) = ⟨false, l, c :: u⟩ := by
  rcases h with rfl | rfl | rfl | rfl
  all_goals simp [skipGap]

theorem skipGap_fill_solid {c : Char} (h : IsSolid c) (g : List Filler) (l : Nat) (u : Text) :
    ∃ m, skipGap .space l (fill g ++ c :: u) = ⟨false, m, c :: u⟩ :=
  ⟨_, (skipGap_fill g l _).trans (skipGap_solid h _ u)⟩

theorem readLiteral_quote {piece : Text} (h : nul ∉ piece) (l : Nat) (u : Text) :
    readLiteral l (piece.flatMap escape ++ '"' :: u) = ⟨piece, [], true, l, u⟩ := by
  induction piece with
  | nil => simp [readLiteral]
  | cons c r ih =>
    have hc : c ≠ nul := fun hc => h (hc ▸ List.mem_cons_self)
    have hr := ih fun hm => h (List.mem_cons_of_mem _ hm)
    rw [List.flatMap_cons, List.append_assoc]
    by_cases hn : c = '\n'
    · subst c
      simp [escape, readLiteral, hr, Literal.cons, nul]
    by_cases hq : c = '"' ∨ c = '\\'
    · rcases hq with rfl | rfl
      all_goals simp [escape, readLiteral, hr, Literal.cons, nul]
    · have he : escape c = [c] := by simp [escape, hn, hq]
      obtain ⟨h1, h2⟩ := not_or.mp hq
      rw [he, List.singleton_append, readLiteral, if_neg (not_or.mpr ⟨hc, hn⟩), hr]
      · rfl
      · exact h1
      · exact fun h => absurd h h2
      · exact fun _ _ h => absurd h h2

theorem readLiterals_last {l m n : Nat} {t u r v : Text} (hl : readLiteral l t = ⟨v, [], true, m, u⟩)
    (hg : skipGap .space m u = ⟨false, n, r⟩) (hr : ∀ w, r ≠ '"' :: w) :
    readLiterals l t = ⟨v, [], true, n, r⟩ := by
  rw [readLiterals]
  simp only [hl, hg, if_true]
  split
  · rename_i w hw
    rw [hl, hg] at hw
    exact absurd hw (hr w)
  · rfl

theorem readLiterals_cons {l m n k : Nat} {t u r v w q : Text}
    (hl : readLiteral l t = ⟨v, [], true, m, u⟩)
    (hg : skipGap .space m u = ⟨false, n, '"' :: r⟩)
    (hw : readLiterals n r = ⟨w, [], true, k, q⟩) :
    readLiterals l t = ⟨v ++ w, [], true, k, q⟩ := by
  rw [readLiterals]
  simp only [hl, hg, if_true]
  split
  · rename_i e he
    rw [hl, hg] at he
    cases he
    rw [hw]
    rfl
  · rename_i he
    rw [hl, hg] at he
    exact absurd rfl (he r)

theorem WrittenString.quote_start {v t : Text} (h : WrittenString v t) : ∃ u, t = '"' :: u := by
  cases h with
  | last | cons => exact ⟨_, rfl⟩

theorem readLiterals_written {v t : Text} (h : WrittenString v ('"' :: t)) (hn : nul ∉ v)
    {c : Char} (hc : IsSolid c) (hq : c ≠ '"') (g : List Filler) (l : Nat) (u : Text) :
    ∃ m, readLiterals l (t ++ (fill g ++ c :: u)) = ⟨v, [], true, m, c :: u⟩ := by
  -- One literal at a time, so the text is open behind its first quote.
  generalize hx : '"' :: t = x at h
  induction h generalizing l t with
  | last piece =>
    cases hx
    obtain ⟨m, hm⟩ := skipGap_fill_solid hc g l u
    refine ⟨m, readLiterals_last ?_ hm (by simp [hq])⟩
    rw [List.append_assoc]
    exact readLiteral_quote hn l _
  | @cons piece f v r h ih =>
    cases hx
    obtain ⟨hp, hv⟩ := not_or.mp (mt List.mem_append.mpr hn)
    obtain ⟨w, rfl⟩ := h.quote_start
    have hd : IsSolid '"' := Or.inr (Or.inr (Or.inr rfl))
    obtain ⟨n, hs⟩ := skipGap_fill_solid hd f l (w ++ (fill g ++ c :: u))
    obtain ⟨m, hm⟩ := ih hv n rfl
    refine ⟨m, readLiterals_cons ?_ hs hm⟩
    have hl := readLiteral_quote hp l (fill f ++ '"' :: (w ++ (fill g ++ c :: u)))
    simpa using hl

theorem Mark.isSolid {c : Char} {token : Token} (h : Mark c token) : IsSolid c ∧ c ≠ '"' := by
  cases h with
  | openBrace | closeBrace | comma => simp [IsSolid]

theorem nextLexeme_mark {c : Char} {token : Token} (h : Mark c token) (g : List Filler) (l : Nat)
    (u : Text) : ∃ m, nextLexeme l (fill g ++ c :: u) = ⟨⟨[], m, token⟩, m, u⟩ := by
  obtain ⟨m, hm⟩ := skipGap_fill_solid h.isSolid.1 g l u
  refine ⟨m, ?_⟩
  cases h with
  | openBrace | closeBrace | comma => simp [nextLexeme, hm, Skipped.problems, nul]

theorem nextLexeme_string {v t : Text} (h : WrittenString v t) (hn : nul ∉ v) {c : Char}
    {token : Token} (hc : Mark c token) (f g : List Filler) (l : Nat) (u : Text) :
    ∃ m n, nextLexeme l (fill f ++ (t ++ (fill g ++ c :: u))) =
      ⟨⟨[], m, .string v⟩, n, c :: u⟩ := by
  obtain ⟨w, rfl⟩ := h.quote_start
  have hd : IsSolid '"' := Or.inr (Or.inr (Or.inr rfl))
  obtain ⟨m, hm⟩ := skipGap_fill_solid hd f l (w ++ (fill g ++ c :: u))
  obtain ⟨n, hw⟩ := readLiterals_written h hn hc.isSolid.1 hc.isSolid.2 g m u
  refine ⟨m, n, ?_⟩
  simp [nextLexeme, hm, hw, Skipped.problems, nul]

theorem nextLexeme_end (g : List Filler) (l : Nat) :
    (nextLexeme l (fill g)).lexeme.token = .finish := by
  have hm := skipGap_fill g l []
  rw [List.append_nil] at hm
  simp [nextLexeme, hm, skipGap]

/-- The tokens at the start of a text, whatever line it starts in. -/
def Gives (t : Text) (ts : List Token) (r : Text) : Prop :=
  ∀ l, ∃ m, tokens (lexemes l t) = ts ++ tokens (lexemes m r)

theorem Gives.trans {t u r : Text} {ts us : List Token} (h : Gives t ts u) (k : Gives u us r) :
    Gives t (ts ++ us) r := by
  intro l
  obtain ⟨m, hm⟩ := h l
  obtain ⟨n, hn⟩ := k m
  exact ⟨n, by rw [hm, hn, List.append_assoc]⟩

theorem gives_of_nextLexeme {t r : Text} {token : Token} (hf : token ≠ .finish)
    (h : ∀ l, ∃ m n, nextLexeme l t = ⟨⟨[], m, token⟩, n, r⟩) : Gives t [token] r := by
  intro l
  obtain ⟨m, n, hx⟩ := h l
  have hn : (nextLexeme l t).lexeme.token ≠ .finish := by rwa [hx]
  refine ⟨n, ?_⟩
  rw [lexemes_of_token hn, tokens_cons hn, hx]
  rfl

theorem gives_mark {c : Char} {token : Token} (h : Mark c token) (g : List Filler) (u : Text) :
    Gives (fill g ++ c :: u) [token] u := by
  refine gives_of_nextLexeme (by cases h <;> simp) fun l => ?_
  obtain ⟨m, hm⟩ := nextLexeme_mark h g l u
  exact ⟨m, m, hm⟩

theorem gives_string {v t : Text} (h : WrittenString v t) (hn : nul ∉ v) {c : Char}
    {token : Token} (hc : Mark c token) (f g : List Filler) (u : Text) :
    Gives (fill f ++ (t ++ (fill g ++ c :: u))) [.string v] (c :: u) :=
  gives_of_nextLexeme (by simp) fun l => nextLexeme_string h hn hc f g l u

theorem WrittenFields.gives {vs : List Text} {b : Text} (h : WrittenFields vs b)
    (hn : ∀ v ∈ vs, nul ∉ v) (r : Text) :
    Gives (b ++ '}' :: r) ((vs.map Token.string).intersperse .comma) ('}' :: r) := by
  induction h with
  | @last f g v t h =>
    have hv := gives_string h (hn v List.mem_cons_self) .closeBrace f g r
    simpa using hv
  | @cons f g v t vs u h hvs ih =>
    have hv := gives_string h (hn v List.mem_cons_self) .comma f g (u ++ '}' :: r)
    have hc : Gives (',' :: (u ++ '}' :: r)) [.comma] (u ++ '}' :: r) := gives_mark .comma [] _
    have hr := ih fun w hw => hn w (List.mem_cons_of_mem _ hw)
    obtain ⟨w, ws, rfl⟩ : ∃ w ws, vs = w :: ws := by
      cases hvs with
      | last | cons => exact ⟨_, _, rfl⟩
    simpa using hv.trans (hc.trans hr)

/-- The strings of an entry have no end mark in them. -/
def IsWritable (s : Settings) : Prop := ∀ v ∈ fields s, nul ∉ v

theorem gives_entry {s : Settings} {b : Text} (h : WrittenFields (fields s) b) (hn : IsWritable s)
    (g : List Filler) (r : Text) :
    Gives (fill g ++ '{' :: (b ++ '}' :: r)) (entryTokens s) r := by
  have ho := gives_mark .openBrace g (b ++ '}' :: r)
  have hc : Gives ('}' :: r) [.closeBrace] r := gives_mark .closeBrace [] r
  exact ho.trans ((h.gives hn r).trans hc)

theorem tokens_fill (g : List Filler) (l : Nat) : tokens (lexemes l (fill g)) = [] := by
  have hf := nextLexeme_end g l
  rw [lexemes_of_finish hf, tokens_cons_finish hf]

theorem Written.listed {ss : List Settings} {t : Text} (h : Written ss t)
    (hn : ∀ s ∈ ss, IsWritable s) (l : Nat) : Listed (tokens (lexemes l t)) ss := by
  induction h generalizing l with
  | nil g =>
    rw [tokens_fill]
    exact .nil
  | @last g k s b h =>
    obtain ⟨m, hm⟩ := gives_entry h (hn s List.mem_cons_self) g (fill k) l
    rw [hm, tokens_fill, List.append_nil]
    exact .last s
  | @cons g k s b ss r h _ ih =>
    have hs := gives_entry h (hn s List.mem_cons_self) g (fill k ++ ',' :: r)
    obtain ⟨m, hm⟩ := hs.trans (gives_mark .comma k r) l
    rw [hm, List.append_assoc]
    exact .cons s (ih (fun u hu => hn u (List.mem_cons_of_mem _ hu)) m)

theorem exists_written (ss : List Settings) : ∃ t, Written ss t := by
  have strings (s : Settings) : ∃ b, WrittenFields (fields s) b :=
    ⟨_, .cons [] [] (.last _) (.cons [] [] (.last _) (.cons [] [] (.last _)
      (.cons [] [] (.last _) (.last [] [] (.last _)))))⟩
  induction ss with
  | nil => exact ⟨_, .nil []⟩
  | cons s ss ih =>
    obtain ⟨b, hb⟩ := strings s
    obtain ⟨t, ht⟩ := ih
    exact ⟨_, .cons [] [] hb ht⟩

/-- Reading a written text appends the entries of all settings that are good, in order, and is good
if all of them are. -/
theorem reading_undoes_writing {db : Database} {fs : FileSystem} {path t : Text}
    {ss : List Settings} (hb : db.builtin = []) (ht : fs.text? path = some t) (hw : Written ss t)
    (hn : ∀ s ∈ ss, IsWritable s) :
    (db.addFile fs path).fault = none ∧
    (db.addFile fs path).database =
      { db with custom := db.custom ++ (ss.filter (·.convert.isGood)).map (·.convert.entry) } ∧
    ((db.addFile fs path).isGood = true ↔ ∀ s ∈ ss, s.convert.isGood) := by
  obtain ⟨m, -, h⟩ := addFile_eq hb ht
  have hl : Listed (tokensOf t) ss := hw.listed hn 1
  rw [h, outlineOf_settings, hl.settingsIn_eq]
  refine ⟨rfl, rfl, ?_⟩
  dsimp only
  rw [outlineOf_fine_iff]
  constructor
  · rintro ⟨us, hu, hg⟩
    rwa [← hl.settingsIn_eq, hu.settingsIn_eq]
  · intro hg
    exact ⟨ss, hl, hg⟩

def cutFamily : Settings := { family := "A\"", model := "^B" }

/-- The family is cut in two, with a comment between the literals. -/
def cutFamilyText : Text := "/**/\x7b\"A\" //\"\n\"\\\"\", \"^B\",\"\",\"\",\"\"\x7d,"

theorem written_cutFamily : Written [cutFamily] cutFamilyText := by
  have family : WrittenString cutFamily.family
      (quote "A" ++ fill [.blank ' ' (by decide), .lineComment ['"'] (by simp [nul])] ++
        quote "\"") :=
    .cons "A" _ (.last "\"")
  have strings := WrittenFields.cons [] [] family (.cons [.blank ' ' (by decide)] []
    (.last cutFamily.model) (.cons [] [] (.last []) (.cons [] [] (.last [])
      (.last [] [] (.last [])))))
  exact .cons (s := cutFamily) [.blockComment [] (by decide) (by decide)] [] strings (.nil [])

theorem reading_undoes_writing_cutFamily :
    (({} : Database).addFile (holding cutFamilyText) "a.h").database =
      { custom := [cutFamily.convert.entry] } ∧
    (({} : Database).addFile (holding cutFamilyText) "a.h").isGood = true := by
  have hb : ({} : Database).builtin = [] := rfl
  have ht : (holding cutFamilyText).text? "a.h" = some cutFamilyText := rfl
  have hn : ∀ s ∈ [cutFamily], IsWritable s := by
    unfold IsWritable
    decide +kernel
  have hg : ∀ s ∈ [cutFamily], s.convert.isGood = true := by decide +kernel
  obtain ⟨-, hd, hv⟩ := reading_undoes_writing hb ht written_cutFamily hn
  refine ⟨?_, hv.mpr hg⟩
  rw [hd, List.filter_eq_self.mpr hg]
  rfl

end DriveHealth.Database
