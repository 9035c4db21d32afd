import DriveHealth.Proofs.Bytes
import DriveHealth.Smart.Table
import Mathlib.Data.List.Nodup
import Mathlib.Data.List.Perm.Basic

/-! The two byte orders of a page. Exchanging the bytes of every word turns the reading in one order
into the reading in the other, and nothing else of a page depends on the order. -/
namespace DriveHealth.SmartPage

/-- Where the words of a page begin: the revision, the flags of each record, the offline time, the
capability and the long time of the extended test. -/
def wordOffsets : List Nat :=
  0 :: (List.range 30).map (fun i => 2 + i * AttributeRecord.size + 1) ++ [364, 368, 375]

example : wordOffsets.length = 34 := rfl

/-- The byte with which a byte is exchanged, itself where no word is. -/
def partner (i : Nat) : Nat :=
  if i ∈ wordOffsets then i + 1 else if i ≠ 0 ∧ i - 1 ∈ wordOffsets then i - 1 else i

/-- The bytes of a page with the two bytes of each word exchanged. -/
def exchangeWords (bytes : List UInt8) : List UInt8 :=
  (List.range size).map fun i => byteAt bytes (partner i)

/-- The bytes up to the size of a page, with zeros for those that are missing. -/
def wholePage (buffer : List UInt8) : List UInt8 :=
  buffer.take size ++ List.replicate (size - buffer.length) 0

theorem mem_wordOffsets {o : Nat} :
    o ∈ wordOffsets ↔ o = 0 ∨ (o % 12 = 3 ∧ o < 362) ∨ o = 364 ∨ o = 368 ∨ o = 375 := by
  have flags : (∃ i < 30, 2 + i * 12 + 1 = o) ↔ o % 12 = 3 ∧ o < 362 := by
    constructor
    · rintro ⟨i, hi, rfl⟩
      omega
    · rintro ⟨hm, ho⟩
      exact ⟨o / 12, by omega, by omega⟩
  simp only [wordOffsets, AttributeRecord.size, List.mem_append, List.mem_cons, List.mem_map,
    List.mem_range, List.not_mem_nil, or_false, flags, or_assoc]

theorem partner_word {o : Nat} (h : o ∈ wordOffsets) :
    partner o = o + 1 ∧ partner (o + 1) = o ∧ o + 1 < size := by
  have next : o + 1 ∉ wordOffsets := by
    rw [mem_wordOffsets] at h ⊢
    omega
  have inside : o + 1 < size := by
    rw [mem_wordOffsets] at h
    rw [size]
    omega
  exact ⟨if_pos h, by rw [partner, if_neg next, if_pos ⟨by omega, h⟩, Nat.add_sub_cancel], inside⟩

theorem partner_byte {i : Nat} (h : i ∉ wordOffsets) (h' : i - 1 ∉ wordOffsets) :
    partner i = i := by
  rw [partner, if_neg h, if_neg fun hi => h' hi.2]

theorem partner_partner {i : Nat} (hi : i < size) : partner (partner i) = i ∧ partner i < size := by
  by_cases h : i ∈ wordOffsets
  · obtain ⟨first, second, inside⟩ := partner_word h
    rw [first, second]
    exact ⟨rfl, inside⟩
  · by_cases h' : i ≠ 0 ∧ i - 1 ∈ wordOffsets
    · obtain ⟨first, second, inside⟩ := partner_word h'.2
      rw [Nat.sub_add_cancel (Nat.pos_of_ne_zero h'.1)] at first second
      rw [second, first]
      exact ⟨rfl, by omega⟩
    · have self : partner i = i := by rw [partner, if_neg h, if_neg h']
      rw [self, self]
      exact ⟨rfl, hi⟩

theorem length_exchangeWords (bytes : List UInt8) : (exchangeWords bytes).length = size := by
  rw [exchangeWords, List.length_map, List.length_range]

theorem byteAt_exchangeWords (bytes : List UInt8) {i : Nat} (h : i < size) :
    byteAt (exchangeWords bytes) i = byteAt bytes (partner i) := by
  rw [byteAt, exchangeWords, List.getD_eq_getElem?_getD, List.getElem?_map, List.getElem?_range h]
  rfl

theorem byteAt_exchanged (bytes : List UInt8) {i : Nat} (h : partner i = i) (hi : i < size) :
    byteAt bytes i = byteAt (exchangeWords bytes) i := by
  rw [byteAt_exchangeWords bytes hi, h]

theorem word_exchanged (bytes : List UInt8) {o : Nat} (h : o ∈ wordOffsets) :
    ByteOrder.big.word (byteAt bytes o) (byteAt bytes (o + 1)) =
      ByteOrder.little.word (byteAt (exchangeWords bytes) o) (byteAt (exchangeWords bytes) (o + 1)) := by
  obtain ⟨first, second, inside⟩ := partner_word h
  rw [byteAt_exchangeWords bytes (by omega), byteAt_exchangeWords bytes inside, first, second]
  rfl

theorem record_exchanged (bytes : List UInt8) {i : Nat} (h : i < 30) :
    AttributeRecord.read .big bytes (2 + i * AttributeRecord.size) =
      AttributeRecord.read .little (exchangeWords bytes) (2 + i * AttributeRecord.size) := by
  -- Only the bytes 1 and 2 of a record make a word.
  have byte (k : Nat) (hk : k < 12) (h1 : k ≠ 1) (h2 : k ≠ 2) :
      byteAt bytes (2 + i * AttributeRecord.size + k) =
        byteAt (exchangeWords bytes) (2 + i * AttributeRecord.size + k) := by
    refine byteAt_exchanged bytes (partner_byte ?_ ?_) ?_
    · rw [mem_wordOffsets, AttributeRecord.size]
      omega
    · rw [mem_wordOffsets, AttributeRecord.size]
      omega
    · rw [AttributeRecord.size, size]
      omega
  have flags : 2 + i * AttributeRecord.size + 1 ∈ wordOffsets := by
    refine List.mem_append_left _ (List.mem_cons_of_mem _ (List.mem_map.mpr ⟨i, ?_, rfl⟩))
    exact List.mem_range.mpr h
  rw [AttributeRecord.read, AttributeRecord.read, AttributeRecord.mk.injEq]
  refine ⟨byte 0 (by omega) (by omega) (by omega), word_exchanged bytes flags,
    byte 3 (by omega) (by omega) (by omega), byte 4 (by omega) (by omega) (by omega), ?_,
    byte 11 (by omega) (by omega) (by omega)⟩
  refine congrArg Vector.ofFn (funext fun k => ?_)
  rw [Nat.add_assoc]
  exact byte (5 + k) (by omega) (by omega) (by omega)

/-- Reading in the other order is reading with the words exchanged. -/
theorem ofBytes_big (bytes : List UInt8) :
    ofBytes .big bytes = ofBytes .little (exchangeWords bytes) := by
  have word (o : Nat) (h : o ∈ wordOffsets) :
      ofBytes.wordAt .big bytes o = ofBytes.wordAt .little (exchangeWords bytes) o :=
    word_exchanged bytes h
  have byte (i : Nat) (h : partner i = i) (hi : i < size) := byteAt_exchanged bytes h hi
  rw [ofBytes, ofBytes, SmartPage.mk.injEq]
  refine ⟨word 0 (by decide), ?_, byte 362 (by decide) (by decide), byte 363 (by decide) (by decide),
    word 364 (by decide), byte 366 (by decide) (by decide), byte 367 (by decide) (by decide),
    word 368 (by decide), byte 370 (by decide) (by decide), byte 371 (by decide) (by decide),
    byte 372 (by decide) (by decide), byte 373 (by decide) (by decide),
    byte 374 (by decide) (by decide), word 375 (by decide), ?_, byte 511 (by decide) (by decide)⟩
  · refine congrArg Vector.ofFn (funext fun i => ?_)
    exact record_exchanged bytes i.isLt
  · refine congrArg Vector.ofFn (funext fun i => ?_)
    refine byte (377 + i) (partner_byte ?_ ?_) ?_
    · rw [mem_wordOffsets]
      omega
    · rw [mem_wordOffsets]
      omega
    · rw [size]
      omega

/-! ### A page in memory -/

theorem bytesFrom_zero (bytes : List UInt8) : bytesFrom bytes 0 size = wholePage bytes := by
  apply List.ext_getElem?
  intro i
  rw [wholePage, bytesFrom, List.getElem?_map, List.getElem?_append, List.length_take]
  by_cases hi : i < size
  · rw [List.getElem?_range hi]
    by_cases hb : i < bytes.length
    · rw [if_pos (by omega), List.getElem?_take_of_lt hi, List.getElem?_eq_getElem hb]
      simp [byteAt, List.getElem?_eq_getElem hb]
    · rw [if_neg (by omega), List.getElem?_replicate_of_lt (by omega)]
      simp [byteAt, List.getElem?_eq_none (Nat.le_of_not_lt hb)]
  · rw [if_neg (by omega), List.getElem?_eq_none (by simpa using hi),
      List.getElem?_eq_none (by simp; omega)]
    rfl

theorem record_toBytes (bytes : List UInt8) (o : Nat) :
    (AttributeRecord.read .little bytes o).toBytes = bytesFrom bytes o AttributeRecord.size := by
  have vendor : (AttributeRecord.read .little bytes o).vendor.toList = bytesFrom bytes (o + 5) 6 :=
    toList_ofFn_byteAt bytes (o + 5) 6
  have first : byteAt bytes o :: [byteAt bytes (o + 1), byteAt bytes (o + 2)] ++
      [byteAt bytes (o + 3), byteAt bytes (o + 4)] = bytesFrom bytes o 5 := rfl
  have last : [byteAt bytes (o + 11)] = bytesFrom bytes (o + 11) 1 := rfl
  rw [AttributeRecord.toBytes, vendor, AttributeRecord.read, toLittleEndian_word]
  dsimp only
  rw [first, last, bytesFrom_join rfl, bytesFrom_join rfl]
  rfl

theorem attributes_toBytes (bytes : List UInt8) :
    (ofBytes .little bytes).attributes.toList.flatMap AttributeRecord.toBytes =
      bytesFrom bytes 2 360 := by
  have rows : (ofBytes .little bytes).attributes.toList =
      (List.ofFn fun i : Fin 30 => 2 + i * AttributeRecord.size).map (.read .little bytes) := by
    rw [ofBytes, Vector.toList_ofFn, List.map_ofFn]
    rfl
  rw [rows, List.flatMap_map]
  simp only [record_toBytes]
  exact flatMap_bytesFrom bytes 2 AttributeRecord.size 30

theorem wordBytes_wordAt (bytes : List UInt8) (o : Nat) :
    wordBytes (ofBytes.wordAt .little bytes o) = bytesFrom bytes o 2 := by
  rw [wordBytes, ofBytes.wordAt, toLittleEndian_word]
  rfl

/-- A page that was read in the order of the memory stands there as it was. -/
theorem toBytes_ofBytes (bytes : List UInt8) :
    (ofBytes .little bytes).toBytes = wholePage bytes := by
  have others : (ofBytes .little bytes).others.toList = bytesFrom bytes 377 134 :=
    toList_ofFn_byteAt bytes 377 134
  have states : [byteAt bytes 362, byteAt bytes 363] = bytesFrom bytes 362 2 := rfl
  have offline : [byteAt bytes 366, byteAt bytes 367] = bytesFrom bytes 366 2 := rfl
  have tests : [byteAt bytes 370, byteAt bytes 371, byteAt bytes 372, byteAt bytes 373,
      byteAt bytes 374] = bytesFrom bytes 370 5 := rfl
  have checksum : [byteAt bytes 511] = bytesFrom bytes 511 1 := rfl
  rw [toBytes, attributes_toBytes, others]
  rw [ofBytes]
  dsimp only
  rw [wordBytes_wordAt, wordBytes_wordAt, wordBytes_wordAt, wordBytes_wordAt, states, offline, tests,
    checksum]
  -- Every field is a stretch of the bytes, and each stretch begins where the one before it ends.
  have join (m n : Nat) : bytesFrom bytes 0 m ++ bytesFrom bytes m n = bytesFrom bytes 0 (m + n) :=
    bytesFrom_join (Nat.zero_add m) bytes n
  rw [join 2 360, join 362 2, join 364 2, join 366 2, join 368 2, join 370 5, join 375 2, join 377 134,
    join 511 1]
  exact bytesFrom_zero bytes

theorem byteAt_wholePage (bytes : List UInt8) {i : Nat} (h : i < size) :
    byteAt (wholePage bytes) i = byteAt bytes i := by
  rw [← bytesFrom_zero, byteAt_bytesFrom h, Nat.zero_add]

theorem wholePage_take (bytes : List UInt8) : wholePage (bytes.take size) = wholePage bytes := by
  have missing : size - min size bytes.length = size - bytes.length := by omega
  rw [wholePage, wholePage, List.take_take, Nat.min_self, List.length_take, missing]

theorem wholePage_of_length {bytes : List UInt8} (h : bytes.length = size) :
    wholePage bytes = bytes := by
  rw [wholePage, h, Nat.sub_self, List.replicate_zero, List.append_nil, List.take_of_length_le (Nat.le_of_eq h)]

/-! ### Exchanging words -/

theorem exchangeWords_wholePage (bytes : List UInt8) :
    exchangeWords (wholePage bytes) = exchangeWords bytes := by
  refine List.map_congr_left fun i hi => ?_
  exact byteAt_wholePage bytes (partner_partner (List.mem_range.mp hi)).2

theorem exchangeWords_twice (bytes : List UInt8) :
    exchangeWords (exchangeWords bytes) = wholePage bytes := by
  rw [exchangeWords, ← bytesFrom_zero, bytesFrom]
  refine List.map_congr_left fun i hi => ?_
  obtain ⟨back, inside⟩ := partner_partner (List.mem_range.mp hi)
  rw [byteAt_exchangeWords bytes inside, back, Nat.zero_add]

theorem partner_perm : ((List.range size).map partner).Perm (List.range size) := by
  have distinct : ((List.range size).map partner).Nodup := by
    refine List.Nodup.map_on ?_ List.nodup_range
    intro i hi j hj same
    rw [← (partner_partner (List.mem_range.mp hi)).1, same,
      (partner_partner (List.mem_range.mp hj)).1]
  refine (List.perm_ext_iff_of_nodup distinct List.nodup_range).mpr fun i => ?_
  rw [List.mem_map, List.mem_range]
  constructor
  · rintro ⟨j, hj, rfl⟩
    exact (partner_partner (List.mem_range.mp hj)).2
  · intro hi
    obtain ⟨back, inside⟩ := partner_partner hi
    exact ⟨partner i, List.mem_range.mpr inside, back⟩

theorem checksum_perm {l l' : List UInt8} (h : l.Perm l') : checksum l = checksum l' :=
  h.foldl_eq 0

theorem checksum_exchangeWords (bytes : List UInt8) :
    checksum (exchangeWords bytes) = checksum (wholePage bytes) := by
  have sources : exchangeWords bytes = ((List.range size).map partner).map (byteAt bytes) := by
    rw [List.map_map]
    rfl
  have places : wholePage bytes = (List.range size).map (byteAt bytes) := by
    rw [← bytesFrom_zero, bytesFrom]
    simp only [Nat.zero_add]
  rw [sources, places]
  exact checksum_perm (partner_perm.map _)

/-! ### Reading -/

def Finding.hookCall : Finding → Option Text
  | .badChecksum title => some title
  | .converted _ => none

/-- What the hook for checksum errors is called with. -/
def Reading.hookCalls (r : Reading) : List Text := r.findings.filterMap Finding.hookCall

/-- The page of a caller, who had an older one, after an attempt to read. -/
def pageAfter (old : SmartPage) : Except TooShort Reading → SmartPage
  | .ok r => r.page
  | .error _ => old

/-- What a reading is when there are enough bytes for one. -/
theorem read_of_le {buffer : List UInt8} (order : ByteOrder) (h : tableSize ≤ buffer.length) :
    ∃ r, read order buffer = .ok r ∧ r.page = ofBytes order (buffer.take size) ∧
      r.hookCalls =
        if size ≤ buffer.length ∧ checksum (buffer.take size) ≠ 0 then [title] else [] := by
  refine ⟨_, if_neg (Nat.not_lt.mpr h), rfl, ?_⟩
  rw [Reading.hookCalls, List.filterMap_append]
  have conversion : (if order = .host then [] else [Finding.converted order]).filterMap
      Finding.hookCall = [] := by
    split
    · rfl
    · rfl
  rw [conversion, List.append_nil]
  split
  · rfl
  · rfl

theorem read_of_lt {buffer : List UInt8} (order : ByteOrder) (h : buffer.length < tableSize) :
    read order buffer = .error ⟨buffer.length⟩ := if_pos h

/-- In memory, the reading in the other order has the words exchanged. -/
theorem read_orders {buffer : List UInt8} (enough : tableSize ≤ buffer.length) :
    ∃ little big : Reading, read .little buffer = .ok little ∧ read .big buffer = .ok big ∧
      big.hookCalls = little.hookCalls ∧ little.page.toBytes = wholePage buffer ∧
      big.page.toBytes = exchangeWords little.page.toBytes := by
  obtain ⟨little, hlittle, littlePage, littleCalls⟩ := read_of_le .little enough
  obtain ⟨big, hbig, bigPage, bigCalls⟩ := read_of_le .big enough
  have memory : little.page.toBytes = wholePage buffer := by
    rw [littlePage, toBytes_ofBytes, wholePage_take]
  refine ⟨little, big, hlittle, hbig, bigCalls.trans littleCalls.symm, memory, ?_⟩
  calc big.page.toBytes
      = wholePage (exchangeWords (buffer.take size)) := by
        rw [bigPage, ofBytes_big, toBytes_ofBytes]
    _ = exchangeWords (buffer.take size) := wholePage_of_length (length_exchangeWords _)
    _ = exchangeWords (wholePage (buffer.take size)) := (exchangeWords_wholePage _).symm
    _ = exchangeWords little.page.toBytes := by rw [wholePage_take, memory]

/-- A page that was stored in the other order is read as if it had been stored in this one. -/
theorem read_exchanged {page : List UInt8} (whole : page.length = size) :
    ∃ plain exchanged : Reading,
      read .little page = .ok plain ∧ read .big (exchangeWords page) = .ok exchanged ∧
      exchanged.page = plain.page ∧ exchanged.hookCalls = plain.hookCalls := by
  have length := length_exchangeWords page
  obtain ⟨plain, hplain, plainPage, plainCalls⟩ :=
    read_of_le .little (by rw [whole]; decide : tableSize ≤ page.length)
  obtain ⟨exchanged, hexchanged, exchangedPage, exchangedCalls⟩ :=
    read_of_le .big (by rw [length]; decide : tableSize ≤ (exchangeWords page).length)
  rw [List.take_of_length_le (Nat.le_of_eq whole)] at plainPage plainCalls
  rw [List.take_of_length_le (Nat.le_of_eq length)] at exchangedPage exchangedCalls
  refine ⟨plain, exchanged, hplain, hexchanged, ?_, ?_⟩
  · rw [exchangedPage, ofBytes_big, exchangeWords_twice, wholePage_of_length whole, plainPage]
  · rw [exchangedCalls, plainCalls, checksum_exchangeWords, wholePage_of_length whole, whole, length]

/-- Between the orders lies the exchange of the words, which is its own inverse and leaves the
checksum as it is. A buffer without a whole table is refused in both. -/
theorem byte_orders_differ_by_exchanged_words :
    (∀ buffer : List UInt8, tableSize ≤ buffer.length → ∃ little big : Reading,
      read .little buffer = .ok little ∧ read .big buffer = .ok big ∧
      big.hookCalls = little.hookCalls ∧ little.page.toBytes = wholePage buffer ∧
      big.page.toBytes = exchangeWords little.page.toBytes) ∧
    (∀ page : List UInt8, page.length = size →
      exchangeWords (exchangeWords page) = page ∧ checksum (exchangeWords page) = checksum page ∧
      ∃ plain exchanged : Reading,
        read .little page = .ok plain ∧ read .big (exchangeWords page) = .ok exchanged ∧
        exchanged.page = plain.page ∧ exchanged.hookCalls = plain.hookCalls ∧
        exchanged.page.records.length = plain.page.records.length ∧
        ∀ presets style, exchanged.page.table presets style = plain.page.table presets style) ∧
    ∀ buffer : List UInt8, buffer.length < tableSize → ∀ (order : ByteOrder) (old : SmartPage),
      read order buffer = .error ⟨buffer.length⟩ ∧ pageAfter old (read order buffer) = old := by
  refine ⟨fun buffer => read_orders, fun page whole => ?_, fun buffer short order old => ?_⟩
  · obtain ⟨plain, exchanged, hplain, hexchanged, samePage, sameCalls⟩ := read_exchanged whole
    refine ⟨?_, ?_, plain, exchanged, hplain, hexchanged, samePage, sameCalls, ?_, fun _ _ => ?_⟩
    · rw [exchangeWords_twice, wholePage_of_length whole]
    · rw [checksum_exchangeWords, wholePage_of_length whole]
    · rw [samePage]
    · rw [samePage]
  · rw [read_of_lt order short]
    exact ⟨rfl, rfl⟩

end DriveHealth.SmartPage
