import DriveHealth.ByteOrder
import Mathlib.Algebra.Group.Nat.Defs
import Mathlib.Data.List.Basic

/-! Words and stretches of a page: what a word is in bytes, and how stretches join. -/
namespace DriveHealth

theorem ByteOrder.toNat_word_little (a b : UInt8) :
    (ByteOrder.little.word a b).toNat = a.toNat + 256 * b.toNat := by
  have ha := a.toNat_lt
  have hb := b.toNat_lt
  have shifted : (b.toUInt16 <<< 8).toNat = b.toNat <<< 8 := by
    rw [UInt16.toNat_shiftLeft, UInt8.toNat_toUInt16]
    change b.toNat <<< 8 % 65536 = b.toNat <<< 8
    rw [Nat.shiftLeft_eq]
    omega
  rw [ByteOrder.word, UInt16.toNat_or, shifted, UInt8.toNat_toUInt16,
    ← Nat.shiftLeft_add_eq_or_of_lt ha, Nat.shiftLeft_eq]
  omega

theorem toLittleEndian_word (a b : UInt8) :
    toLittleEndian 2 (ByteOrder.little.word a b).toNat = [a, b] := by
  have ha := a.toNat_lt
  have hb := b.toNat_lt
  have low : (a.toNat + 256 * b.toNat).toUInt8 = a := by
    apply UInt8.toNat_inj.mp
    rw [Nat.toUInt8, UInt8.toNat_ofNat']
    omega
  have high : ((a.toNat + 256 * b.toNat) / 256).toUInt8 = b := by
    apply UInt8.toNat_inj.mp
    rw [Nat.toUInt8, UInt8.toNat_ofNat']
    omega
  rw [ByteOrder.toNat_word_little, toLittleEndian, toLittleEndian, toLittleEndian, low, high]

theorem bytesFrom_succ (bytes : List UInt8) (o n : Nat) :
    bytesFrom bytes o (n + 1) = byteAt bytes o :: bytesFrom bytes (o + 1) n := by
  rw [bytesFrom, List.range_succ_eq_map, List.map_cons, List.map_map, bytesFrom]
  refine congrArg _ (List.map_congr_left ?_)
  intro i _
  rw [Function.comp_apply, Nat.succ_eq_add_one, Nat.add_right_comm, Nat.add_assoc]

theorem bytesFrom_append (bytes : List UInt8) (o m n : Nat) :
    bytesFrom bytes o m ++ bytesFrom bytes (o + m) n = bytesFrom bytes o (m + n) := by
  induction m generalizing o with
  | zero =>
    rw [Nat.add_zero, Nat.zero_add]
    rfl
  | succ m ih =>
    have ho : o + (m + 1) = o + 1 + m := by omega
    rw [bytesFrom_succ, List.cons_append, ho, ih, Nat.add_right_comm, bytesFrom_succ]

/-- Two stretches in a row, with the place where they meet written in any way. -/
theorem bytesFrom_join {o m p : Nat} (h : o + m = p) (bytes : List UInt8) (n : Nat) :
    bytesFrom bytes o m ++ bytesFrom bytes p n = bytesFrom bytes o (m + n) := by
  rw [← h, bytesFrom_append]

theorem toList_ofFn_byteAt (bytes : List UInt8) (o n : Nat) :
    (Vector.ofFn fun i : Fin n => byteAt bytes (o + i)).toList = bytesFrom bytes o n := by
  rw [Vector.toList_ofFn, bytesFrom]
  apply List.ext_getElem
  · simp
  · intro i _ _
    simp

theorem byteAt_bytesFrom {bytes : List UInt8} {o n i : Nat} (h : i < n) :
    byteAt (bytesFrom bytes o n) i = byteAt bytes (o + i) := by
  rw [byteAt, bytesFrom, List.getD_eq_getElem?_getD, List.getElem?_map, List.getElem?_range h]
  rfl

theorem length_bytesFrom (bytes : List UInt8) (o n : Nat) : (bytesFrom bytes o n).length = n := by
  rw [bytesFrom, List.length_map, List.length_range]

/-- Bytes that agree over a stretch make equal stretches, and the other way round. -/
theorem bytesFrom_eq_iff {a b : List UInt8} {o n : Nat} :
    bytesFrom a o n = bytesFrom b o n ↔ ∀ i < n, byteAt a (o + i) = byteAt b (o + i) := by
  constructor
  · intro h i hi
    rw [← byteAt_bytesFrom hi, h, byteAt_bytesFrom hi]
  · intro h
    exact List.map_congr_left fun i hi => h i (List.mem_range.mp hi)

theorem take_append_of_length {a : List UInt8} {n : Nat} (h : a.length = n) (b : List UInt8) (more : Nat) :
    (a ++ b).take (n + more) = a ++ b.take more := by
  rw [← h, List.take_length_add_append]

theorem take_eq_of_byteAt {a b : List UInt8} (length : a.length = b.length) {n : Nat}
    (h : ∀ i < n, byteAt a i = byteAt b i) : a.take n = b.take n := by
  apply List.ext_getElem
  · rw [List.length_take, List.length_take, length]
  · intro i ha hb
    rw [List.length_take] at ha hb
    have same := h i (by omega)
    rw [byteAt, byteAt, List.getD_eq_getElem?_getD, List.getD_eq_getElem?_getD,
      List.getElem?_eq_getElem (by omega), List.getElem?_eq_getElem (by omega)] at same
    rw [List.getElem_take, List.getElem_take]
    exact same

/-- Equal stretches in a row make one equal stretch. -/
theorem bytesFrom_eq_join {a b : List UInt8} {o m p n : Nat} (hp : o + m = p)
    (h : bytesFrom a o m = bytesFrom b o m) (h' : bytesFrom a p n = bytesFrom b p n) :
    bytesFrom a o (m + n) = bytesFrom b o (m + n) := by
  rw [← bytesFrom_join hp, ← bytesFrom_join hp, h, h']

theorem bytesFrom_one (bytes : List UInt8) (o : Nat) : bytesFrom bytes o 1 = [byteAt bytes o] := rfl

/-! ### Numbers in a page tell their bytes -/

theorem littleEndian_injective {a b : List UInt8} (length : a.length = b.length)
    (h : littleEndian a = littleEndian b) : a = b := by
  induction a generalizing b with
  | nil => exact (List.length_eq_zero_iff.mp length.symm).symm
  | cons x a ih =>
    cases b with
    | nil => cases length
    | cons y b =>
      have hx := x.toNat_lt
      have hy := y.toNat_lt
      rw [littleEndian, littleEndian] at h
      have low : x = y := UInt8.toNat_inj.mp (by omega)
      have high : littleEndian a = littleEndian b := by omega
      rw [low, ih (Nat.succ.inj length) high]

theorem littleEndian_append (a b : List UInt8) :
    littleEndian (a ++ b) = littleEndian a + Nat.pow 256 a.length * littleEndian b := by
  induction a with
  | nil => simp [littleEndian]
  | cons c a ih =>
    have power : Nat.pow 256 (a.length + 1) = Nat.pow 256 a.length * 256 := rfl
    rw [List.cons_append, littleEndian, littleEndian, ih, List.length_cons, power, Nat.mul_add,
      Nat.mul_comm _ 256, Nat.mul_assoc, Nat.add_assoc]

theorem littleEndian_bytesFrom_lt (bytes : List UInt8) (o n : Nat) :
    littleEndian (bytesFrom bytes o n) < 256 ^ n := by
  have h := littleEndian_lt (bytesFrom bytes o n)
  rwa [length_bytesFrom] at h

theorem littleEndian_bytesFrom_inj {a b : List UInt8} {o n : Nat}
    (h : littleEndian (bytesFrom a o n) = littleEndian (bytesFrom b o n)) :
    bytesFrom a o n = bytesFrom b o n :=
  littleEndian_injective (by rw [length_bytesFrom, length_bytesFrom]) h

theorem littleEndian_toLittleEndian (width n : Nat) :
    littleEndian (toLittleEndian width n) = n % 256 ^ width := by
  induction width generalizing n with
  | zero => rw [Nat.pow_zero, Nat.mod_one, toLittleEndian, littleEndian]
  | succ width ih =>
    have low : n.toUInt8.toNat = n % 256 := UInt8.toNat_ofNat'
    rw [toLittleEndian, littleEndian, ih, low, Nat.pow_succ', Nat.mod_mul]

theorem word_toLittleEndian_inj {v w : UInt16}
    (h : toLittleEndian 2 v.toNat = toLittleEndian 2 w.toNat) : v = w := by
  have fits (u : UInt16) : littleEndian (toLittleEndian 2 u.toNat) = u.toNat := by
    rw [littleEndian_toLittleEndian]
    exact Nat.mod_eq_of_lt u.toNat_lt
  apply UInt16.toNat_inj.mp
  rw [← fits v, h, fits w]

theorem u16At_inj {a b : List UInt8} {o : Nat} (h : u16At a o = u16At b o) :
    bytesFrom a o 2 = bytesFrom b o 2 := by
  apply littleEndian_bytesFrom_inj
  have fits (c : List UInt8) : (u16At c o).toNat = littleEndian (bytesFrom c o 2) :=
    Nat.mod_eq_of_lt (littleEndian_bytesFrom_lt c o 2)
  rw [← fits, h, fits]

theorem u32At_inj {a b : List UInt8} {o : Nat} (h : u32At a o = u32At b o) :
    bytesFrom a o 4 = bytesFrom b o 4 := by
  apply littleEndian_bytesFrom_inj
  have fits (c : List UInt8) : (u32At c o).toNat = littleEndian (bytesFrom c o 4) :=
    Nat.mod_eq_of_lt (littleEndian_bytesFrom_lt c o 4)
  rw [← fits, h, fits]

/-- Records of one size in a row. -/
theorem flatMap_bytesFrom (bytes : List UInt8) (o width n : Nat) :
    (List.ofFn fun i : Fin n => o + i * width).flatMap (fun p => bytesFrom bytes p width) =
      bytesFrom bytes o (n * width) := by
  induction n with
  | zero => simp [bytesFrom]
  | succ n ih =>
    rw [List.ofFn_succ_last, List.flatMap_append, Fin.val_last, List.flatMap_singleton, Nat.succ_mul]
    simp only [Fin.val_castSucc]
    rw [ih, bytesFrom_append]

end DriveHealth
