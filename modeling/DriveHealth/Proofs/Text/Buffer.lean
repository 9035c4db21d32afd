import DriveHealth.Text.Buffer
import Mathlib.Data.List.Basic

/-! What actions on a buffer leave in it. A part of the buffer begins with what was written so far, and the
bytes behind the part are never touched. -/
namespace DriveHealth

theorem length_fit_le (size : Nat) (t : Text) : (fit size t).length ≤ size - 1 := by
  rw [fit, List.length_take]
  exact Nat.min_le_left _ _

theorem fit_of_lt {size : Nat} {t : Text} (h : t.length < size) : fit size t = t :=
  List.take_of_length_le (by omega)

/-- Behind a text that fits there is room for a part of the next one. -/
theorem fit_append {size : Nat} {w : Text} (h : w.length < size) (t : Text) :
    fit size (w ++ t) = w ++ fit (size - w.length) t := by
  have room : size - 1 - w.length = size - w.length - 1 := by omega
  rw [fit, fit, List.take_append, List.take_of_length_le (by omega), room]

theorem fit_append_of_le {size : Nat} {w : Text} (h : size - 1 ≤ w.length) (t : Text) :
    fit size (w ++ t) = fit size w := by
  rw [fit, fit, List.take_append_of_le_length h]

theorem not_mem_fit {c : Char} {t : Text} (h : c ∉ t) (size : Nat) : c ∉ fit size t := fun hc =>
  h (List.mem_of_mem_take hc)

namespace Buffer

/-- The first `size` bytes begin with `w`; behind them is `tail`. -/
def Holds (b : Buffer) (size : Nat) (tail w : Text) : Prop :=
  ∃ junk, b = w ++ (junk ++ tail) ∧ w.length + junk.length = size

variable {b : Buffer} {size : Nat} {tail w : Text}

theorem holds_nil (h : size ≤ b.length) : b.Holds size (b.drop size) [] := by
  refine ⟨b.take size, ?_, ?_⟩
  · rw [List.nil_append, List.take_append_drop]
  · rw [List.length_nil, List.length_take, Nat.min_eq_left h, Nat.zero_add]

theorem Holds.start {v : Text} (h : b.Holds size tail (w ++ v)) : b.Holds size tail w := by
  obtain ⟨junk, bytes, room⟩ := h
  refine ⟨v ++ junk, ?_, ?_⟩
  · rw [bytes, List.append_assoc, List.append_assoc]
  · rw [List.length_append] at room ⊢
    omega

theorem Holds.length (h : b.Holds size tail w) : b.length = size + tail.length := by
  obtain ⟨junk, rfl, room⟩ := h
  rw [List.length_append, List.length_append]
  omega

theorem Holds.drop (h : b.Holds size tail w) : b.drop size = tail := by
  obtain ⟨junk, rfl, room⟩ := h
  rw [← List.append_assoc]
  exact List.drop_left' (by rw [List.length_append, room])

/-- What a part holds the whole buffer holds. -/
theorem Holds.widen (h : b.Holds size tail w) : b.Holds (size + tail.length) [] w := by
  obtain ⟨junk, rfl, full⟩ := h
  refine ⟨junk ++ tail, ?_, ?_⟩
  · rw [List.append_nil]
  · rw [List.length_append, ← full, Nat.add_assoc]

theorem Holds.put (h : b.Holds size tail w) (room : w.length < size) (c : Char) :
    ∃ b', b.put? w.length c = some b' ∧ b'.Holds size tail (w ++ [c]) := by
  obtain ⟨junk, rfl, full⟩ := h
  cases junk with
  | nil =>
    rw [List.length_nil] at full
    omega
  | cons d junk =>
    have place : w.length < (w ++ (d :: junk ++ tail)).length := by
      rw [List.length_append, List.cons_append, List.length_cons]
      omega
    refine ⟨_, if_pos place, junk, ?_, ?_⟩
    · rw [List.set_append_right _ _ (Nat.le_refl _), Nat.sub_self, List.append_assoc]
      rfl
    · rw [List.length_append, List.length_singleton, ← full, List.length_cons]
      omega

theorem Holds.putAll {t : Text} (h : b.Holds size tail w) (room : w.length + t.length ≤ size) :
    ∃ b', b.putAll? w.length t = some b' ∧ b'.Holds size tail (w ++ t) := by
  induction t generalizing b w with
  | nil => exact ⟨b, rfl, by rwa [List.append_nil]⟩
  | cons c r ih =>
    rw [List.length_cons] at room
    obtain ⟨b₁, first, h₁⟩ := h.put (by omega) c
    have next : (w ++ [c]).length = w.length + 1 := List.length_append
    obtain ⟨b₂, rest, h₂⟩ := ih h₁ (by omega)
    refine ⟨b₂, ?_, by rwa [List.append_cons]⟩
    rw [putAll?, first]
    rwa [next] at rest

/-- What is printed into a part of the room left is cut to it and ends with a NUL. -/
theorem Holds.print (h : b.Holds size tail w) {n : Nat} (some_room : 0 < n)
    (room : w.length + n ≤ size) (t : Text) :
    ∃ b', b.print? w.length n t = some b' ∧ b'.Holds size tail (w ++ fit n t ++ [nul]) := by
  have fits : w.length + (fit n t ++ [nul]).length ≤ size := by
    have cut := length_fit_le n t
    rw [List.length_append, List.length_singleton]
    omega
  obtain ⟨b', written, h'⟩ := h.putAll fits
  refine ⟨b', ?_, by rwa [List.append_assoc]⟩
  rw [print?, if_neg (by omega)]
  exact written

theorem Holds.text_eq (h : b.Holds size tail (w ++ [nul])) (plain : nul ∉ w) : b.text = w := by
  obtain ⟨junk, rfl, -⟩ := h
  have inside : ∀ c ∈ w, decide (c ≠ nul) = true := by
    intro c hc
    exact decide_eq_true fun end_mark => plain (end_mark ▸ hc)
  rw [text, List.append_assoc, List.takeWhile_append_of_pos inside]
  exact List.append_nil w

end Buffer

end DriveHealth
