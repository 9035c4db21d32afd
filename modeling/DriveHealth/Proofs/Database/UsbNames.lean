import DriveHealth.Database.Listing
import DriveHealth.Proofs.Text.Parts
import DriveHealth.Proofs.Text.Trim

/-! Names of adapters. Two scans with three marks come to a cut at the first semicolon: whichever marks
are missing, each name is what stands on its side, without the blanks in front of it. -/
namespace DriveHealth

namespace ScanFormat

theorem marksFrom_literal (i : Nat) (s t : Text) (f : ScanFormat) :
    marksFrom i (s ++ t) (literal s ++ f) = marksFrom (i + s.length) t f := by
  induction s generalizing i with
  | nil => rfl
  | cons c s ih =>
    have step : marksFrom i (c :: s ++ t) (literal (c :: s) ++ f) =
        marksFrom (i + 1) (s ++ t) (literal s ++ f) := if_pos rfl
    rw [step, ih, List.length_cons, Nat.add_right_comm, Nat.add_assoc]

theorem marksFrom_blanks (i : Nat) (t : Text) (f : ScanFormat) :
    marksFrom i t (.blanks :: f) = marksFrom (i + (t.takeWhile isBlank).length) (skipBlanks t) f := by
  have split : (t.takeWhile isBlank).length + (skipBlanks t).length = t.length := by
    rw [← List.length_append, skipBlanks, List.takeWhile_append_dropWhile]
  rw [marksFrom]
  congr 1
  omega

/-- The text at a mark or at the end. -/
theorem marksFrom_upTo_nothing (i : Nat) (c : Char) (behind : Option Text) (f : ScanFormat) :
    marksFrom i (behind.elim [] (c :: ·)) (.upTo c :: f) = [] := by
  cases behind with
  | none => rfl
  | some r => simp [marksFrom]

theorem marksFrom_upTo (i : Nat) {c : Char} {s : Text} (some_char : s ≠ []) (plain : c ∉ s)
    (behind : Option Text) (f : ScanFormat) :
    marksFrom i (s ++ behind.elim [] (c :: ·)) (.upTo c :: f) =
      marksFrom (i + s.length) (behind.elim [] (c :: ·)) f := by
  have others : ∀ d ∈ s, decide (d ≠ c) = true := by
    intro d hd
    exact decide_eq_true fun same => plain (same ▸ hd)
  have stop : (behind.elim [] (c :: ·)).dropWhile (· ≠ c) = behind.elim [] (c :: ·) := by
    cases behind with
    | none => rfl
    | some r => exact List.dropWhile_cons_of_neg (by simp)
  have pos : 0 < s.length := List.length_pos_iff.mpr some_char
  rw [marksFrom]
  simp only [List.dropWhile_append_of_pos others, stop, List.length_append]
  rw [if_pos (by omega), Nat.add_sub_cancel]

end ScanFormat

namespace Family

open ScanFormat

/-- What follows the device: a semicolon, blanks and the mark in front of the bridge. -/
def bridgePart : ScanFormat := [.character ';', .blanks, .mark]

theorem marksFrom_bridgePart (i : Nat) (behind : Option Text) :
    marksFrom i (behind.elim [] (';' :: ·)) bridgePart =
      (behind.map fun r => i + 1 + (r.takeWhile isBlank).length).toList := by
  cases behind with
  | none => rfl
  | some r =>
    rw [Option.elim_some, bridgePart, marksFrom, if_pos rfl, marksFrom_blanks]
    rfl

/-- The mark in front of the bridge leads to the bridge. -/
theorem drop_bridge (front : Text) (r : Text) :
    (front ++ ';' :: r).drop (front.length + 1 + (r.takeWhile isBlank).length) = skipBlanks r := by
  have split : front ++ ';' :: r = front ++ ';' :: r.takeWhile isBlank ++ skipBlanks r := by
    rw [List.append_assoc, List.cons_append, skipBlanks, List.takeWhile_append_dropWhile]
  rw [split]
  apply List.drop_left'
  rw [List.length_append, List.length_cons]
  omega

theorem bridge_eq (front : Text) (behind : Option Text) :
    (((marksFrom front.length (behind.elim [] (';' :: ·)) bridgePart).head?).map
      (front ++ behind.elim [] (';' :: ·)).drop).getD [] = (behind.map skipBlanks).getD [] := by
  rw [marksFrom_bridgePart]
  cases behind with
  | none => rfl
  | some r => exact drop_bridge front r

/-- What stands in front of the first name. -/
def opening (t : Text) : Text := "USB:" ++ t.takeWhile isBlank

theorem opening_append (t : Text) : opening t ++ skipBlanks t = "USB:" ++ t := by
  rw [opening, List.append_assoc, skipBlanks, List.takeWhile_append_dropWhile]

theorem marks_behind_opening (t : Text) (f : ScanFormat) :
    (literal "USB:" ++ .blanks :: f).marks ("USB:" ++ t) =
      marksFrom (opening t).length (skipBlanks t) f := by
  rw [marks, marksFrom_literal, marksFrom_blanks, Nat.zero_add, ← List.length_append]
  rfl

/-- The names are the two sides of the first semicolon. -/
theorem usbNames_eq (t : Text) :
    usbNames ("USB:" ++ t) =
      ⟨(cutAt ';' (skipBlanks t)).1, ((cutAt ';' (skipBlanks t)).2.map skipBlanks).getD []⟩ := by
  have names : namesFormat.marks ("USB:" ++ t) = (opening t).length ::
      marksFrom (opening t).length (skipBlanks t) (.upTo ';' :: .mark :: bridgePart) :=
    marks_behind_opening t _
  have bridge : bridgeFormat.marks ("USB:" ++ t) =
      marksFrom (opening t).length (skipBlanks t) bridgePart := marks_behind_opening t _
  cases cut : cutAt ';' (skipBlanks t) with
  | mk device behind =>
    have text := eq_of_cutAt cut
    rw [usbNames, names, bridge, ← opening_append, text]
    by_cases empty : device = []
    · subst empty
      rw [List.nil_append, marksFrom_upTo_nothing]
      dsimp only
      rw [bridge_eq]
    · rw [marksFrom_upTo _ empty (mark_not_mem_cut cut), marksFrom, ← List.length_append]
      dsimp only
      have start : ((opening t ++ (device ++ behind.elim [] (';' :: ·))).drop (opening t).length).take
          ((opening t ++ device).length - (opening t).length) = device := by
        rw [List.drop_left, List.length_append, Nat.add_sub_cancel_left, List.take_left]
      rw [start, ← List.append_assoc, bridge_eq]

theorem usbNames_of_names {device bridge blanks between : Text} (hd : StartsBare device)
    (plain : ';' ∉ device) (hb : StartsBare bridge) (h : IsBlanks blanks) (h' : IsBlanks between) :
    usbNames ("USB:" ++ blanks ++ device ++ ";" ++ between ++ bridge) = ⟨device, bridge⟩ := by
  have first : StartsBare (device ++ ';' :: (between ++ bridge)) := by
    by_cases empty : device = []
    · subst empty
      intro c hc
      cases hc
      rfl
    · exact hd.append empty _
  have family : "USB:" ++ blanks ++ device ++ ";" ++ between ++ bridge =
      "USB:" ++ (blanks ++ (device ++ ';' :: (between ++ bridge))) := by
    simp only [List.append_assoc]
    rfl
  rw [family, usbNames_eq, skipBlanks_behind h first, cutAt_append plain]
  dsimp only
  rw [Option.map_some, Option.getD_some, skipBlanks_behind h' hb]

end Family

namespace Listing

theorem text_append (above below : List Line) : text (above ++ below) = text above ++ text below :=
  List.flatMap_append

theorem text_rows (title title' t t' : Text) :
    text [.value title t, .value title' t'] = Line.row title t ++ Line.row title' t' := by
  rw [text, List.flatMap_cons, List.flatMap_cons, List.flatMap_nil, List.append_nil]
  rfl

theorem orElse_eq (t other : Text) : orElse t other = if t = [] then other else t := by
  simp only [orElse, List.isEmpty_iff]

end Listing

namespace Entry

open Listing Line

/-- What the listing of an adapter says in front of its names. -/
def linesAboveNames (e : Entry) : List Line :=
  [value "USB Vendor:Product:" e.model.source] ++ (if e.model.isEmpty then [badExpression] else []) ++
    [value "USB bcdDevice:" (orElse e.firmware.source ".*")]

def linesBelowNames (e : Entry) : List Line :=
  value "USB Type" (orElse e.usbType "[unsupported]") ::
    if e.warning.isEmpty then [] else [value "WARNINGS:" e.warning]

theorem lines_of_usb {e : Entry} (usb : Family.isUsb e.family = true) :
    e.lines = e.linesAboveNames ++
      [value "USB Device:" (orElse (Family.usbNames e.family).device "[unknown]"),
       value "USB Bridge:" (orElse (Family.usbNames e.family).bridge "[unknown]")] ++
      e.linesBelowNames := by
  rw [lines, usb, if_pos rfl, if_pos rfl, if_pos rfl, usbLines, linesAboveNames, linesBelowNames]
  simp only [List.append_assoc, List.cons_append, List.nil_append]

/-- An adapter with a bridge but without a device. -/
def bridgeOnly : Entry where
  family := "USB: ;\t Bridge; rev. 2 "
  usbType := "sat"

end Entry

end DriveHealth
