/-
  `percent_decode` (`src/caldav/report.rs`) and the escapes of a URL.

  In a URL a character may be written as an escape of each of its UTF-8 bytes. The decoder makes
  one character of every escape, so an escaped character beyond ASCII comes out as several
  (`WrittenChar.length_latin`); ASCII is read as it is meant. It takes the two characters behind
  a `%` before it looks at them, and drops them where they are not digits: a text without
  escapes is left alone only if nothing stands behind a `%` (`percentDecode_eq_self`).
-/
import CaldavMcp.Caldav.Segments

namespace CaldavMcp

open Utf8

/-! ## What is written -/

/-- An escape, with digits of either case. -/
structure HexEscape where
  h1 : Char
  h2 : Char
  byte : Nat
  hex : hexPair h1 h2 = some byte

def HexEscape.text (e : HexEscape) : List Char := ['%', e.h1, e.h2]

/-- A character as it is written: itself, or an escape for each of its bytes. A percent sign is
    always escaped. -/
inductive WrittenChar where
  | plain (c : Char) (literal : c ≠ '%')
  | escaped (c : Char) (escapes : List HexEscape)
    (bytes : escapes.map (fun e => UInt8.ofNat e.byte) = String.utf8EncodeChar c)

namespace WrittenChar

/-- The character that is meant. -/
def char : WrittenChar → Char
  | plain c _ => c
  | escaped c _ _ => c

def text : WrittenChar → List Char
  | plain c _ => [c]
  | escaped _ escapes _ => escapes.flatMap HexEscape.text

/-- What the decoder makes of it. -/
def latin : WrittenChar → List Char
  | plain c _ => [c]
  | escaped _ escapes _ => escapes.map fun e => Char.ofNat e.byte

/-- A character beyond ASCII is not escaped. -/
def Ascii : WrittenChar → Prop
  | plain _ _ => True
  | escaped c _ _ => c.toNat < 128

end WrittenChar

/-- No `%` is followed by two hexadecimal digits. -/
def NoEscape (s : List Char) : Prop :=
  ∀ front h1 h2 rest, s = front ++ '%' :: h1 :: h2 :: rest → hexPair h1 h2 = none

/-- What the decoder may be given: a text with some of its characters escaped, or one without
    escapes. -/
inductive DecoderInput where
  | written (chars : List WrittenChar)
  | bare (s : List Char) (none : NoEscape s)

namespace DecoderInput

def text : DecoderInput → List Char
  | written chars => chars.flatMap WrittenChar.text
  | bare s _ => s

/-- What it stands for. -/
def meant : DecoderInput → List Char
  | written chars => chars.map WrittenChar.char
  | bare s _ => s

/-- Only ASCII is escaped, and nothing but an escape stands behind a `%`. -/
def Readable : DecoderInput → Prop
  | written chars => ∀ w ∈ chars, w.Ascii
  | bare s _ => '%' ∉ s.dropLast

end DecoderInput

/-! ## What is read -/

section

variable {rest : List Char}

theorem percentDecode_escapes (escapes : List HexEscape) (rest : List Char) :
    percentDecode (escapes.flatMap HexEscape.text ++ rest) =
      (escapes.map fun e => Char.ofNat e.byte) ++ percentDecode rest := by
  induction escapes with
  | nil => rfl
  | cons e escapes ih =>
    rw [List.flatMap_cons, List.append_assoc, List.map_cons, List.cons_append, ← ih]
    exact percentDecode_escape e.hex _

theorem percentDecode_written (chars : List WrittenChar) :
    percentDecode (chars.flatMap WrittenChar.text) = chars.flatMap WrittenChar.latin := by
  induction chars with
  | nil => rfl
  | cons w chars ih =>
    rw [List.flatMap_cons, List.flatMap_cons, ← ih]
    cases w with
    | plain c literal => exact percentDecode_plain literal _
    | escaped c escapes bytes => exact percentDecode_escapes escapes _

namespace WrittenChar

/-- One character for each byte. -/
theorem length_latin (w : WrittenChar) : 1 ≤ w.latin.length ∧ (w.latin.length = 1 ↔ w.Ascii) := by
  cases w with
  | plain c literal => exact ⟨le_refl 1, iff_of_true rfl trivial⟩
  | escaped c escapes bytes =>
    have hlength : (latin (.escaped c escapes bytes)).length = c.utf8Size := by
      have hbytes := congrArg List.length bytes
      rw [List.length_map, String.length_utf8EncodeChar] at hbytes
      rw [← hbytes]
      exact List.length_map _
    rw [hlength]
    refine ⟨Char.utf8Size_pos c, ?_⟩
    rw [Char.utf8Size_eq_one_iff, UInt32.le_iff_toNat_le]
    exact Nat.lt_succ_iff.symm

/-- ASCII is read as it is meant. -/
theorem latin_of_ascii {w : WrittenChar} (h : w.Ascii) : w.latin = [w.char] := by
  cases w with
  | plain c literal => rfl
  | escaped c escapes bytes =>
    have hascii : c.toNat < 128 := h
    rw [encodeChar_of_ascii hascii] at bytes
    obtain ⟨e, rfl, hbyte⟩ := List.map_eq_singleton_iff.mp bytes
    have hnat := congrArg UInt8.toNat hbyte
    rw [toNat_ofNat (hexPair_lt e.hex), toNat_ofNat (by omega)] at hnat
    show [Char.ofNat e.byte] = [c]
    rw [hnat, Char.ofNat_toNat]

end WrittenChar

theorem length_flatMap_latin (chars : List WrittenChar) :
    chars.length ≤ (chars.flatMap WrittenChar.latin).length ∧
      ((chars.flatMap WrittenChar.latin).length = chars.length → ∀ w ∈ chars, w.Ascii) := by
  induction chars with
  | nil => exact ⟨le_refl 0, fun _ => List.forall_mem_nil _⟩
  | cons w chars ih =>
    obtain ⟨hone, hascii⟩ := w.length_latin
    obtain ⟨hle, hall⟩ := ih
    rw [List.flatMap_cons, List.length_append, List.length_cons, List.forall_mem_cons]
    refine ⟨by omega, fun h => ?_⟩
    exact ⟨hascii.mp (by omega), hall (by omega)⟩

/-- **The decoder of a multiget.** It reads a URL text as it is meant exactly when only ASCII
    characters are escaped, and a text without escapes exactly when nothing is behind a `%`. -/
theorem percentDecode_iff (i : DecoderInput) : percentDecode i.text = i.meant ↔ i.Readable := by
  cases i with
  | bare s none => exact percentDecode_eq_self
  | written chars =>
    show percentDecode (chars.flatMap WrittenChar.text) = chars.map WrittenChar.char ↔
      ∀ w ∈ chars, w.Ascii
    rw [percentDecode_written]
    constructor
    · intro h
      apply (length_flatMap_latin chars).2
      rw [h, List.length_map]
    · intro h
      rw [← List.flatMap_singleton' (chars.map WrittenChar.char), List.flatMap_map]
      exact List.flatMap_congr fun w hw => WrittenChar.latin_of_ascii (h w hw)

end

theorem hexPair_c3 : hexPair 'C' '3' = some 195 := by decide

theorem hexPair_a9 : hexPair 'A' '9' = some 169 := by decide

/-- `%C3%A9`. -/
def escapedE : WrittenChar :=
  .escaped 'é' [⟨'C', '3', 195, hexPair_c3⟩, ⟨'A', '9', 169, hexPair_a9⟩] (by decide)

/-- An escaped `é` is read as two characters. -/
theorem accent_misread : ¬ ∀ i : DecoderInput, percentDecode i.text = i.meant := by
  intro h
  have haccent := h (.written [escapedE])
  revert haccent
  decide

/-- The two characters behind a `%` are lost, or with a sign in front are read as a number. -/
example : percentDecode "100%, really".toList = "100%really".toList ∧
    percentDecode "%+A".toList = "\n".toList := by decide

end CaldavMcp
