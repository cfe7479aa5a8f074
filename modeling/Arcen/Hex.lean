import Arcen.Utf8

/-! Bytes as lowercase hexadecimal text. What is written reads back, at two bytes of text for each byte. -/

namespace Arcen

open List

def hexDigit (value : UInt8) : Char :=
  if value < 10 then Char.ofNat (48 + value.toNat) else Char.ofNat (87 + value.toNat)

def hexValue (digit : UInt8) : Option UInt8 :=
  if 48 ≤ digit ∧ digit ≤ 57 then some (digit - 48)
  else if 97 ≤ digit ∧ digit ≤ 102 then some (digit - 97 + 10)
  else none

/-- Reads the digits two by two; a digit without a partner at the end is left out, as `chunks_exact(2)` does. -/
def parseHex : List UInt8 → Option (List UInt8)
  | high :: low :: rest =>
    match hexValue high, hexValue low, parseHex rest with
    | some high, some low, some bytes => some ((high <<< 4 ||| low) :: bytes)
    | _, _, _ => none
  | _ => some []

variable (byte : UInt8)

def hexPair : List Char := [hexDigit (byte >>> 4), hexDigit (byte &&& 15)]

theorem hexDigit_table : ∀ n : Fin 16,
    (String.utf8EncodeChar (hexDigit (UInt8.ofNat n))).map hexValue = [some (UInt8.ofNat n)] := by decide

theorem byte_halves_table : ∀ n : Fin 256, (UInt8.ofNat n >>> 4).toNat < 16 ∧ (UInt8.ofNat n &&& 15).toNat < 16 ∧
      (UInt8.ofNat n >>> 4) <<< 4 ||| (UInt8.ofNat n &&& 15) = UInt8.ofNat n := by
  decide +kernel

/-- A hex digit is one byte of text, and reads back as its value. -/
theorem exists_hexDigit (h : value.toNat < 16) :
    ∃ digit, String.utf8EncodeChar (hexDigit value) = [digit] ∧ hexValue digit = some value := by
  have ht := hexDigit_table ⟨value.toNat, h⟩
  simpa [map_eq_singleton_iff] using ht

theorem parseHex_hexPair (rest : List UInt8) :
    parseHex ((hexPair byte).flatMap String.utf8EncodeChar ++ rest) = (parseHex rest).map (byte :: ·) := by
  have ht := byte_halves_table ⟨byte.toNat, byte.toNat_lt⟩
  simp only [UInt8.ofNat_toNat] at ht
  obtain ⟨hhigh, hlow, hbyte⟩ := ht
  obtain ⟨_, hhighBytes, hhighValue⟩ := exists_hexDigit hhigh
  obtain ⟨_, hlowBytes, hlowValue⟩ := exists_hexDigit hlow
  simp only [hexPair, flatMap_cons, flatMap_nil, hhighBytes, hlowBytes,
    cons_append, nil_append, parseHex, hhighValue, hlowValue]
  cases parseHex rest with
  | none => rfl
  | some => simp [hbyte]

theorem length_hexPair : ((hexPair byte).flatMap String.utf8EncodeChar).length = 2 := by
  have ht := byte_halves_table ⟨byte.toNat, byte.toNat_lt⟩
  simp only [UInt8.ofNat_toNat] at ht
  obtain ⟨_, hhigh, -⟩ := exists_hexDigit ht.1
  obtain ⟨_, hlow, -⟩ := exists_hexDigit ht.2.1
  simp [hexPair, hhigh, hlow]

theorem parseHex_strBytes_ofList (bytes : List UInt8) :
    (strBytes (String.ofList (bytes.flatMap hexPair))).length = bytes.length * 2 ∧
      parseHex (strBytes (String.ofList (bytes.flatMap hexPair))) = some bytes := by
  rw [strBytes_ofList]
  induction bytes with
  | nil => exact ⟨rfl, rfl⟩
  | cons byte bytes ih =>
    obtain ⟨hlen, hprs⟩ := ih
    rw [flatMap_cons, flatMap_append, parseHex_hexPair, hprs]
    refine ⟨?_, rfl⟩
    rw [length_append, length_hexPair, length_cons]
    omega

end Arcen
