import Mathlib.Data.List.Basic

/-! Byte strings and percent coding: a reserved byte is written as `%` and two hexadecimal
digits, every other byte as itself.
-/

namespace RVision.Text

/-- A string of bytes, which need not be text in any encoding. -/
abbrev ByteString := List UInt8

/-- The bytes of a text in UTF-8. -/
def bytes (text : String) : ByteString := text.toList.flatMap String.utf8EncodeChar

def percent : UInt8 := '%'.toUInt8

def hexDigit (value : UInt8) : UInt8 :=
  if value < 10 then '0'.toUInt8 + value else 'A'.toUInt8 + (value - 10)

def escape (byte : UInt8) : ByteString := [percent, hexDigit (byte / 16), hexDigit (byte % 16)]

/-- The bytes that a writer escapes, at least the percent sign. -/
structure Reserved where
  test : UInt8 → Bool
  test_percent : test percent = true

def percentEncode (reserved : Reserved) (text : ByteString) : ByteString :=
  text.flatMap (fun byte => if reserved.test byte then escape byte else [byte])

/-- What a decoder does on a well-formed text. -/
structure DecodesPercent (decode : ByteString → ByteString) : Prop where
  nil : decode [] = []
  plain (byte : UInt8) (rest : ByteString) :
    byte ≠ percent → decode (byte :: rest) = byte :: decode rest
  escaped (byte : UInt8) (rest : ByteString) : decode (escape byte ++ rest) = byte :: decode rest

/-- Decoding undoes encoding, whatever follows. Witness: induction on the text. -/
theorem DecodesPercent.decode_percentEncode_append {decode : ByteString → ByteString}
    (decodes : DecodesPercent decode) (reserved : Reserved) (text rest : ByteString)
    : decode (percentEncode reserved text ++ rest) = text ++ decode rest := by
  induction text with
  | nil => rfl
  | cons byte text ih =>
      rw [percentEncode, List.flatMap_cons, ← percentEncode, List.append_assoc]
      by_cases escaped : reserved.test byte = true
      · rw [if_pos escaped, decodes.escaped, ih, List.cons_append]
      · have different : byte ≠ percent := by
          intro same
          exact escaped (same ▸ reserved.test_percent)
        rw [if_neg escaped, List.singleton_append, decodes.plain _ _ different, ih,
          List.cons_append]

-----------------------------------------------------------------------------------------
-- A decoder
-----------------------------------------------------------------------------------------

def hexValue (digit : UInt8) : UInt8 :=
  if digit < 'A'.toUInt8 then digit - '0'.toUInt8
  else if digit < 'a'.toUInt8 then digit - 'A'.toUInt8 + 10
  else digit - 'a'.toUInt8 + 10

/-- A percent sign that two bytes do not follow stays. -/
def percentDecode : ByteString → ByteString
  | [] => []
  | [byte] => [byte]
  | [byte, next] => byte :: percentDecode [next]
  | byte :: high :: low :: rest =>
      if byte = percent then (16 * hexValue high + hexValue low) :: percentDecode rest
      else byte :: percentDecode (high :: low :: rest)

theorem hexValue_hexDigit {value : UInt8} (small : value < 16)
    : hexValue (hexDigit value) = value := by
  have all : ∀ digit : Fin 16,
      hexValue (hexDigit (UInt8.ofNat digit.val)) = UInt8.ofNat digit.val := by
    decide
  have digit := all ⟨value.toNat, UInt8.lt_iff_toNat_lt.mp small⟩
  simpa using digit

/-- The two digits of an escape give the byte back. -/
theorem hexValue_escape (byte : UInt8)
    : 16 * hexValue (hexDigit (byte / 16)) + hexValue (hexDigit (byte % 16)) = byte := by
  have bound := byte.toNat_lt
  have high : byte / 16 < 16 := by
    rw [UInt8.lt_iff_toNat_lt, UInt8.toNat_div]
    exact Nat.div_lt_of_lt_mul bound
  have low : byte % 16 < 16 := by
    rw [UInt8.lt_iff_toNat_lt, UInt8.toNat_mod]
    exact Nat.mod_lt _ (by decide)
  rw [hexValue_hexDigit high, hexValue_hexDigit low]
  rw [← UInt8.toNat_inj, UInt8.toNat_add, UInt8.toNat_mul, UInt8.toNat_div, UInt8.toNat_mod]
  have sixteen : UInt8.toNat 16 = 16 := rfl
  rw [sixteen]
  omega

theorem percentDecode_decodes : DecodesPercent percentDecode where
  nil := by simp [percentDecode]
  plain byte rest different := by
    cases rest with
    | nil => simp [percentDecode]
    | cons next rest =>
        cases rest with
        | nil => simp [percentDecode]
        | cons low rest => simp [percentDecode, different]
  escaped byte rest := by
    simp [escape, percentDecode, hexValue_escape]

end RVision.Text
