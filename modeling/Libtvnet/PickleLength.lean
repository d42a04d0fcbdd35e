import Libtvnet.Token

/-!
# `pickle_length.h`

The sizes that callers allocate, computed ahead of encoding.  Each function
is shown to give the length of the bytes of its token.
-/

namespace Libtvnet

open Libtvnet.Foundation

def tvnpLengthInteger (x : Int64) : Nat :=
  if x.toInt > 2 ^ 31 - 1 then 9
  else if x.toInt > 2 ^ 15 - 1 then 5
  else if x.toInt > 63 then 3
  else if x.toInt ≥ -58 then 1
  else if x.toInt ≥ -2 ^ 15 then 3
  else if x.toInt ≥ -2 ^ 31 then 5
  else 9

def tvnpLengthFloat (undefined : Binary64 → Int) (x : Binary64) : Nat :=
  if x.integral then
    tvnpLengthInteger (Int64.ofInt (IntegerType.int64.ofBinary undefined x))
  else if fitsFloat x then 5
  else 9

def tvnpLengthNull : Nat := 1

def tvnpLengthCompound (x : Nat) : Nat :=
  if x > 2 ^ 16 - 1 then 5
  else if x > 2 ^ 8 - 1 then 3
  else if x > 0x1c then 2
  else 1

def tvnpLengthString (bufferSize : Nat) : Nat :=
  tvnpLengthCompound bufferSize + bufferSize

/-- A UTF-8 string has a NUL terminator outside of the tag/length field. -/
def tvnpLengthUtf8String (bufferSize : Nat) : Nat :=
  tvnpLengthString bufferSize + 1

def tvnpLengthBinaryString (bufferSize : Nat) : Nat :=
  tvnpLengthString bufferSize

def tvnpLengthList (size : Nat) : Nat := tvnpLengthCompound size

def tvnpLengthDictionary (size : Nat) : Nat := tvnpLengthCompound size

/-! ## Agreement with the wire format -/

theorem tvnpLengthInteger_eq (x : Int64) :
    tvnpLengthInteger x = (Token.integer x).bytes.length := by
  simp only [tvnpLengthInteger, Token.bytes, integerBytes, IntegerType.Holds, IntegerType.min,
    IntegerType.max, IntegerType.int16, IntegerType.int32, if_true]
  -- Both sides are step functions of the number with the same steps.
  by_cases h7 : -58 ≤ x.toInt ∧ x.toInt ≤ 63
  · rw [if_pos h7, if_neg (by omega), if_neg (by omega), if_neg (by omega), if_pos (by omega)]
    rfl
  · rw [if_neg h7]
    by_cases h16 : -2 ^ (16 - 1) ≤ x.toInt ∧ x.toInt ≤ 2 ^ (16 - 1) - 1
    · rw [if_pos h16, if_neg (by omega), if_neg (by omega)]
      split
      · simp
      · rw [if_neg (by omega), if_pos (by omega)]
        simp
    · rw [if_neg h16]
      by_cases h32 : -2 ^ (32 - 1) ≤ x.toInt ∧ x.toInt ≤ 2 ^ (32 - 1) - 1
      · rw [if_pos h32, if_neg (by omega)]
        split
        · simp
        · rw [if_neg (by omega), if_neg (by omega), if_neg (by omega), if_pos (by omega)]
          simp
      · rw [if_neg h32]
        split
        · simp
        · rw [if_neg (by omega), if_neg (by omega), if_neg (by omega), if_neg (by omega),
            if_neg (by omega)]
          simp

theorem tvnpLengthFloat_eq (undefined : Binary64 → Int) (x : Binary64) :
    tvnpLengthFloat undefined x = (Token.ofDouble undefined x).bytes.length := by
  simp only [tvnpLengthFloat, Token.ofDouble]
  split
  · exact tvnpLengthInteger_eq _
  · simp only [Token.bytes, floatBytes]
    split <;> simp

theorem tvnpLengthCompound_eq (control : UInt8) (n : Nat) :
    tvnpLengthCompound n = (compoundBytes control n).length := by
  simp only [tvnpLengthCompound, compoundBytes]
  split_ifs <;> first | omega | simp

theorem tvnpLengthUtf8String_eq (string : List UInt8) :
    tvnpLengthUtf8String string.length = (Token.utf8 string).bytes.length := by
  simp [tvnpLengthUtf8String, tvnpLengthString, Token.bytes, tvnpLengthCompound_eq 0x80,
    Nat.add_assoc]

theorem tvnpLengthBinaryString_eq (string : List UInt8) :
    tvnpLengthBinaryString string.length = (Token.binary string).bytes.length := by
  simp [tvnpLengthBinaryString, tvnpLengthString, Token.bytes, tvnpLengthCompound_eq 0xa0]

theorem tvnpLengthList_eq (count : Nat) :
    tvnpLengthList count = (Token.list count).bytes.length :=
  tvnpLengthCompound_eq _ _

theorem tvnpLengthDictionary_eq (count : Nat) :
    tvnpLengthDictionary count = (Token.dictionary count).bytes.length :=
  tvnpLengthCompound_eq _ _

end Libtvnet
