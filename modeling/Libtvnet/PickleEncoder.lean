import Libtvnet.Token

/-!
# `pickle_encoder.h`

The encoders store at the offset of the buffer without a bounds check, so
they have no outcome where the block is too small.  Every one of them is
shown to append the bytes of its token and nothing else.
-/

namespace Libtvnet

open Libtvnet.Foundation

def tvnpEncodeIntegerMacro (buffer : TvuBuffer) (contr : UInt8) (x : Int) (bitSize : Nat) :
    Option TvuBuffer := do
  let buffer ← buffer.store buffer.offset [contr]
  let buffer ← buffer.store (buffer.offset + 1) (tvuSetBeI bitSize x)
  some (buffer.skip (bitSize / 8 + 1))

def tvnpEncodeFloatMacro {F : Format} (buffer : TvuBuffer) (contr : UInt8) (x : Binary F)
    (bitSize : Nat) : Option TvuBuffer := do
  let buffer ← buffer.store buffer.offset [contr]
  let buffer ← buffer.store (buffer.offset + 1) (tvuSetBeF bitSize x)
  some (buffer.skip (bitSize / 8 + 1))

/-- `buffer->data[buffer->offset++] = x`. -/
def tvnpEncodeByte (buffer : TvuBuffer) (x : UInt8) : Option TvuBuffer := do
  let buffer ← buffer.store buffer.offset [x]
  some (buffer.skip 1)

def tvnpEncodeInteger (buffer : TvuBuffer) (x : Int64) : Option TvuBuffer :=
  if x.toInt > 2 ^ 31 - 1 then tvnpEncodeIntegerMacro buffer 0x43 x.toInt 64
  else if x.toInt > 2 ^ 15 - 1 then tvnpEncodeIntegerMacro buffer 0x44 x.toInt 32
  else if x.toInt > 63 then tvnpEncodeIntegerMacro buffer 0x45 x.toInt 16
  else if x.toInt ≥ -58 then tvnpEncodeByte buffer (x.toUInt64 &&& 0x7f).toUInt8
  else if x.toInt ≥ -2 ^ 15 then tvnpEncodeIntegerMacro buffer 0x45 x.toInt 16
  else if x.toInt ≥ -2 ^ 31 then tvnpEncodeIntegerMacro buffer 0x44 x.toInt 32
  else tvnpEncodeIntegerMacro buffer 0x43 x.toInt 64

def tvnpEncodeFloat (undefined : Binary64 → Int) (buffer : TvuBuffer) (x : Binary64) :
    Option TvuBuffer :=
  let y : Binary32 := x.convert
  if x.integral then
    tvnpEncodeInteger buffer (Int64.ofInt (IntegerType.int64.ofBinary undefined x))
  else if (y.convert : Binary64).eq x then tvnpEncodeFloatMacro buffer 0x42 y 32
  else tvnpEncodeFloatMacro buffer 0x41 x 64

def tvnpEncodeNull (buffer : TvuBuffer) : Option TvuBuffer :=
  tvnpEncodeByte buffer 0x40

def tvnpEncodeCompound (buffer : TvuBuffer) (c : UInt8) (x : UInt32) : Option TvuBuffer :=
  if x.toNat > 2 ^ 16 - 1 then tvnpEncodeIntegerMacro buffer (c ||| 0x1f) x.toNat 32
  else if x.toNat > 2 ^ 8 - 1 then tvnpEncodeIntegerMacro buffer (c ||| 0x1e) x.toNat 16
  else if x.toNat > 0x1c then tvnpEncodeIntegerMacro buffer (c ||| 0x1d) x.toNat 8
  else tvnpEncodeByte buffer (c ||| x.toUInt8)

/-- The source of the `memcpy` holds at least `stringSize` bytes, or there is no outcome. -/
def tvnpEncodeString (buffer : TvuBuffer) (c : UInt8) (string : List UInt8)
    (stringSize : UInt32) : Option TvuBuffer := do
  let buffer ← tvnpEncodeCompound buffer c stringSize
  if stringSize.toNat ≤ string.length then
    let buffer ← buffer.store buffer.offset (string.take stringSize.toNat)
    some (buffer.skip stringSize.toNat)
  else none

def tvnpEncodeUtf8StringAndSize (buffer : TvuBuffer) (string : List UInt8)
    (stringSize : UInt32) : Option TvuBuffer := do
  let buffer ← tvnpEncodeString buffer 0x80 string stringSize
  tvnpEncodeByte buffer 0

/-- The string is a C string, given without its NUL; `strlen` is truncated to 32 bits. -/
def tvnpEncodeUtf8String (buffer : TvuBuffer) (string : List UInt8) : Option TvuBuffer :=
  tvnpEncodeUtf8StringAndSize buffer string (UInt32.ofNat string.length)

def tvnpEncodeBinaryString (buffer : TvuBuffer) (string : List UInt8) (stringSize : UInt32) :
    Option TvuBuffer :=
  tvnpEncodeString buffer 0xa0 string stringSize

def tvnpEncodeList (buffer : TvuBuffer) (size : UInt32) : Option TvuBuffer :=
  tvnpEncodeCompound buffer 0xc0 size

def tvnpEncodeDictionary (buffer : TvuBuffer) (size : UInt32) : Option TvuBuffer :=
  tvnpEncodeCompound buffer 0xe0 size

/-! ## What the encoders append -/

theorem tvnpEncodeByte_eq (buffer : TvuBuffer) (x : UInt8) :
    tvnpEncodeByte buffer x = buffer.append [x] := by
  rw [tvnpEncodeByte, TvuBuffer.append, Option.map_eq_bind]
  rfl

theorem tvnpEncodeIntegerMacro_eq (buffer : TvuBuffer) (contr : UInt8) (x : Int)
    (bitSize : Nat) :
    tvnpEncodeIntegerMacro buffer contr x bitSize =
      buffer.append (contr :: tvuSetBeI bitSize x) := by
  have hstores := buffer.store_store_skip [contr] (tvuSetBeI bitSize x) (by simp)
  rw [List.length_singleton, length_tvuSetBeI, Nat.add_comm 1] at hstores
  exact hstores

theorem tvnpEncodeFloatMacro_eq {F : Format} (buffer : TvuBuffer) (contr : UInt8)
    (x : Binary F) (bitSize : Nat) :
    tvnpEncodeFloatMacro buffer contr x bitSize =
      buffer.append (contr :: tvuSetBeF bitSize x) := by
  have hstores := buffer.store_store_skip [contr] (tvuSetBeF bitSize x) (by simp)
  rw [List.length_singleton, length_tvuSetBeF, Nat.add_comm 1] at hstores
  exact hstores

private theorem low_seven (x : Int64) :
    (x.toUInt64 &&& 0x7f).toUInt8 = UInt8.ofNat (truncate 7 x.toInt) := by
  have hmask : (x.toUInt64 &&& 0x7f).toNat = x.toUInt64.toNat % 2 ^ 7 := by
    rw [UInt64.toNat_and, ← Nat.and_two_pow_sub_one_eq_mod]
    rfl
  have hword : x.toInt % (2 ^ 7 : Nat) = (x.toUInt64.toNat % 2 ^ 7 : Nat) := by
    have hsigned : x.toInt = Int.bmod x.toUInt64.toNat (2 ^ 64) := by
      rw [← Int64.toInt_toBitVec, BitVec.toInt_eq_toNat_bmod]
      rfl
    rw [hsigned]
    simp only [Int.bmod]
    omega
  apply UInt8.toNat_inj.mp
  rw [UInt64.toNat_toUInt8, hmask, truncate, hword, Int.toNat_natCast]
  simp

theorem tvnpEncodeInteger_eq (buffer : TvuBuffer) (x : Int64) :
    tvnpEncodeInteger buffer x = buffer.append (Token.integer x).bytes := by
  simp only [tvnpEncodeInteger, Token.bytes, integerBytes, IntegerType.Holds, IntegerType.min,
    IntegerType.max, IntegerType.int16, IntegerType.int32, if_true,
    tvnpEncodeIntegerMacro_eq, tvnpEncodeByte_eq, low_seven]
  -- The signed ranges of the wire format are each split in two by the encoder.
  by_cases h7 : -58 ≤ x.toInt ∧ x.toInt ≤ 63
  · rw [if_neg (by omega), if_neg (by omega), if_neg (by omega), if_pos (by omega), if_pos h7]
  · rw [if_neg h7]
    by_cases h16 : -2 ^ (16 - 1) ≤ x.toInt ∧ x.toInt ≤ 2 ^ (16 - 1) - 1
    · rw [if_pos h16, if_neg (by omega), if_neg (by omega)]
      split
      · rfl
      · rw [if_neg (by omega), if_pos (by omega)]
    · rw [if_neg h16]
      by_cases h32 : -2 ^ (32 - 1) ≤ x.toInt ∧ x.toInt ≤ 2 ^ (32 - 1) - 1
      · rw [if_pos h32, if_neg (by omega)]
        split
        · rfl
        · rw [if_neg (by omega), if_neg (by omega), if_neg (by omega), if_pos (by omega)]
      · rw [if_neg h32]
        split
        · rfl
        · rw [if_neg (by omega), if_neg (by omega), if_neg (by omega), if_neg (by omega),
            if_neg (by omega)]

theorem tvnpEncodeFloat_eq (undefined : Binary64 → Int) (buffer : TvuBuffer) (x : Binary64) :
    tvnpEncodeFloat undefined buffer x =
      buffer.append (Token.ofDouble undefined x).bytes := by
  simp only [tvnpEncodeFloat, Token.ofDouble]
  split
  · exact tvnpEncodeInteger_eq _ _
  · have htest : ((x.convert : Binary32).convert : Binary64).eq x = fitsFloat x := rfl
    rw [Token.bytes, floatBytes, htest]
    by_cases hfits : fitsFloat x = true
    · rw [if_pos hfits, if_pos hfits, tvnpEncodeFloatMacro_eq]
    · rw [if_neg hfits, if_neg hfits, tvnpEncodeFloatMacro_eq]

theorem tvnpEncodeNull_eq (buffer : TvuBuffer) :
    tvnpEncodeNull buffer = buffer.append Token.null.bytes :=
  tvnpEncodeByte_eq _ _

theorem tvnpEncodeCompound_eq (buffer : TvuBuffer) (c : UInt8) (x : UInt32) :
    tvnpEncodeCompound buffer c x = buffer.append (compoundBytes c x.toNat) := by
  have hx := x.toNat_lt
  simp only [tvnpEncodeCompound, compoundBytes, tvnpEncodeIntegerMacro_eq, tvnpEncodeByte_eq]
  by_cases h5 : x.toNat ≤ 0x1c
  · rw [if_neg (by omega), if_neg (by omega), if_neg (by omega), if_pos h5]
    rfl
  · rw [if_neg h5]
    by_cases h8 : x.toNat < 2 ^ 8
    · rw [if_neg (by omega), if_neg (by omega), if_pos (by omega), if_pos h8, tvuSetBeI,
        truncate_natCast h8]
    · rw [if_neg h8]
      by_cases h16 : x.toNat < 2 ^ 16
      · rw [if_neg (by omega), if_pos (by omega), if_pos h16, tvuSetBeI, truncate_natCast h16]
      · rw [if_pos (by omega), if_neg h16, tvuSetBeI, truncate_natCast (by omega)]

private theorem tvnpEncodeString_narrow (buffer : TvuBuffer) (c : UInt8) (string : List UInt8) :
    tvnpEncodeString buffer c string (UInt32.ofNat string.length) =
      buffer.append (compoundBytes c (Token.narrowString string).length ++
        Token.narrowString string) := by
  have hsize : (UInt32.ofNat string.length).toNat = string.length % 2 ^ 32 :=
    UInt32.toNat_ofNat'
  have hle : string.length % 2 ^ 32 ≤ string.length := Nat.mod_le _ _
  rw [← TvuBuffer.append_append, Token.length_narrowString]
  simp only [tvnpEncodeString, tvnpEncodeCompound_eq, hsize, hle, if_true, TvuBuffer.append,
    Option.map_eq_bind, Token.length_narrowString]
  rfl

theorem tvnpEncodeUtf8StringAndSize_narrow (buffer : TvuBuffer) (string : List UInt8) :
    tvnpEncodeUtf8StringAndSize buffer string (UInt32.ofNat string.length) =
      buffer.append (Token.utf8 string).narrow.bytes := by
  rw [Token.narrow, Token.bytes, ← TvuBuffer.append_append, ← tvnpEncodeString_narrow]
  simp only [tvnpEncodeUtf8StringAndSize, tvnpEncodeByte_eq]
  rfl

theorem tvnpEncodeUtf8String_narrow (buffer : TvuBuffer) (string : List UInt8) :
    tvnpEncodeUtf8String buffer string = buffer.append (Token.utf8 string).narrow.bytes :=
  tvnpEncodeUtf8StringAndSize_narrow _ _

theorem tvnpEncodeBinaryString_narrow (buffer : TvuBuffer) (string : List UInt8) :
    tvnpEncodeBinaryString buffer string (UInt32.ofNat string.length) =
      buffer.append (Token.binary string).narrow.bytes :=
  tvnpEncodeString_narrow _ _ _

theorem tvnpEncodeList_narrow (buffer : TvuBuffer) (count : Nat) :
    tvnpEncodeList buffer (UInt32.ofNat count) =
      buffer.append (Token.list count).narrow.bytes := by
  rw [tvnpEncodeList, tvnpEncodeCompound_eq, UInt32.toNat_ofNat']
  rfl

theorem tvnpEncodeDictionary_narrow (buffer : TvuBuffer) (count : Nat) :
    tvnpEncodeDictionary buffer (UInt32.ofNat count) =
      buffer.append (Token.dictionary count).narrow.bytes := by
  rw [tvnpEncodeDictionary, tvnpEncodeCompound_eq, UInt32.toNat_ofNat']
  rfl

section Fitting

variable (buffer : TvuBuffer) {string : List UInt8} {count : Nat}

theorem tvnpEncodeUtf8StringAndSize_eq (h : string.length < 2 ^ 32) :
    tvnpEncodeUtf8StringAndSize buffer string (UInt32.ofNat string.length) =
      buffer.append (Token.utf8 string).bytes := by
  have hvalid : (Token.utf8 string).Valid := h
  rw [tvnpEncodeUtf8StringAndSize_narrow, Token.narrow_of_valid hvalid]

theorem tvnpEncodeUtf8String_eq (h : string.length < 2 ^ 32) :
    tvnpEncodeUtf8String buffer string = buffer.append (Token.utf8 string).bytes :=
  tvnpEncodeUtf8StringAndSize_eq _ h

theorem tvnpEncodeBinaryString_eq (h : string.length < 2 ^ 32) :
    tvnpEncodeBinaryString buffer string (UInt32.ofNat string.length) =
      buffer.append (Token.binary string).bytes := by
  have hvalid : (Token.binary string).Valid := h
  rw [tvnpEncodeBinaryString_narrow, Token.narrow_of_valid hvalid]

theorem tvnpEncodeList_eq (h : count < 2 ^ 32) :
    tvnpEncodeList buffer (UInt32.ofNat count) = buffer.append (Token.list count).bytes := by
  have hvalid : (Token.list count).Valid := h
  rw [tvnpEncodeList_narrow, Token.narrow_of_valid hvalid]

theorem tvnpEncodeDictionary_eq (h : count < 2 ^ 32) :
    tvnpEncodeDictionary buffer (UInt32.ofNat count) =
      buffer.append (Token.dictionary count).bytes := by
  have hvalid : (Token.dictionary count).Valid := h
  rw [tvnpEncodeDictionary_narrow, Token.narrow_of_valid hvalid]

end Fitting

end Libtvnet
