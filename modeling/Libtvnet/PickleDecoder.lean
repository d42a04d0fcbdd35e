import Libtvnet.Token

/-!
# `pickle_decoder.h`

The decoder checks every access against the size of the buffer, with 64-bit
arithmetic.  Locals of type `tvnp_token_t` are not initialised by the source;
their contents are the parameter `indeterminate`.  `none` stands for a load
outside the buffer.
-/

namespace Libtvnet

open Libtvnet.Foundation

inductive TvnpType where
  | tokenEnd
  | tokenError
  | tokenNull
  | tokenInteger
  | tokenFloat
  | tokenUtf8String
  | tokenBinString
  | tokenList
  | tokenDictionary
  deriving DecidableEq, Repr

/-- The union `value` is its 64 bits; `data` is an index into the buffer. -/
structure TvnpToken where
  type : TvnpType
  value : BitVec 64
  data : Nat
  deriving DecidableEq

namespace TvnpToken

def i (token : TvnpToken) : Int64 := Int64.ofBitVec token.value

def u (token : TvnpToken) : Nat := token.value.toNat

def f (token : TvnpToken) : Binary64 := Binary.ofBits token.value.toNat

def zeroFilled : TvnpToken := ⟨.tokenError, 0, 0⟩

end TvnpToken

def TvuBuffer.overruns (buffer : TvuBuffer) (size : Nat) : Bool :=
  (buffer.offset + size) % 2 ^ 64 > buffer.size

/-- The common text of the three macros below: check, load, step. -/
def tvnpDecodeField (token : TvnpToken) (buffer : TvuBuffer) (size : Nat) (type : TvnpType)
    (get : List UInt8 → BitVec 64) : Option (TvnpToken × TvuBuffer) :=
  if buffer.overruns size then some ({ token with type := .tokenError }, buffer)
  else do
    let bytes ← buffer.load buffer.offset size
    some ({ token with type := type, value := get bytes }, buffer.skip size)

def tvnpDecodeInteger (token : TvnpToken) (buffer : TvuBuffer) (bitSize : Nat)
    (type : TvnpType) : Option (TvnpToken × TvuBuffer) :=
  tvnpDecodeField token buffer (bitSize / 8) type fun bytes =>
    (tvuGetBeI bitSize bytes).toBitVec

def tvnpDecodeFloat (token : TvnpToken) (buffer : TvuBuffer) (bitSize : Nat)
    (get : List UInt8 → Binary64) (type : TvnpType) : Option (TvnpToken × TvuBuffer) :=
  tvnpDecodeField token buffer (bitSize / 8) type fun bytes =>
    BitVec.ofNat 64 (get bytes).toBits

/-- The macro `TVNP_DECODE_UNSIGNED` and the assignment of the type behind it. -/
def tvnpDecodeUnsigned (token : TvnpToken) (buffer : TvuBuffer) (bitSize : Nat)
    (type : TvnpType) : Option (TvnpToken × TvuBuffer) :=
  tvnpDecodeField token buffer (bitSize / 8) type fun bytes =>
    BitVec.ofNat 64 (tvuGetBeU bytes)

def tvnpDecodeNumber (token : TvnpToken) (buffer : TvuBuffer) (c : UInt8) :
    Option (TvnpToken × TvuBuffer) :=
  match c.toNat with
  | 0x40 => some ({ token with type := .tokenNull }, buffer)
  | 0x41 => tvnpDecodeFloat token buffer 64 (tvuGetBeF binary64) .tokenFloat
  | 0x42 => tvnpDecodeFloat token buffer 32 (fun bytes => (tvuGetBeF binary32 bytes).convert)
      .tokenFloat
  | 0x43 => tvnpDecodeInteger token buffer 64 .tokenInteger
  | 0x44 => tvnpDecodeInteger token buffer 32 .tokenInteger
  | 0x45 => tvnpDecodeInteger token buffer 16 .tokenInteger
  | _ => some ({ token with
      type := .tokenInteger, value := (tvuSignExtendU8 c 7).toBitVec }, buffer)

def tvnpDecodeContainer (token : TvnpToken) (buffer : TvuBuffer) (c : UInt8)
    (type : TvnpType) : Option (TvnpToken × TvuBuffer) :=
  match (c &&& 0x1f).toNat with
  | 0x1f => tvnpDecodeUnsigned token buffer 32 type
  | 0x1e => tvnpDecodeUnsigned token buffer 16 type
  | 0x1d => tvnpDecodeUnsigned token buffer 8 type
  | u => some ({ token with type := type, value := BitVec.ofNat 64 u }, buffer)

/-- A string: its length header, the second check, and the step over `trailer` more bytes. -/
def tvnpDecodeSpan (indeterminate : TvnpToken) (buffer : TvuBuffer) (c : UInt8)
    (type : TvnpType) (trailer : Nat) : Option (TvnpToken × TvuBuffer) := do
  let (token, buffer) ← tvnpDecodeContainer indeterminate buffer c type
  -- A failed header does not return here: its token goes through this check too.
  if buffer.overruns token.u then some ({ token with type := .tokenError }, buffer)
  else some ({ token with data := buffer.offset }, buffer.skip (token.u + trailer))

def tvnpDecodeSwitch (indeterminate : TvnpToken) (buffer : TvuBuffer) (c : UInt8) :
    Option (TvnpToken × TvuBuffer) :=
  match (c >>> 5).toNat with
  | 0 | 1 | 2 | 3 => tvnpDecodeNumber indeterminate buffer c
  | 4 => tvnpDecodeSpan indeterminate buffer c .tokenUtf8String 1
  | 5 => tvnpDecodeSpan indeterminate buffer c .tokenBinString 0
  | 6 => tvnpDecodeContainer indeterminate buffer c .tokenList
  | 7 => tvnpDecodeContainer indeterminate buffer c .tokenDictionary
  | _ => some (indeterminate, buffer)

def tvnpDecodeToken (indeterminate : TvnpToken) (buffer : TvuBuffer) :
    Option (TvnpToken × TvuBuffer) :=
  if buffer.overruns 1 then some ({ indeterminate with type := .tokenEnd }, buffer)
  else do
    let c ← buffer.data[buffer.offset]?
    tvnpDecodeSwitch indeterminate (buffer.skip 1) c

theorem TvnpToken.u_ofNat {n : Nat} (h : n < 2 ^ 32) (type : TvnpType) (data : Nat) :
    (⟨type, BitVec.ofNat 64 n, data⟩ : TvnpToken).u = n := by
  rw [TvnpToken.u, BitVec.toNat_ofNat]
  exact Nat.mod_eq_of_lt (by omega)

/-! ## The bound check -/

theorem TvuBuffer.overruns_iff {b : TvuBuffer} {n : Nat} (h : b.offset + n < 2 ^ 64) :
    b.overruns n = true ↔ b.size < b.offset + n := by
  rw [overruns, Nat.mod_eq_of_lt h, decide_eq_true_eq, gt_iff_lt]

theorem tvnpDecodeField_of_fits {token : TvnpToken} {b : TvuBuffer} {size : Nat}
    {type : TvnpType} {get : List UInt8 → BitVec 64} (h : b.offset + size ≤ b.size) :
    tvnpDecodeField token b size type get =
      some ({ token with type := type, value := get (b.rest.take size) }, b.skip size) := by
  have hsize := b.size_lt
  have hnot : ¬ b.overruns size = true := by
    rw [TvuBuffer.overruns_iff (by unfold TvuBuffer.size at h; omega)]
    omega
  rw [tvnpDecodeField, if_neg hnot, TvuBuffer.load, if_pos h]
  rfl

theorem tvnpDecodeField_of_short {token : TvnpToken} {b : TvuBuffer} {size : Nat}
    {type : TvnpType} {get : List UInt8 → BitVec 64} (h : b.size < b.offset + size)
    (hword : b.offset + size < 2 ^ 64) :
    tvnpDecodeField token b size type get = some ({ token with type := .tokenError }, b) := by
  rw [tvnpDecodeField, if_pos ((TvuBuffer.overruns_iff hword).mpr h)]

theorem tvnpDecodeContainer_inline {c : UInt8} {n : Nat} (token : TvnpToken) (b : TvuBuffer)
    (type : TvnpType) (hn : n ≤ 0x1c) (h : (c &&& 0x1f).toNat = n) :
    tvnpDecodeContainer token b c type =
      some ({ token with type := type, value := BitVec.ofNat 64 n }, b) := by
  unfold tvnpDecodeContainer
  rw [h]
  split <;> first | omega | rfl

def IsWide (tag bitSize : Nat) : Prop :=
  (tag = 0x1f ∧ bitSize = 32) ∨ (tag = 0x1e ∧ bitSize = 16) ∨ (tag = 0x1d ∧ bitSize = 8)

theorem tvnpDecodeContainer_wide {c : UInt8} {tag bitSize : Nat} (hwide : IsWide tag bitSize)
    (token : TvnpToken) (b : TvuBuffer) (type : TvnpType) (h : (c &&& 0x1f).toNat = tag) :
    tvnpDecodeContainer token b c type = tvnpDecodeUnsigned token b bitSize type := by
  rcases hwide with ⟨rfl, rfl⟩ | ⟨rfl, rfl⟩ | ⟨rfl, rfl⟩ <;>
    (rw [tvnpDecodeContainer, h]; rfl)

end Libtvnet
