import Libtvnet.FmtParser
import Libtvnet.StdargDecode

/-!
# `pickle_print.c`

A call of `printf` is pickled as its format string followed by its arguments.
The receiver parses the format again to know the types of the arguments, and
builds an argument list for `vprintf` from the tokens.

`tvu_buffer_alloc` and `tvu_buffer_error` of tvutils are parameters.  The
array that receives a type string is a list here, whatever its capacity.
-/

namespace Libtvnet

open Libtvnet.Foundation

/-! ## The sender -/

section Sender

variable (undefined : Binary64 → Int)

def tvnpVpprintfLen (types : List Char) (fmt : CString) (ap : List VaArg) : Option UInt64 := do
  let size ← tvnpVlength undefined types ap
  some (UInt64.ofNat (tvnpLengthUtf8String fmt.1.length) + size.toUInt64)

/-- The return value of `tvnp_vencode` is not looked at. -/
def tvnpVpprintf (buffer : TvuBuffer) (types : List Char) (fmt : CString) (ap : List VaArg) :
    Option TvuBuffer := do
  let buffer ← tvnpEncodeUtf8String buffer fmt.1
  let (_, buffer) ← tvnpVencode undefined buffer types ap
  some buffer

def tvnpVapprintf (tvuBufferError : TvuBuffer) (tvuBufferAlloc : UInt64 → TvuBuffer)
    (fmt : CString) (ap : List VaArg) : Option TvuBuffer :=
  let (types, ret) := tvnpFmtParse fmt.chars
  if ret = -1 then some tvuBufferError
  else do
    let size ← tvnpVpprintfLen undefined types fmt ap
    tvnpVpprintf undefined (tvuBufferAlloc size) types fmt ap

def callTokens (types : List Char) (fmt : CString) (args : List VaArg) : List Token :=
  .utf8 fmt.1 :: vaTokens undefined types args

end Sender

/-! ## The receiver -/

/-- An argument for `vprintf`: a string is an index into the buffer or the text `(NULL)`. -/
inductive VaSlot where
  | gp (type : IntegerType) (value : Int)
  | float64 (x : Binary64)
  | float80 (x : Binary80)
  | data (p : Nat)
  | null

/-- All integer parameters are converted to at least 32 bits. -/
def promotedLetter : Char → Option IntegerType
  | 'b' | 'w' | 'd' => some .int32
  | 'B' | 'W' | 'D' => some .uint32
  | 'q' => some .int64
  | 'Q' => some .uint64
  | _ => none

section Receiver

variable (undefined : Binary64 → Int) (indeterminate : TvnpToken)

def vaSlot (c : Char) (token : TvnpToken) : Option VaSlot :=
  match promotedLetter c with
  | some type => (token.toInteger undefined type).map (.gp type)
  | none =>
      match c, token.type with
      | 'f', .tokenInteger | 'F', .tokenInteger => some (.float64 (Binary.ofInt token.i.toInt))
      | 'f', .tokenFloat | 'F', .tokenFloat => some (.float64 token.f)
      | 'G', .tokenInteger => some (.float80 (Binary.ofInt token.i.toInt))
      | 'G', .tokenFloat => some (.float80 token.f.convert)
      | 's', .tokenUtf8String => some (.data token.data)
      | 's', .tokenBinString => some (.data token.data)
      | 's', .tokenNull => some .null
      | _, _ => none

/-- The loop of `tvnp_pickle_to_va`; the inner `none` is its `return NULL`. -/
def tvnpPickleToVaLoop : List Char → TvuBuffer → Option (Option (List VaSlot) × TvuBuffer)
  | [], buffer => some (some [], buffer)
  | c :: types, buffer => do
      let (token, buffer) ← tvnpDecodeToken indeterminate buffer
      match vaSlot undefined c token with
      | some slot =>
          let (ap, buffer) ← tvnpPickleToVaLoop types buffer
          some (ap.map (slot :: ·), buffer)
      | none => some (none, buffer)

def tvnpPickleToVa (buffer : TvuBuffer) :
    Option (Option (Nat × List VaSlot) × TvuBuffer) := do
  let (token, buffer) ← tvnpDecodeToken indeterminate buffer
  match token.type with
  | .tokenUtf8String =>
      let fmt ← cString buffer.data token.data
      let (ap, buffer) ←
        tvnpPickleToVaLoop undefined indeterminate (tvnpFmtParse (fmt.map Char.ofUInt8)).1 buffer
      some (ap.map fun ap => (token.data, ap), buffer)
  | _ => some (none, buffer)

end Receiver

section Receiver

variable {undefined : Binary64 → Int} {indeterminate : TvnpToken} {b final : TvuBuffer}
  {ap : List VaSlot}

theorem tvnpPickleToVaLoop_cases {c : Char} {types : List Char}
    (h : tvnpPickleToVaLoop undefined indeterminate (c :: types) b = some (some ap, final)) :
    ∃ token b' slot rest, tvnpDecodeToken indeterminate b = some (token, b') ∧
      vaSlot undefined c token = some slot ∧
      tvnpPickleToVaLoop undefined indeterminate types b' = some (some rest, final) ∧
      ap = slot :: rest := by
  simp only [tvnpPickleToVaLoop, Option.bind_eq_bind, Option.bind_eq_some_iff] at h
  obtain ⟨⟨token, b'⟩, htoken, h⟩ := h
  cases hslot : vaSlot undefined c token with
  | none =>
      rw [hslot] at h
      cases h
  | some slot =>
      rw [hslot] at h
      simp only [Option.bind_eq_some_iff, Option.some.injEq, Prod.mk.injEq,
        Option.map_eq_some_iff] at h
      obtain ⟨⟨_, _⟩, hrest, ⟨rest, rfl, rfl⟩, rfl⟩ := h
      exact ⟨token, b', slot, rest, htoken, hslot, hrest, rfl⟩

theorem tvnpPickleToVa_cases {p : Nat}
    (h : tvnpPickleToVa undefined indeterminate b = some (some (p, ap), final)) :
    ∃ token b' fmt, tvnpDecodeToken indeterminate b = some (token, b') ∧
      token.type = .tokenUtf8String ∧ token.data = p ∧ cString b'.data p = some fmt ∧
      tvnpPickleToVaLoop undefined indeterminate (tvnpFmtParse (fmt.map Char.ofUInt8)).1 b' =
        some (some ap, final) := by
  simp only [tvnpPickleToVa, Option.bind_eq_bind, Option.bind_eq_some_iff] at h
  obtain ⟨⟨token, b'⟩, htoken, h⟩ := h
  simp only at h
  split at h
  · next htype =>
      simp only [Option.bind_eq_some_iff, Option.some.injEq, Prod.mk.injEq,
        Option.map_eq_some_iff] at h
      obtain ⟨fmt, hfmt, ⟨_, _⟩, hrun, ⟨ap, rfl, rfl, rfl⟩, rfl⟩ := h
      exact ⟨token, b', fmt, htoken, htype, rfl, hfmt, hrun⟩
  · cases h

end Receiver

/-! ## Both passes of the sender -/

section Agreement

variable {undefined : Binary64 → Int} {types : List Char} {fmt : CString} {args : List VaArg}

theorem tvnpVpprintfLen_eq (undefined : Binary64 → Int) (fmt : CString)
    (h : Matching types args) :
    tvnpVpprintfLen undefined types fmt args =
      some (UInt64.ofNat (wire (callTokens undefined types fmt args)).length) := by
  rw [tvnpVpprintfLen, tvnpVlength_eq h, tvnpLengthUtf8String_eq, callTokens, wire_cons,
    List.length_append, UInt64.ofNat_add]
  rfl

theorem tvnpVpprintf_eq (b : TvuBuffer) (h : Matching types args)
    (hfmt : fmt.1.length < 2 ^ 32) (hlong : 'G' ∉ types) :
    tvnpVpprintf undefined b types fmt args =
      b.append (wire (callTokens undefined types fmt args)) := by
  rw [callTokens, wire_cons, ← TvuBuffer.append_append, ← tvnpEncodeUtf8String_eq b hfmt]
  refine Option.bind_congr fun c _ => ?_
  rw [tvnpVencode_eq c h hlong]
  cases c.append (wire (vaTokens undefined types args)) <;> rfl

/--
The passes agree on a type string: they accept the same arguments, and what is
encoded fills the predicted size with one token for every argument.
-/
structure PassesAgree (undefined : Binary64 → Int) (b : TvuBuffer) (types : List Char)
    (fmt : CString) (args : List VaArg) : Prop where
  vencode : ∃ size ret c, tvnpVlength undefined types args = some size ∧
    tvnpVencode undefined b types args = some (ret, c) ∧
    (0 ≤ size.toInt ↔ ret = 0) ∧ (ret = 0 → c.offset = b.offset + size.toInt)
  vpprintf : ∃ size c, tvnpVpprintfLen undefined types fmt args = some size ∧
    tvnpVpprintf undefined b types fmt args = some c ∧
    c.offset = b.offset + size.toNat ∧
    (c.data.take c.offset).drop b.offset = wire (callTokens undefined types fmt args)

private theorem tvnpVpprintf_fills {b : TvuBuffer} (h : Matching types args)
    (hfmt : fmt.1.length < 2 ^ 32) (hlong : 'G' ∉ types)
    (hroom : b.offset + (wire (callTokens undefined types fmt args)).length ≤ b.size) :
    ∃ size c, tvnpVpprintfLen undefined types fmt args = some size ∧
      tvnpVpprintf undefined b types fmt args = some c ∧
      c.offset = b.offset + size.toNat ∧
      (c.data.take c.offset).drop b.offset = wire (callTokens undefined types fmt args) := by
  obtain ⟨c, hc, hoffset, hdata⟩ := TvuBuffer.append_eq_some hroom
  have hblock := b.size_lt
  unfold TvuBuffer.size at hroom
  have hsize : (UInt64.ofNat (wire (callTokens undefined types fmt args)).length).toNat =
      (wire (callTokens undefined types fmt args)).length :=
    UInt64.toNat_ofNat_of_lt' (by unfold UInt64.size; omega)
  refine ⟨_, c, tvnpVpprintfLen_eq undefined fmt h, ?_, ?_, ?_⟩
  · rw [tvnpVpprintf_eq b h hfmt hlong, hc]
  · rw [hsize, hoffset]
  · have hstart : (b.data.take b.offset).length = b.offset := by
      rw [List.length_take]
      omega
    rw [hdata, hoffset, List.take_left' (by rw [List.length_append, hstart]),
      List.drop_left' hstart]

/-- The passes agree exactly where there is no `long double`. -/
theorem passesAgree_iff {b : TvuBuffer} (h : Matching types args)
    (hfmt : fmt.1.length < 2 ^ 32)
    (hroom : b.offset + (wire (callTokens undefined types fmt args)).length ≤ b.size) :
    PassesAgree undefined b types fmt args ↔ 'G' ∉ types := by
  have hblock := b.size_lt
  have hfits : b.offset + (wire (vaTokens undefined types args)).length ≤ b.size := by
    rw [callTokens, wire_cons, List.length_append] at hroom
    omega
  have hsize : (Int64.ofNat (wire (vaTokens undefined types args)).length).toInt =
      (wire (vaTokens undefined types args)).length := by
    unfold TvuBuffer.size at hfits
    exact Int64.toInt_ofNat_of_lt (by omega)
  constructor
  · intro hagree hlong
    obtain ⟨size, ret, c, hlength, hencode, hiff, -⟩ := hagree.vencode
    obtain rfl : _ = size := Option.some.inj ((tvnpVlength_eq h).symm.trans hlength)
    have hzero : ret = 0 := hiff.mp (by rw [hsize]; omega)
    rw [tvnpVencode_longDouble h hlong hencode] at hzero
    contradiction
  · intro hlong
    obtain ⟨c, hc, hoffset, -⟩ := TvuBuffer.append_eq_some hfits
    refine ⟨⟨_, 0, c, tvnpVlength_eq h, ?_, ?_, ?_⟩, tvnpVpprintf_fills h hfmt hlong hroom⟩
    · rw [tvnpVencode_eq b h hlong, hc, Option.map_some]
    · rw [hsize]
      omega
    · intro _
      rw [hsize, hoffset, Nat.cast_add]

end Agreement

def longDoubleFormat : CString := ⟨[0x25, 0x4c, 0x66], by decide⟩

def longDoubleArgs : List VaArg := [.float80 (Binary.ofInt 1)]

theorem not_passesAgree_longDouble :
    (tvnpFmtParse longDoubleFormat.chars).1 = ['G'] ∧ Matching ['G'] longDoubleArgs ∧
      ¬ PassesAgree (fun _ => 0) ⟨List.replicate 16 0, 0, by decide, by decide⟩ ['G']
        longDoubleFormat longDoubleArgs := by
  have hmatch : Matching ['G'] longDoubleArgs := .cons rfl .nil
  refine ⟨by decide, hmatch, fun hagree => ?_⟩
  obtain ⟨size, ret, c, hlength, hencode, hiff, -⟩ := hagree.vencode
  have hret := tvnpVencode_longDouble hmatch (by simp) hencode
  have hsize : (0 : Int) ≤ size.toInt := by
    obtain rfl : _ = size := Option.some.inj ((tvnpVlength_eq hmatch).symm.trans hlength)
    decide +kernel
  rw [hiff.mp hsize] at hret
  contradiction

theorem passesAgree_double :
    PassesAgree (fun _ => 0) ⟨List.replicate 16 0, 0, by decide, by decide⟩ ['F']
      ⟨[0x25, 0x66], by decide⟩ [.float64 (Binary.ofInt 1)] :=
  have hmatch : Matching ['F'] [.float64 (Binary.ofInt 1)] := .cons (Or.inr rfl) .nil
  (passesAgree_iff hmatch (by decide) (by decide +kernel)).mpr (by decide)

end Libtvnet
