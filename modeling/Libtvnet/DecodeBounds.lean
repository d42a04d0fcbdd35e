import Libtvnet.PickleDecoder

/-!
# The decoder on arbitrary bytes

What one call of `tvnp_decode_token` can do on a buffer with any contents, and
from it what any run of calls can do.  The offset may come to stand one past
the end of the buffer, behind the terminator of a string that ends the buffer
without one; no further.
-/

namespace Libtvnet

open Libtvnet.Foundation

/-! ## Length headers -/

def headerWidth (c : UInt8) : Nat :=
  if (c &&& 0x1f).toNat = 0x1f then 4
  else if (c &&& 0x1f).toNat = 0x1e then 2
  else if (c &&& 0x1f).toNat = 0x1d then 1
  else 0

def lengthHeader (c : UInt8) (bytes : List UInt8) : Option (Nat × Nat) :=
  if headerWidth c = 0 then some (0, (c &&& 0x1f).toNat)
  else if headerWidth c ≤ bytes.length then
    some (headerWidth c, ofBigEndian (bytes.take (headerWidth c)))
  else none

private theorem headerWidth_le (c : UInt8) : headerWidth c ≤ 4 := by
  unfold headerWidth
  split_ifs <;> decide

theorem lengthHeader_bounds {c : UInt8} {bytes : List UInt8} {width n : Nat}
    (h : lengthHeader c bytes = some (width, n)) : width ≤ bytes.length ∧ n < 2 ^ 32 := by
  have hbyte := (c &&& 0x1f).toNat_lt
  unfold lengthHeader at h
  split_ifs at h with hzero hfits
  · obtain ⟨rfl, rfl⟩ := Prod.mk.inj (Option.some.inj h)
    exact ⟨Nat.zero_le _, by omega⟩
  · obtain ⟨rfl, rfl⟩ := Prod.mk.inj (Option.some.inj h)
    have hlt := ofBigEndian_lt (bytes.take (headerWidth c))
    have hpow : 256 ^ headerWidth c ≤ 256 ^ 4 :=
      Nat.pow_le_pow_right (by decide) (headerWidth_le c)
    rw [List.length_take, Nat.min_eq_left hfits] at hlt
    exact ⟨hfits, by omega⟩

private theorem tvnpDecodeUnsigned_eq {b : TvuBuffer} (token : TvnpToken) (type : TvnpType)
    {bitSize : Nat} (hbits : bitSize / 8 ≤ 4) (h : b.offset ≤ b.size) :
    tvnpDecodeUnsigned token b bitSize type =
      if bitSize / 8 ≤ b.rest.length then
        some ({ token with
          type := type
          value := BitVec.ofNat 64 (ofBigEndian (b.rest.take (bitSize / 8))) },
          b.skip (bitSize / 8))
      else some ({ token with type := .tokenError }, b) := by
  have hsize := b.size_lt
  have hlength := b.length_rest
  unfold TvuBuffer.size at h hlength
  split_ifs with hfits
  · rw [tvnpDecodeUnsigned, tvnpDecodeField_of_fits (by unfold TvuBuffer.size; omega)]
    rfl
  · rw [tvnpDecodeUnsigned,
      tvnpDecodeField_of_short (by unfold TvuBuffer.size; omega) (by omega)]

def headerResult (token : TvnpToken) (b : TvuBuffer) (type : TvnpType) :
    Option (Nat × Nat) → Option (TvnpToken × TvuBuffer)
  | some (width, n) =>
      some ({ token with type := type, value := BitVec.ofNat 64 n }, b.skip width)
  | none => some ({ token with type := .tokenError }, b)

theorem tvnpDecodeContainer_eq {b : TvuBuffer} (token : TvnpToken) (c : UInt8)
    (type : TvnpType) (h : b.offset ≤ b.size) :
    tvnpDecodeContainer token b c type = headerResult token b type (lengthHeader c b.rest) := by
  have hfield {tag bitSize : Nat} (hwide : IsWide tag bitSize)
      (htag : (c &&& 0x1f).toNat = tag) :
      tvnpDecodeContainer token b c type =
        headerResult token b type (lengthHeader c b.rest) := by
    have hwidth : headerWidth c = bitSize / 8 ∧ 0 < bitSize / 8 ∧ bitSize / 8 ≤ 4 := by
      unfold headerWidth
      rcases hwide with ⟨rfl, rfl⟩ | ⟨rfl, rfl⟩ | ⟨rfl, rfl⟩ <;> rw [htag] <;> decide
    rw [tvnpDecodeContainer_wide hwide _ _ _ htag, tvnpDecodeUnsigned_eq _ _ hwidth.2.2 h,
      lengthHeader, hwidth.1, if_neg hwidth.2.1.ne']
    split_ifs <;> rfl
  have htag : (c &&& 0x1f).toNat ≤ 0x1f := by
    rw [UInt8.toNat_and]
    exact Nat.and_le_right
  by_cases h1f : (c &&& 0x1f).toNat = 0x1f
  · exact hfield (.inl ⟨rfl, rfl⟩) h1f
  by_cases h1e : (c &&& 0x1f).toNat = 0x1e
  · exact hfield (.inr (.inl ⟨rfl, rfl⟩)) h1e
  by_cases h1d : (c &&& 0x1f).toNat = 0x1d
  · exact hfield (.inr (.inr ⟨rfl, rfl⟩)) h1d
  · have hzero : headerWidth c = 0 := by
      rw [headerWidth, if_neg h1f, if_neg h1e, if_neg h1d]
    rw [tvnpDecodeContainer_inline token b type (by omega) rfl, lengthHeader, if_pos hzero,
      headerResult, TvuBuffer.skip_zero]

/-! ## One call -/

def DecodeOutcome (indeterminate : TvnpToken) (b : TvuBuffer) (token : TvnpToken)
    (b' : TvuBuffer) : Prop :=
  b'.data = b.data ∧
  match token.type with
  | .tokenEnd => b.size ≤ b.offset ∧ b' = b
  | .tokenError => b.offset < b.size ∧
      (indeterminate.u = 0 → b.offset < b'.offset ∧ b'.offset ≤ b.size + 1)
  | .tokenUtf8String => b.offset < token.data ∧ token.data + token.u ≤ b.size ∧
      b'.offset = token.data + token.u + 1
  | .tokenBinString => b.offset < token.data ∧ token.data + token.u ≤ b.size ∧
      b'.offset = token.data + token.u
  | _ => b.offset < b'.offset ∧ b'.offset ≤ b.size

private theorem outcome_plain {indeterminate token : TvnpToken} {b b' : TvuBuffer}
    (hdata : b'.data = b.data) (hlo : b.offset < b'.offset) (hhi : b'.offset ≤ b.size)
    (htype : token.type ≠ .tokenEnd ∧ token.type ≠ .tokenUtf8String ∧
      token.type ≠ .tokenBinString) :
    DecodeOutcome indeterminate b token b' := by
  refine ⟨hdata, ?_⟩
  split
  · next h => exact absurd h htype.1
  · exact ⟨by omega, fun _ => ⟨hlo, by omega⟩⟩
  · next h => exact absurd h htype.2.1
  · next h => exact absurd h htype.2.2
  · exact ⟨hlo, hhi⟩

private theorem tvnpDecodeField_outcome {b : TvuBuffer} (token : TvnpToken) {size : Nat}
    (type : TvnpType) (get : List UInt8 → BitVec 64) (hsize : size ≤ 8)
    (h : b.offset ≤ b.size) :
    ∃ token' b', tvnpDecodeField token b size type get = some (token', b') ∧
      b'.data = b.data ∧ b.offset ≤ b'.offset ∧ b'.offset ≤ b.size ∧
      (token'.type = type ∨ token'.type = .tokenError) := by
  have hblock := b.size_lt
  by_cases hfits : b.offset + size ≤ b.size
  · refine ⟨_, _, tvnpDecodeField_of_fits hfits, rfl, ?_, ?_, .inl rfl⟩
    all_goals
      rw [TvuBuffer.offset_skip_of_le hfits]
      omega
  · refine ⟨_, _, tvnpDecodeField_of_short (by omega) ?_, rfl, le_refl _, h, .inr rfl⟩
    unfold TvuBuffer.size at h
    omega

theorem tvnpDecodeNumber_outcome {b : TvuBuffer} (token : TvnpToken) (c : UInt8)
    (h : b.offset ≤ b.size) :
    ∃ token' b', tvnpDecodeNumber token b c = some (token', b') ∧
      b'.data = b.data ∧ b.offset ≤ b'.offset ∧ b'.offset ≤ b.size ∧
      (token'.type = .tokenNull ∨ token'.type = .tokenFloat ∨ token'.type = .tokenInteger ∨
        token'.type = .tokenError) := by
  have hfield {size : Nat} {type : TvnpType} {get : List UInt8 → BitVec 64}
      (hsize : size ≤ 8) (htype : type = .tokenFloat ∨ type = .tokenInteger) :
      ∃ token' b', tvnpDecodeField token b size type get = some (token', b') ∧
        b'.data = b.data ∧ b.offset ≤ b'.offset ∧ b'.offset ≤ b.size ∧
        (token'.type = .tokenNull ∨ token'.type = .tokenFloat ∨ token'.type = .tokenInteger ∨
          token'.type = .tokenError) := by
    obtain ⟨token', b', hrun, hdata, hlo, hhi, hres⟩ :=
      tvnpDecodeField_outcome token type get hsize h
    refine ⟨token', b', hrun, hdata, hlo, hhi, ?_⟩
    rcases htype with rfl | rfl <;> tauto
  unfold tvnpDecodeNumber
  split
  · exact ⟨_, _, rfl, rfl, le_refl _, h, .inl rfl⟩
  · exact hfield (by decide) (.inl rfl)
  · exact hfield (by decide) (.inl rfl)
  · exact hfield (by decide) (.inr rfl)
  · exact hfield (by decide) (.inr rfl)
  · exact hfield (by decide) (.inr rfl)
  · exact ⟨_, _, rfl, rfl, le_refl _, h, .inr (.inr (.inl rfl))⟩

theorem tvnpDecodeSpan_of_header {b : TvuBuffer} (indeterminate : TvnpToken) {c : UInt8}
    (type : TvnpType) (trailer : Nat) {width n : Nat} (h : b.offset ≤ b.size)
    (hheader : lengthHeader c b.rest = some (width, n)) :
    tvnpDecodeSpan indeterminate b c type trailer =
      if b.size < b.offset + width + n then
        some ({ indeterminate with type := .tokenError, value := BitVec.ofNat 64 n },
          b.skip width)
      else some (⟨type, BitVec.ofNat 64 n, b.offset + width⟩, b.skip (width + n + trailer)) := by
  have hblock := b.size_lt
  obtain ⟨hwidth, hn⟩ := lengthHeader_bounds hheader
  rw [TvuBuffer.length_rest] at hwidth
  have hoffset : (b.skip width).offset = b.offset + width :=
    TvuBuffer.offset_skip_of_le (by omega)
  have hover : (b.skip width).overruns n = true ↔ b.size < b.offset + width + n := by
    rw [TvuBuffer.overruns_iff (by rw [hoffset]; unfold TvuBuffer.size at *; omega), hoffset,
      TvuBuffer.size_skip]
  rw [tvnpDecodeSpan, tvnpDecodeContainer_eq _ _ _ h, hheader, headerResult]
  simp only [Option.bind_eq_bind, Option.bind_some, TvnpToken.u_ofNat hn, hover, hoffset,
    TvuBuffer.skip_skip, Nat.add_assoc]

theorem tvnpDecodeSpan_of_cut {b : TvuBuffer} (indeterminate : TvnpToken) {c : UInt8}
    (type : TvnpType) {trailer : Nat} (htrailer : trailer ≤ 1) (h : b.offset ≤ b.size)
    (hheader : lengthHeader c b.rest = none) :
    ∃ token b', tvnpDecodeSpan indeterminate b c type trailer = some (token, b') ∧
      token.type = .tokenError ∧ b'.data = b.data ∧
      (indeterminate.u = 0 → b.offset ≤ b'.offset ∧ b'.offset ≤ b.offset + trailer) := by
  have hblock := b.size_lt
  rw [tvnpDecodeSpan, tvnpDecodeContainer_eq _ _ _ h, hheader, headerResult]
  simp only [Option.bind_eq_bind, Option.bind_some]
  split
  · exact ⟨_, _, rfl, rfl, rfl, fun _ => ⟨le_refl _, Nat.le_add_right _ _⟩⟩
  · refine ⟨_, _, rfl, rfl, rfl, fun hzero => ?_⟩
    have hu : ({ indeterminate with type := .tokenError } : TvnpToken).u = 0 := hzero
    have hoffset : (b.skip trailer).offset = b.offset + trailer :=
      TvuBuffer.offset_skip (by unfold TvuBuffer.size at h; omega)
    rw [hu, Nat.zero_add, hoffset]
    exact ⟨Nat.le_add_right _ _, le_refl _⟩

private theorem tvnpDecodeSpan_outcome {b : TvuBuffer} (indeterminate : TvnpToken) (c : UInt8)
    {type : TvnpType} {trailer : Nat} (h : b.offset < b.size)
    (htype : (type = .tokenUtf8String ∧ trailer = 1) ∨
      (type = .tokenBinString ∧ trailer = 0)) :
    ∃ token b', tvnpDecodeSpan indeterminate (b.skip 1) c type trailer = some (token, b') ∧
      DecodeOutcome indeterminate b token b' := by
  have hblock := b.size_lt
  have hoffset : (b.skip 1).offset = b.offset + 1 := TvuBuffer.offset_skip_of_le h
  have hle : (b.skip 1).offset ≤ (b.skip 1).size := by
    rw [hoffset]
    exact h
  have htrailer : trailer ≤ 1 := by
    rcases htype with ⟨-, rfl⟩ | ⟨-, rfl⟩ <;> decide
  cases hheader : lengthHeader c (b.skip 1).rest with
  | none =>
      obtain ⟨token, b', hrun, herror, hdata, hbounds⟩ :=
        tvnpDecodeSpan_of_cut indeterminate type htrailer hle hheader
      refine ⟨token, b', hrun, hdata, ?_⟩
      rw [herror]
      refine ⟨h, fun hzero => ?_⟩
      have := hbounds hzero
      omega
  | some header =>
      obtain ⟨width, n⟩ := header
      obtain ⟨hwidth, hn⟩ := lengthHeader_bounds hheader
      rw [TvuBuffer.length_rest, hoffset, TvuBuffer.size_skip] at hwidth
      rw [tvnpDecodeSpan_of_header indeterminate type trailer hle hheader, hoffset,
        TvuBuffer.size_skip, TvuBuffer.skip_skip, TvuBuffer.skip_skip]
      split_ifs with hshort
      · refine ⟨_, _, rfl, rfl, h, fun _ => ?_⟩
        rw [TvuBuffer.offset_skip_of_le (by omega)]
        omega
      · have hu : (⟨type, BitVec.ofNat 64 n, b.offset + 1 + width⟩ : TvnpToken).u = n := by
          rw [TvnpToken.u, BitVec.toNat_ofNat]
          exact Nat.mod_eq_of_lt (by omega)
        have hend : (b.skip (1 + (width + n + trailer))).offset =
            b.offset + (1 + (width + n + trailer)) :=
          TvuBuffer.offset_skip (by unfold TvuBuffer.size at *; omega)
        refine ⟨_, _, rfl, rfl, ?_⟩
        rcases htype with ⟨rfl, rfl⟩ | ⟨rfl, rfl⟩
        all_goals
          simp only [hu, hend]
          omega

private theorem tvnpDecodeContainer_outcome {b : TvuBuffer} (indeterminate : TvnpToken)
    (c : UInt8) {type : TvnpType} (h : b.offset < b.size)
    (htype : type = .tokenList ∨ type = .tokenDictionary) :
    ∃ token b', tvnpDecodeContainer indeterminate (b.skip 1) c type = some (token, b') ∧
      DecodeOutcome indeterminate b token b' := by
  have hoffset : (b.skip 1).offset = b.offset + 1 := TvuBuffer.offset_skip_of_le h
  have hle : (b.skip 1).offset ≤ (b.skip 1).size := by
    rw [hoffset]
    exact h
  rw [tvnpDecodeContainer_eq _ _ _ hle]
  cases hheader : lengthHeader c (b.skip 1).rest with
  | none =>
      refine ⟨_, _, rfl, outcome_plain rfl ?_ ?_ (by simp)⟩
      all_goals
        rw [hoffset]
        omega
  | some header =>
      have hwidth := (lengthHeader_bounds hheader).1
      rw [TvuBuffer.length_rest, hoffset, TvuBuffer.size_skip] at hwidth
      refine ⟨_, _, rfl, outcome_plain rfl ?_ ?_ ?_⟩
      · rw [TvuBuffer.skip_skip, TvuBuffer.offset_skip_of_le (by omega)]
        omega
      · rw [TvuBuffer.skip_skip, TvuBuffer.offset_skip_of_le (by omega)]
        omega
      · rcases htype with rfl | rfl <;> simp

theorem shiftRight_five_lt (c : UInt8) : (c >>> 5).toNat < 8 := by
  have hc := c.toNat_lt
  have hdiv : (c >>> 5).toNat = c.toNat / 32 := by
    rw [UInt8.toNat_shiftRight]
    exact Nat.shiftRight_eq_div_pow _ 5
  omega

theorem tvnpDecodeSwitch_outcome {b : TvuBuffer} (indeterminate : TvnpToken) (c : UInt8)
    (h : b.offset < b.size) :
    ∃ token b', tvnpDecodeSwitch indeterminate (b.skip 1) c = some (token, b') ∧
      DecodeOutcome indeterminate b token b' := by
  have hshift := shiftRight_five_lt c
  have hoffset : (b.skip 1).offset = b.offset + 1 := TvuBuffer.offset_skip_of_le h
  have hnumber : ∃ token b', tvnpDecodeNumber indeterminate (b.skip 1) c = some (token, b') ∧
      DecodeOutcome indeterminate b token b' := by
    obtain ⟨token, b', hrun, hdata, hlo, hhi, htype⟩ :=
      tvnpDecodeNumber_outcome (b := b.skip 1) indeterminate c (by rw [hoffset]; exact h)
    refine ⟨token, b', hrun, outcome_plain hdata (by omega) hhi ?_⟩
    rcases htype with htype | htype | htype | htype <;> simp [htype]
  unfold tvnpDecodeSwitch
  split
  · exact hnumber
  · exact hnumber
  · exact hnumber
  · exact hnumber
  · exact tvnpDecodeSpan_outcome indeterminate c h (.inl ⟨rfl, rfl⟩)
  · exact tvnpDecodeSpan_outcome indeterminate c h (.inr ⟨rfl, rfl⟩)
  · exact tvnpDecodeContainer_outcome indeterminate c h (.inl rfl)
  · exact tvnpDecodeContainer_outcome indeterminate c h (.inr rfl)
  · simp only [imp_false] at *
    omega

theorem tvnpDecodeToken_outcome {b : TvuBuffer} (indeterminate : TvnpToken)
    (h : b.offset ≤ b.size + 1) :
    ∃ token b', tvnpDecodeToken indeterminate b = some (token, b') ∧
      DecodeOutcome indeterminate b token b' := by
  have hblock := b.size_lt
  have hover : b.overruns 1 = true ↔ b.size < b.offset + 1 :=
    TvuBuffer.overruns_iff (by unfold TvuBuffer.size at h; omega)
  unfold tvnpDecodeToken
  split_ifs with hend
  · exact ⟨_, _, rfl, rfl, by have := hover.mp hend; omega, rfl⟩
  · rw [hover] at hend
    have hlt : b.offset < b.data.length := by unfold TvuBuffer.size at hend; omega
    rw [List.getElem?_eq_getElem hlt, Option.bind_eq_bind, Option.bind_some]
    exact tvnpDecodeSwitch_outcome indeterminate _ (by omega)

theorem tvnpDecodeToken_some {b b' : TvuBuffer} {indeterminate token : TvnpToken}
    (hrun : tvnpDecodeToken indeterminate b = some (token, b'))
    (hend : token.type ≠ .tokenEnd) :
    b.offset < b.size ∧ DecodeOutcome indeterminate b token b' := by
  have hlt : b.offset < b.size := by
    unfold tvnpDecodeToken at hrun
    split at hrun
    · obtain ⟨rfl, -⟩ := Prod.mk.inj (Option.some.inj hrun)
      contradiction
    · obtain ⟨c, hc, -⟩ := Option.bind_eq_some_iff.mp hrun
      exact (List.getElem?_eq_some_iff.mp hc).1
  obtain ⟨token', b'', hrun', houtcome⟩ :=
    tvnpDecodeToken_outcome indeterminate (b := b) (by omega)
  rw [hrun] at hrun'
  cases hrun'
  exact ⟨hlt, houtcome⟩

namespace DecodeOutcome

variable {indeterminate token : TvnpToken} {b b' : TvuBuffer}

theorem tokenEnd_iff (h : DecodeOutcome indeterminate b token b') :
    token.type = .tokenEnd ↔ b.size ≤ b.offset := by
  obtain ⟨-, h⟩ := h
  constructor
  · intro hend
    rw [hend] at h
    exact h.1
  · intro hle
    split at h
    · assumption
    all_goals omega

theorem eq_of_tokenEnd (h : DecodeOutcome indeterminate b token b')
    (hend : token.type = .tokenEnd) : b' = b := by
  obtain ⟨-, h⟩ := h
  rw [hend] at h
  exact h.2

theorem offset_lt (h : DecodeOutcome indeterminate b token b') (hzero : indeterminate.u = 0)
    (hend : token.type ≠ .tokenEnd) : b.offset < b'.offset ∧ b'.offset ≤ b.size + 1 := by
  obtain ⟨-, h⟩ := h
  split at h
  · contradiction
  · exact h.2 hzero
  all_goals omega

theorem span_le (h : DecodeOutcome indeterminate b token b')
    (htype : token.type = .tokenUtf8String ∨ token.type = .tokenBinString) :
    token.data + token.u ≤ b.size := by
  obtain ⟨-, h⟩ := h
  rcases htype with htype | htype
  all_goals
    rw [htype] at h
    exact h.2.1

end DecodeOutcome

/-! ## Any number of calls -/

structure DecodeCall where
  before : TvuBuffer
  token : TvnpToken
  after : TvuBuffer

namespace DecodeCall

def ReturnsEnd (call : DecodeCall) : Prop := call.token.type = .tokenEnd

instance (call : DecodeCall) : Decidable call.ReturnsEnd :=
  inferInstanceAs (Decidable (_ = _))

/-- The call read a buffer of `size` bytes and made progress unless it returned the end. -/
structure Bounded (size : Nat) (call : DecodeCall) : Prop where
  data_eq : call.after.data = call.before.data
  span_le : call.token.type = .tokenUtf8String ∨ call.token.type = .tokenBinString →
    call.token.data + call.token.u ≤ size
  offset_lt : ¬ call.ReturnsEnd → call.before.offset < call.after.offset
  unchanged : call.ReturnsEnd → call.after = call.before

end DecodeCall

def decodeCalls (indeterminate : TvnpToken) : Nat → TvuBuffer → Option (List DecodeCall)
  | 0, _ => some []
  | n + 1, b => do
      let (token, b') ← tvnpDecodeToken indeterminate b
      let calls ← decodeCalls indeterminate n b'
      some (⟨b, token, b'⟩ :: calls)

structure RunBounds (size offset n : Nat) (calls : List DecodeCall) : Prop where
  length_eq : calls.length = n
  bounded : ∀ call ∈ calls, call.Bounded size
  end_stays : calls.Pairwise fun earlier later => earlier.ReturnsEnd → later.ReturnsEnd
  end_of_le : size ≤ offset → ∀ call ∈ calls, call.ReturnsEnd
  count_le : (calls.filter fun call => ¬ call.ReturnsEnd).length ≤ size - offset

private theorem runBounds_cons {b b' : TvuBuffer} {token : TvnpToken} {n : Nat}
    {calls : List DecodeCall} (h : DecodeOutcome .zeroFilled b token b')
    (hcalls : RunBounds b.size b'.offset n calls) :
    RunBounds b.size b.offset (n + 1) (⟨b, token, b'⟩ :: calls) := by
  have hend : DecodeCall.ReturnsEnd ⟨b, token, b'⟩ ↔ b.size ≤ b.offset := h.tokenEnd_iff
  have hsame : b.size ≤ b.offset → b' = b := fun hle => h.eq_of_tokenEnd (hend.mpr hle)
  have hall : b.size ≤ b.offset → ∀ call ∈ calls, call.ReturnsEnd := fun hle =>
    hcalls.end_of_le (by rw [hsame hle]; exact hle)
  constructor
  · rw [List.length_cons, hcalls.length_eq]
  · intro call hmem
    rcases List.mem_cons.mp hmem with rfl | hmem
    · exact ⟨h.1, h.span_le, fun hnot => (h.offset_lt rfl hnot).1, h.eq_of_tokenEnd⟩
    · exact hcalls.bounded call hmem
  · exact List.pairwise_cons.mpr
      ⟨fun later hlater hfirst => hall (hend.mp hfirst) later hlater, hcalls.end_stays⟩
  · intro hle call hmem
    rcases List.mem_cons.mp hmem with rfl | hmem
    · exact hend.mpr hle
    · exact hall hle call hmem
  · have hcount := hcalls.count_le
    by_cases hle : b.size ≤ b.offset
    · rw [List.filter_cons_of_neg (by simpa using hend.mpr hle)]
      rw [hsame hle] at hcount
      exact hcount
    · have hprogress := h.offset_lt rfl (fun htype => hle (hend.mp htype))
      rw [List.filter_cons_of_pos (by simpa using fun htype => hle (hend.mp htype)),
        List.length_cons]
      omega

private theorem decodeCalls_runBounds (n : Nat) {b : TvuBuffer} (h : b.offset ≤ b.size + 1) :
    ∃ calls, decodeCalls .zeroFilled n b = some calls ∧
      RunBounds b.size b.offset n calls := by
  induction n generalizing b with
  | zero => exact ⟨[], rfl, rfl, by simp, List.Pairwise.nil, by simp, Nat.zero_le _⟩
  | succ n ih =>
      obtain ⟨token, b', hrun, houtcome⟩ := tvnpDecodeToken_outcome .zeroFilled h
      have hsize : b'.size = b.size := congrArg List.length houtcome.1
      have hnext : b'.offset ≤ b'.size + 1 := by
        rw [hsize]
        by_cases hend : token.type = .tokenEnd
        · rw [houtcome.eq_of_tokenEnd hend]
          exact h
        · exact (houtcome.offset_lt rfl hend).2
      obtain ⟨calls, hcalls, hbounds⟩ := ih hnext
      rw [hsize] at hbounds
      refine ⟨⟨b, token, b'⟩ :: calls, ?_, runBounds_cons houtcome hbounds⟩
      simp only [decodeCalls, hrun, hcalls, Option.bind_eq_bind, Option.bind_some]

/--
Any number of calls from an offset inside the buffer: no load is outside, the
strings lie inside, each call but the end makes progress, the end stays, and a
loop that stops at the end stops.
-/
theorem decodeCalls_stay_in_bounds (b : TvuBuffer) (h : b.offset ≤ b.size) (n : Nat) :
    ∃ calls, decodeCalls .zeroFilled n b = some calls ∧ calls.length = n ∧
      (∀ call ∈ calls, call.Bounded b.size) ∧
      calls.Pairwise (fun earlier later => earlier.ReturnsEnd → later.ReturnsEnd) ∧
      (calls.filter fun call => ¬ call.ReturnsEnd).length ≤ b.size ∧
      (b.size < n → ∃ call ∈ calls, call.ReturnsEnd) := by
  obtain ⟨calls, hrun, hbounds⟩ := decodeCalls_runBounds n (b := b) (by omega)
  have hcount := hbounds.count_le
  refine ⟨calls, hrun, hbounds.length_eq, hbounds.bounded, hbounds.end_stays, by omega, ?_⟩
  intro hlong
  by_contra hnone
  push Not at hnone
  rw [List.filter_eq_self.mpr (by simpa using hnone), hbounds.length_eq] at hcount
  omega

def cutString : TvuBuffer := ⟨[0x81, 0x41], 0, by decide, TvuBuffer.start_lt⟩

theorem decodeCalls_cutString :
    ∃ calls, decodeCalls .zeroFilled 3 cutString = some calls ∧
      ∃ call ∈ calls, call.ReturnsEnd := by
  obtain ⟨calls, hrun, -, -, -, -, hend⟩ :=
    decodeCalls_stay_in_bounds cutString (by decide) 3
  exact ⟨calls, hrun, hend (by decide)⟩

end Libtvnet
