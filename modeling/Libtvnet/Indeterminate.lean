import Libtvnet.DecodeBounds

/-!
# Decoding and indeterminate memory

`tvnp_decode_container` returns early when its header is cut off, and then the
length in its token has never been set.  For a list and a dictionary this is
the end of the call.  For a string the caller goes on, and both its check and
its step use that length.
-/

namespace Libtvnet

open Libtvnet.Foundation

/-- Two tokens of one type, with what a token of this type holds. -/
def TvnpToken.Same (token token' : TvnpToken) : Prop :=
  token.type = token'.type ∧
  match token.type with
  | .tokenEnd | .tokenError | .tokenNull => True
  | .tokenInteger | .tokenFloat | .tokenList | .tokenDictionary => token.value = token'.value
  | .tokenUtf8String | .tokenBinString =>
      token.value = token'.value ∧ token.data = token'.data

def SameDecoded : TvnpToken × TvuBuffer → TvnpToken × TvuBuffer → Prop
  | (token, b), (token', b') => token.Same token' ∧ b = b'

/-- The call gives the same for any two contents of its locals. -/
def DecodesDeterminately (b : TvuBuffer) : Prop :=
  ∀ indeterminate indeterminate',
    Option.Rel SameDecoded (tvnpDecodeToken indeterminate b) (tvnpDecodeToken indeterminate' b)

def StringHeaderCut (b : TvuBuffer) : Prop :=
  ∃ c, b.data[b.offset]? = some c ∧ ((c >>> 5).toNat = 4 ∨ (c >>> 5).toNat = 5) ∧
    b.size < b.offset + 1 + headerWidth c

/-! ## Tokens whose fields are all set -/

theorem TvnpToken.Same.of_eq {token token' : TvnpToken} (htype : token.type = token'.type)
    (hvalue : token.value = token'.value)
    (hplain : token.type ≠ .tokenUtf8String ∧ token.type ≠ .tokenBinString) :
    token.Same token' := by
  refine ⟨htype, ?_⟩
  split
  · trivial
  · trivial
  · trivial
  · exact hvalue
  · exact hvalue
  · exact hvalue
  · exact hvalue
  · next h => exact absurd h hplain.1
  · next h => exact absurd h hplain.2

theorem TvnpToken.Same.refl (token : TvnpToken) : token.Same token := by
  refine ⟨rfl, ?_⟩
  split <;> simp

theorem TvnpToken.Same.error (token token' : TvnpToken) :
    TvnpToken.Same { token with type := .tokenError } { token' with type := .tokenError } :=
  ⟨rfl, trivial⟩

section Locals

variable (token token' : TvnpToken) (b : TvuBuffer)

private theorem sameDecoded_tvnpDecodeField (size : Nat) (type : TvnpType)
    (get : List UInt8 → BitVec 64)
    (hplain : type ≠ .tokenUtf8String ∧ type ≠ .tokenBinString) :
    Option.Rel SameDecoded (tvnpDecodeField token b size type get)
      (tvnpDecodeField token' b size type get) := by
  unfold tvnpDecodeField
  split
  · exact .some ⟨.error token token', rfl⟩
  · cases b.load b.offset size with
    | none => exact .none
    | some bytes => exact .some ⟨.of_eq rfl rfl hplain, rfl⟩

private theorem sameDecoded_tvnpDecodeNumber (c : UInt8) :
    Option.Rel SameDecoded (tvnpDecodeNumber token b c) (tvnpDecodeNumber token' b c) := by
  have hfloat : TvnpType.tokenFloat ≠ .tokenUtf8String ∧ TvnpType.tokenFloat ≠ .tokenBinString :=
    by decide
  have hinteger : TvnpType.tokenInteger ≠ .tokenUtf8String ∧
      TvnpType.tokenInteger ≠ .tokenBinString := by decide
  unfold tvnpDecodeNumber
  split
  · exact .some ⟨⟨rfl, trivial⟩, rfl⟩
  · exact sameDecoded_tvnpDecodeField token token' b _ _ _ hfloat
  · exact sameDecoded_tvnpDecodeField token token' b _ _ _ hfloat
  · exact sameDecoded_tvnpDecodeField token token' b _ _ _ hinteger
  · exact sameDecoded_tvnpDecodeField token token' b _ _ _ hinteger
  · exact sameDecoded_tvnpDecodeField token token' b _ _ _ hinteger
  · exact .some ⟨.of_eq rfl rfl hinteger, rfl⟩

private theorem sameDecoded_tvnpDecodeContainer (c : UInt8) (type : TvnpType)
    (hplain : type ≠ .tokenUtf8String ∧ type ≠ .tokenBinString) :
    Option.Rel SameDecoded (tvnpDecodeContainer token b c type)
      (tvnpDecodeContainer token' b c type) := by
  unfold tvnpDecodeContainer
  split
  · exact sameDecoded_tvnpDecodeField token token' b _ _ _ hplain
  · exact sameDecoded_tvnpDecodeField token token' b _ _ _ hplain
  · exact sameDecoded_tvnpDecodeField token token' b _ _ _ hplain
  · exact .some ⟨.of_eq rfl rfl hplain, rfl⟩

end Locals

/-! ## Strings -/

private theorem lengthHeader_eq_none_iff (c : UInt8) (bytes : List UInt8) :
    lengthHeader c bytes = none ↔ bytes.length < headerWidth c := by
  unfold lengthHeader
  split_ifs with hzero hfits
  · simp [hzero]
  · simpa using hfits
  · simpa using hfits

private theorem sameDecoded_tvnpDecodeSpan {b : TvuBuffer} (token token' : TvnpToken) {c : UInt8}
    (type : TvnpType) (trailer : Nat) (h : b.offset + headerWidth c ≤ b.size) :
    Option.Rel SameDecoded (tvnpDecodeSpan token b c type trailer)
      (tvnpDecodeSpan token' b c type trailer) := by
  have hle : b.offset ≤ b.size := by omega
  cases hheader : lengthHeader c b.rest with
  | none =>
      rw [lengthHeader_eq_none_iff, TvuBuffer.length_rest] at hheader
      omega
  | some header =>
      obtain ⟨width, n⟩ := header
      rw [tvnpDecodeSpan_of_header token type trailer hle hheader,
        tvnpDecodeSpan_of_header token' type trailer hle hheader]
      split
      · exact .some ⟨⟨rfl, trivial⟩, rfl⟩
      · exact .some ⟨.refl _, rfl⟩

private theorem tvnpDecodeSpan_of_cut_offset {b : TvuBuffer} {c : UInt8} (type : TvnpType)
    {trailer : Nat} (hpos : 0 < b.offset) (h : b.offset ≤ b.size)
    (hcut : b.size < b.offset + headerWidth c) :
    ∃ token token', tvnpDecodeSpan .zeroFilled b c type trailer =
        some (token, b.skip trailer) ∧
      tvnpDecodeSpan ⟨.tokenError, BitVec.allOnes 64, 0⟩ b c type trailer =
        some (token', b.skip (2 ^ 64 - 1 + trailer)) := by
  have hblock := b.size_lt
  have hheader : lengthHeader c b.rest = none := by
    rw [lengthHeader_eq_none_iff, TvuBuffer.length_rest]
    omega
  have hnone (value : BitVec 64) (data : Nat)
      (hover : ¬ b.overruns value.toNat = true) :
      tvnpDecodeSpan ⟨.tokenError, value, data⟩ b c type trailer =
        some (⟨.tokenError, value, b.offset⟩, b.skip (value.toNat + trailer)) := by
    rw [tvnpDecodeSpan, tvnpDecodeContainer_eq _ _ _ h, hheader, headerResult]
    exact if_neg hover
  have hzero : ¬ b.overruns 0 = true := by
    rw [TvuBuffer.overruns_iff (by unfold TvuBuffer.size at h; omega)]
    omega
  have hones : ¬ b.overruns (BitVec.allOnes 64).toNat = true := by
    rw [BitVec.toNat_allOnes, TvuBuffer.overruns, decide_eq_true_eq]
    unfold TvuBuffer.size at *
    omega
  have hnothing := hnone 0 0 hzero
  have hwrapped := hnone (BitVec.allOnes 64) 0 hones
  rw [show (0 : BitVec 64).toNat = 0 from rfl, Nat.zero_add] at hnothing
  exact ⟨_, _, hnothing, hwrapped⟩

/-! ## One call -/

private theorem decodesDeterminately_of_not_cut {b : TvuBuffer} (h : ¬ StringHeaderCut b) :
    DecodesDeterminately b := by
  intro token token'
  unfold tvnpDecodeToken
  split
  · exact .some ⟨⟨rfl, trivial⟩, rfl⟩
  · cases hc : b.data[b.offset]? with
    | none => exact .none
    | some c =>
        obtain ⟨hlt, -⟩ := List.getElem?_eq_some_iff.mp hc
        have hoffset : (b.skip 1).offset = b.offset + 1 := TvuBuffer.offset_skip_of_le hlt
        have hfits (hstring : (c >>> 5).toNat = 4 ∨ (c >>> 5).toNat = 5) :
            (b.skip 1).offset + headerWidth c ≤ (b.skip 1).size := by
          by_contra hcut
          rw [hoffset, TvuBuffer.size_skip] at hcut
          exact h ⟨c, hc, hstring, by omega⟩
        have hlt := shiftRight_five_lt c
        simp only [Option.bind_eq_bind, Option.bind_some]
        unfold tvnpDecodeSwitch
        split
        · exact sameDecoded_tvnpDecodeNumber token token' _ c
        · exact sameDecoded_tvnpDecodeNumber token token' _ c
        · exact sameDecoded_tvnpDecodeNumber token token' _ c
        · exact sameDecoded_tvnpDecodeNumber token token' _ c
        · next hutf8 => exact sameDecoded_tvnpDecodeSpan token token' _ _ (hfits (.inl hutf8))
        · next hbinary => exact sameDecoded_tvnpDecodeSpan token token' _ _ (hfits (.inr hbinary))
        · exact sameDecoded_tvnpDecodeContainer token token' _ c _ (by decide)
        · exact sameDecoded_tvnpDecodeContainer token token' _ c _ (by decide)
        · simp only [imp_false] at *
          omega

private theorem tvnpDecodeToken_of_cut {b : TvuBuffer} (h : StringHeaderCut b) :
    ∃ c type trailer, trailer ≤ 1 ∧ (b.skip 1).offset = b.offset + 1 ∧ b.offset < b.size ∧
      b.size < b.offset + 1 + headerWidth c ∧
      ∀ indeterminate, tvnpDecodeToken indeterminate b =
        tvnpDecodeSpan indeterminate (b.skip 1) c type trailer := by
  obtain ⟨c, hc, hstring, hcut⟩ := h
  obtain ⟨hlt, -⟩ := List.getElem?_eq_some_iff.mp hc
  have hblock := b.size_lt
  have hover : ¬ b.overruns 1 = true := by
    rw [TvuBuffer.overruns_iff (by omega)]
    unfold TvuBuffer.size
    omega
  have hswitch (indeterminate : TvnpToken) : tvnpDecodeToken indeterminate b =
      tvnpDecodeSwitch indeterminate (b.skip 1) c := by
    rw [tvnpDecodeToken, if_neg hover, hc]
    rfl
  have hoffset : (b.skip 1).offset = b.offset + 1 := TvuBuffer.offset_skip_of_le hlt
  cases hstring with
  | inl hutf8 =>
      refine ⟨c, .tokenUtf8String, 1, le_refl _, hoffset, hlt, hcut, fun indeterminate => ?_⟩
      rw [hswitch]
      simp only [tvnpDecodeSwitch, hutf8]
  | inr hbinary =>
      refine ⟨c, .tokenBinString, 0, Nat.zero_le _, hoffset, hlt, hcut, fun indeterminate => ?_⟩
      rw [hswitch]
      simp only [tvnpDecodeSwitch, hbinary]

private theorem not_decodesDeterminately_of_cut {b : TvuBuffer} (h : StringHeaderCut b) :
    ¬ DecodesDeterminately b := by
  intro hsame
  obtain ⟨c, type, trailer, htrailer, hoffset, hlt, hcut, hrun⟩ := tvnpDecodeToken_of_cut h
  have hblock := b.size_lt
  obtain ⟨token, token', hzero, hones⟩ := tvnpDecodeSpan_of_cut_offset (b := b.skip 1) type
    (by omega) (by rw [hoffset]; exact hlt) (by rw [hoffset]; exact hcut)
  have hrel := hsame .zeroFilled ⟨.tokenError, BitVec.allOnes 64, 0⟩
  rw [hrun, hrun, hzero, hones] at hrel
  cases hrel with
  | some hdecoded =>
      have hend := congrArg TvuBuffer.offset hdecoded.2
      simp only [TvuBuffer.skip] at hend hoffset
      unfold TvuBuffer.size at hlt
      omega

/--
A call is determinate unless it meets a string whose length header is cut off.
That string is an error for every content of the locals, but where the offset
stands afterwards depends on them.
-/
theorem decodesDeterminately_iff (b : TvuBuffer) :
    (DecodesDeterminately b ↔ ¬ StringHeaderCut b) ∧
      (StringHeaderCut b → ∀ indeterminate, ∃ token b',
        tvnpDecodeToken indeterminate b = some (token, b') ∧ token.type = .tokenError) := by
  refine ⟨⟨fun hsame hcut => not_decodesDeterminately_of_cut hcut hsame,
    decodesDeterminately_of_not_cut⟩, fun hcut indeterminate => ?_⟩
  obtain ⟨c, type, trailer, htrailer, hoffset, hlt, hcut, hrun⟩ := tvnpDecodeToken_of_cut hcut
  have hheader : lengthHeader c (b.skip 1).rest = none := by
    rw [lengthHeader_eq_none_iff, TvuBuffer.length_rest, hoffset, TvuBuffer.size_skip]
    omega
  have hle : (b.skip 1).offset ≤ (b.skip 1).size := by
    rw [hoffset]
    exact hlt
  obtain ⟨token, b', hspan, herror, -⟩ :=
    tvnpDecodeSpan_of_cut indeterminate type htrailer hle hheader
  exact ⟨token, b', (hrun indeterminate).trans hspan, herror⟩

def cutHeader : TvuBuffer := ⟨[0x9f, 0, 0], 0, by decide, TvuBuffer.start_lt⟩

/-- Of four bytes of a length two are missing: the offset is 2 or 1, as the locals have it. -/
theorem not_decodesDeterminately_cutHeader :
    (tvnpDecodeToken .zeroFilled cutHeader).map (fun decoded => decoded.2.offset) = some 2 ∧
      (tvnpDecodeToken ⟨.tokenError, BitVec.allOnes 64, 0⟩ cutHeader).map
        (fun decoded => decoded.2.offset) = some 1 ∧
      ¬ DecodesDeterminately cutHeader := by
  have hcut : StringHeaderCut cutHeader := ⟨0x9f, by decide, by decide, by decide⟩
  exact ⟨by decide, by decide, not_decodesDeterminately_of_cut hcut⟩

end Libtvnet
