import Libtvnet.PythonGrammar
import Libtvnet.TokenCodec

/-!
# The shortest bytes of a token

The decoder takes a number or a length in a wider form than it needs, and the
encoder has one form for each of them.  No form that the decoder takes for a
token is shorter than the one of the encoder, floats apart: a 32-bit NaN comes
back in 64 bits.
-/

namespace Libtvnet

open Libtvnet.Foundation

/-! ## Integers -/

private theorem toInt_ofInt_signExtend {bits : Nat} (hbits : 0 < bits) (hword : bits ≤ 64)
    (n : Nat) :
    (Int64.ofInt (signExtend bits n)).toInt = signExtend bits n := by
  obtain ⟨hlo, hhi⟩ := signExtend_bounds hbits n
  have hpow : 2 ^ (bits - 1) ≤ 2 ^ 63 := Nat.pow_le_pow_right (by decide) (by omega)
  have hsize : Int64.size = 2 ^ 64 := rfl
  rw [Int64.toInt_ofInt, hsize]
  exact Int.bmod_eq_of_le (by omega) (by omega)

private theorem tvuGetBeI_holds {bits : Nat} (hbits : 0 < bits) (hword : bits ≤ 64)
    (bytes : List UInt8) : IntegerType.Holds ⟨true, bits⟩ (tvuGetBeI bits bytes).toInt := by
  obtain ⟨hlo, hhi⟩ := signExtend_bounds hbits (ofBigEndian bytes)
  rw [IntegerType.holds_signed, tvuGetBeI, toInt_ofInt_signExtend hbits hword]
  push_cast at hlo hhi
  omega

private theorem length_integerBytes_inline {x : Int64} (h : -58 ≤ x.toInt ∧ x.toInt ≤ 63) :
    (integerBytes x).length = 1 := by
  rw [integerBytes, if_pos h]
  rfl

private theorem length_integerBytes_le {x : Int64} {bits : Nat}
    (hbits : bits = 16 ∨ bits = 32 ∨ bits = 64) (h : IntegerType.Holds ⟨true, bits⟩ x.toInt) :
    (integerBytes x).length ≤ bits / 8 + 1 := by
  unfold integerBytes
  rcases hbits with rfl | rfl | rfl
  · split_ifs with h7 h16 h32
    · simp
    · simp
    · exact absurd h h16
    · exact absurd h h16
  · split_ifs with h7 h16 h32
    · simp
    · simp
    · simp
    · exact absurd h h32
  · split_ifs <;> simp

private theorem tvuSignExtendU8_inline {c : UInt8} (hc : c.toNat < 0x80)
    (hcontrol : c.toNat < 0x40 ∨ 0x45 < c.toNat) :
    -58 ≤ (tvuSignExtendU8 c 7).toInt ∧ (tvuSignExtendU8 c 7).toInt ≤ 63 := by
  have hmod : c.toNat % 2 ^ 7 = c.toNat := Nat.mod_eq_of_lt hc
  rw [tvuSignExtendU8, hmod, toInt_ofInt_signExtend (by decide) (by decide), signExtend,
    Int.bmod_def]
  push_cast
  split <;> omega

theorem tvnpDecodeField_cases {token token' : TvnpToken} {b b' : TvuBuffer} {size : Nat}
    {type : TvnpType} {get : List UInt8 → BitVec 64} (hsize : size ≤ 8) (h : b.offset ≤ b.size)
    (hrun : tvnpDecodeField token b size type get = some (token', b')) :
    token'.type = .tokenError ∨
      (token'.type = type ∧ token'.value = get (b.rest.take size) ∧
        b'.offset = b.offset + size) := by
  by_cases hfits : b.offset + size ≤ b.size
  · rw [tvnpDecodeField_of_fits hfits] at hrun
    cases hrun
    exact .inr ⟨rfl, rfl, TvuBuffer.offset_skip_of_le hfits⟩
  · have hblock := b.size_lt
    rw [tvnpDecodeField_of_short (by omega) (by unfold TvuBuffer.size at h; omega)] at hrun
    cases hrun
    exact .inl rfl

section Numbers

variable {indeterminate token : TvnpToken} {b b' : TvuBuffer}

private theorem tvnpDecodeInteger_shortest {bits : Nat}
    (hbits : bits = 16 ∨ bits = 32 ∨ bits = 64) (h : b.offset ≤ b.size)
    (hrun : tvnpDecodeInteger indeterminate b bits .tokenInteger = some (token, b'))
    (htype : token.type = .tokenInteger) :
    b.offset + (integerBytes token.i).length ≤ b'.offset + 1 := by
  have hrange : 0 < bits ∧ bits ≤ 64 ∧ bits / 8 ≤ 8 := by
    rcases hbits with rfl | rfl | rfl <;> decide
  rcases tvnpDecodeField_cases hrange.2.2 h hrun with herror | ⟨-, hvalue, hend⟩
  · rw [htype] at herror
    contradiction
  · have hi : token.i = tvuGetBeI bits (b.rest.take (bits / 8)) := by
      rw [TvnpToken.i, hvalue]
      rfl
    have hlength := length_integerBytes_le hbits
      (tvuGetBeI_holds hrange.1 hrange.2.1 (b.rest.take (bits / 8)))
    rw [hi, hend]
    omega

private theorem tvnpDecodeNumber_shortest {c : UInt8} (hc : c.toNat < 0x80) (h : b.offset ≤ b.size)
    (hrun : tvnpDecodeNumber indeterminate b c = some (token, b')) :
    (token.type = .tokenInteger →
      b.offset + (integerBytes token.i).length ≤ b'.offset + 1) ∧
    (token.type = .tokenNull ∨ token.type = .tokenInteger ∨ token.type = .tokenFloat ∨
      token.type = .tokenError) := by
  by_cases hinline : c.toNat < 0x40 ∨ 0x45 < c.toNat
  · rw [tvnpDecodeNumber_inline _ _ hinline] at hrun
    cases hrun
    refine ⟨fun _ => ?_, .inr (.inl rfl)⟩
    have hlength := length_integerBytes_inline (tvuSignExtendU8_inline hc hinline)
    change b.offset + (integerBytes (tvuSignExtendU8 c 7)).length ≤ b.offset + 1
    omega
  · have hcontrol : c.toNat = 0x40 ∨ c.toNat = 0x41 ∨ c.toNat = 0x42 ∨ c.toNat = 0x43 ∨
        c.toNat = 0x44 ∨ c.toNat = 0x45 := by omega
    have hfloat {size : Nat} {get : List UInt8 → BitVec 64} (hsize : size ≤ 8)
        (hfield : tvnpDecodeField indeterminate b size .tokenFloat get = some (token, b')) :
        token.type = .tokenError ∨ token.type = .tokenFloat :=
      (tvnpDecodeField_cases hsize h hfield).imp_right And.left
    have hinteger {bits : Nat} (hbits : bits = 16 ∨ bits = 32 ∨ bits = 64)
        (hfield : tvnpDecodeInteger indeterminate b bits .tokenInteger = some (token, b')) :
        token.type = .tokenError ∨ token.type = .tokenInteger := by
      have hsize : bits / 8 ≤ 8 := by omega
      exact (tvnpDecodeField_cases hsize h hfield).imp_right And.left
    unfold tvnpDecodeNumber at hrun
    rcases hcontrol with hc | hc | hc | hc | hc | hc <;> simp only [hc] at hrun
    · cases hrun
      simp
    · rcases hfloat (by decide) hrun with htype | htype <;> simp [htype]
    · rcases hfloat (by decide) hrun with htype | htype <;> simp [htype]
    · exact ⟨tvnpDecodeInteger_shortest (by decide) h hrun,
        by rcases hinteger (by decide) hrun with htype | htype <;> simp [htype]⟩
    · exact ⟨tvnpDecodeInteger_shortest (by decide) h hrun,
        by rcases hinteger (by decide) hrun with htype | htype <;> simp [htype]⟩
    · exact ⟨tvnpDecodeInteger_shortest (by decide) h hrun,
        by rcases hinteger (by decide) hrun with htype | htype <;> simp [htype]⟩

end Numbers

/-! ## Length headers -/

private theorem length_compoundBytes_le {c : UInt8} {bytes : List UInt8} {width n : Nat}
    (h : lengthHeader c bytes = some (width, n)) (control : UInt8) :
    (compoundBytes control n).length ≤ width + 1 := by
  have htag : (c &&& 0x1f).toNat ≤ 0x1f := by
    rw [UInt8.toNat_and]
    exact Nat.and_le_right
  unfold lengthHeader at h
  split_ifs at h with hzero hfits
  · cases h
    have hinline : (c &&& 0x1f).toNat ≤ 0x1c := by
      unfold headerWidth at hzero
      split_ifs at hzero
      omega
    rw [compoundBytes, if_pos hinline]
    rfl
  · cases h
    have hlt := ofBigEndian_lt (bytes.take (headerWidth c))
    rw [List.length_take, Nat.min_eq_left hfits] at hlt
    have hwidth : headerWidth c = 1 ∨ headerWidth c = 2 ∨ headerWidth c = 4 := by
      unfold headerWidth at hzero ⊢
      split_ifs at hzero ⊢ <;> first | exact absurd rfl hzero | simp
    unfold compoundBytes
    rcases hwidth with hwidth | hwidth | hwidth
    all_goals
      rw [hwidth] at hlt ⊢
      split_ifs <;> simp <;> omega

section Headers

variable {indeterminate token : TvnpToken} {b b' : TvuBuffer} {c : UInt8} {type : TvnpType}

theorem tvnpDecodeContainer_cases (h : b.offset ≤ b.size)
    (hrun : tvnpDecodeContainer indeterminate b c type = some (token, b')) :
    token.type = .tokenError ∨
      ∃ width, lengthHeader c b.rest = some (width, token.u) ∧ token.type = type ∧
        b'.offset = b.offset + width := by
  rw [tvnpDecodeContainer_eq _ _ _ h] at hrun
  cases hheader : lengthHeader c b.rest with
  | none =>
      rw [hheader] at hrun
      cases hrun
      exact .inl rfl
  | some header =>
      obtain ⟨width, n⟩ := header
      obtain ⟨hwidth, hn⟩ := lengthHeader_bounds hheader
      rw [TvuBuffer.length_rest] at hwidth
      rw [hheader] at hrun
      cases hrun
      refine .inr ⟨width, ?_, rfl, TvuBuffer.offset_skip_of_le (by omega)⟩
      rw [TvnpToken.u_ofNat hn _ _]

theorem tvnpDecodeSpan_cases {trailer : Nat} (htrailer : trailer ≤ 1) (h : b.offset ≤ b.size)
    (hrun : tvnpDecodeSpan indeterminate b c type trailer = some (token, b')) :
    token.type = .tokenError ∨
      ∃ width, lengthHeader c b.rest = some (width, token.u) ∧ token.type = type ∧
        b'.offset = b.offset + width + token.u + trailer := by
  cases hheader : lengthHeader c b.rest with
  | none =>
      obtain ⟨token', b'', hrun', herror, -⟩ :=
        tvnpDecodeSpan_of_cut indeterminate type htrailer h hheader
      rw [hrun] at hrun'
      cases hrun'
      exact .inl herror
  | some header =>
      obtain ⟨width, n⟩ := header
      obtain ⟨hwidth, hn⟩ := lengthHeader_bounds hheader
      have hblock := b.size_lt
      rw [TvuBuffer.length_rest] at hwidth
      rw [tvnpDecodeSpan_of_header indeterminate type trailer h hheader] at hrun
      split_ifs at hrun with hshort
      · cases hrun
        exact .inl rfl
      · cases hrun
        rw [TvnpToken.u_ofNat hn _ _]
        refine .inr ⟨width, rfl, rfl, ?_⟩
        rw [TvuBuffer.offset_skip (by unfold TvuBuffer.size at *; omega)]
        omega

end Headers

/-! ## Tokens -/

def TvnpToken.meaning (token : TvnpToken) (data : List UInt8) : Option Token :=
  match token.type with
  | .tokenEnd | .tokenError => none
  | .tokenNull => some .null
  | .tokenInteger => some (.integer token.i)
  | .tokenFloat => some (.float token.f)
  | .tokenUtf8String => some (.utf8 (token.span data))
  | .tokenBinString => some (.binary (token.span data))
  | .tokenList => some (.list token.u)
  | .tokenDictionary => some (.dictionary token.u)

section Tokens

variable {indeterminate token : TvnpToken} {b b' : TvuBuffer}

theorem length_span_of_string (hrun : tvnpDecodeToken indeterminate b = some (token, b'))
    (htype : token.type = .tokenUtf8String ∨ token.type = .tokenBinString) :
    (token.span b.data).length = token.u := by
  obtain ⟨-, houtcome⟩ := tvnpDecodeToken_some hrun (by rcases htype with h | h <;> simp [h])
  have hspan := houtcome.span_le htype
  unfold TvuBuffer.size at hspan
  rw [TvnpToken.span, List.length_take, List.length_drop]
  omega

/-- What the shortest form of a decoded token takes of the bytes that the decoder went over. -/
def ShortestOutcome (b : TvuBuffer) (token : TvnpToken) (b' : TvuBuffer) : Prop :=
  match token.type with
  | .tokenInteger => b.offset + (integerBytes token.i).length ≤ b'.offset
  | .tokenUtf8String => token.u < 2 ^ 32 ∧
      ∀ control, b.offset + (compoundBytes control token.u).length + token.u + 1 ≤ b'.offset
  | .tokenBinString => token.u < 2 ^ 32 ∧
      ∀ control, b.offset + (compoundBytes control token.u).length + token.u ≤ b'.offset
  | .tokenList | .tokenDictionary => token.u < 2 ^ 32 ∧
      ∀ control, b.offset + (compoundBytes control token.u).length ≤ b'.offset
  | _ => True

private theorem tvnpDecodeSwitch_shortest {c : UInt8} (h : b.offset < b.size)
    (hrun : tvnpDecodeSwitch indeterminate (b.skip 1) c = some (token, b')) :
    ShortestOutcome b token b' := by
  have hoffset : (b.skip 1).offset = b.offset + 1 := TvuBuffer.offset_skip_of_le h
  have hle : (b.skip 1).offset ≤ (b.skip 1).size := by
    rw [hoffset]
    exact h
  have hshift : (c >>> 5).toNat = c.toNat / 32 := by
    rw [UInt8.toNat_shiftRight]
    exact Nat.shiftRight_eq_div_pow _ 5
  have hnumber (hc : c.toNat < 0x80)
      (hrun : tvnpDecodeNumber indeterminate (b.skip 1) c = some (token, b')) :
      ShortestOutcome b token b' := by
    obtain ⟨hinteger, htype⟩ := tvnpDecodeNumber_shortest hc hle hrun
    rw [hoffset] at hinteger
    unfold ShortestOutcome
    rcases htype with htype | htype | htype | htype <;> simp only [htype]
    have hlength := hinteger htype
    omega
  have hspan {type : TvnpType} {trailer : Nat} (htrailer : trailer ≤ 1)
      (hrun : tvnpDecodeSpan indeterminate (b.skip 1) c type trailer = some (token, b')) :
      token.type = .tokenError ∨ (token.type = type ∧ token.u < 2 ^ 32 ∧ ∀ control,
        b.offset + (compoundBytes control token.u).length + token.u + trailer ≤ b'.offset) := by
    refine (tvnpDecodeSpan_cases htrailer hle hrun).imp_right ?_
    rintro ⟨width, hheader, htype, hend⟩
    refine ⟨htype, (lengthHeader_bounds hheader).2, fun control => ?_⟩
    have hlength := length_compoundBytes_le hheader control
    omega
  have hcontainer {type : TvnpType}
      (hrun : tvnpDecodeContainer indeterminate (b.skip 1) c type = some (token, b')) :
      token.type = .tokenError ∨ (token.type = type ∧ token.u < 2 ^ 32 ∧ ∀ control,
        b.offset + (compoundBytes control token.u).length ≤ b'.offset) := by
    refine (tvnpDecodeContainer_cases hle hrun).imp_right ?_
    rintro ⟨width, hheader, htype, hend⟩
    refine ⟨htype, (lengthHeader_bounds hheader).2, fun control => ?_⟩
    have hlength := length_compoundBytes_le hheader control
    omega
  unfold tvnpDecodeSwitch at hrun
  split at hrun
  · exact hnumber (by omega) hrun
  · exact hnumber (by omega) hrun
  · exact hnumber (by omega) hrun
  · exact hnumber (by omega) hrun
  · rcases hspan (by decide) hrun with herror | ⟨htype, hfits⟩
    · simp [ShortestOutcome, herror]
    · simpa only [ShortestOutcome, htype] using hfits
  · rcases hspan (by decide) hrun with herror | ⟨htype, hfits⟩
    · simp [ShortestOutcome, herror]
    · simpa only [ShortestOutcome, htype, Nat.add_zero] using hfits
  · rcases hcontainer hrun with herror | ⟨htype, hfits⟩
    · simp [ShortestOutcome, herror]
    · simpa only [ShortestOutcome, htype] using hfits
  · rcases hcontainer hrun with herror | ⟨htype, hfits⟩
    · simp [ShortestOutcome, herror]
    · simpa only [ShortestOutcome, htype] using hfits
  · have hlt := shiftRight_five_lt c
    simp only [imp_false] at *
    omega

theorem tvnpDecodeToken_shortestOutcome
    (hrun : tvnpDecodeToken indeterminate b = some (token, b')) : ShortestOutcome b token b' := by
  unfold tvnpDecodeToken at hrun
  split at hrun
  · cases hrun
    trivial
  · obtain ⟨c, hc, hrun⟩ := Option.bind_eq_some_iff.mp hrun
    exact tvnpDecodeSwitch_shortest (List.getElem?_eq_some_iff.mp hc).1 hrun

theorem tvnpDecodeToken_shortest (hrun : tvnpDecodeToken indeterminate b = some (token, b'))
    {t : Token} (ht : token.meaning b.data = some t) (hfloat : token.type ≠ .tokenFloat) :
    t.Valid ∧ b.offset + t.bytes.length ≤ b'.offset := by
  have hend : token.type ≠ .tokenEnd := by
    intro h
    simp [TvnpToken.meaning, h] at ht
  obtain ⟨-, -, hmove⟩ := tvnpDecodeToken_some hrun hend
  have hshortest := tvnpDecodeToken_shortestOutcome hrun
  have hstring := length_span_of_string hrun
  unfold ShortestOutcome at hshortest
  unfold TvnpToken.meaning at ht
  cases htype : token.type <;> simp only [htype] at ht hmove hshortest hstring
  case tokenEnd | tokenError => contradiction
  case tokenFloat => contradiction
  case tokenNull =>
    obtain rfl := Option.some.inj ht
    exact ⟨trivial, hmove.1⟩
  case tokenInteger =>
    obtain rfl := Option.some.inj ht
    exact ⟨trivial, hshortest⟩
  case tokenUtf8String =>
    obtain rfl := Option.some.inj ht
    have hlength := hstring (.inl trivial)
    have hbytes := hshortest.2 0x80
    refine ⟨by rw [Token.Valid, hlength]; exact hshortest.1, ?_⟩
    simp only [Token.bytes, List.length_append, List.length_singleton, hlength]
    omega
  case tokenBinString =>
    obtain rfl := Option.some.inj ht
    have hlength := hstring (.inr trivial)
    have hbytes := hshortest.2 0xa0
    refine ⟨by rw [Token.Valid, hlength]; exact hshortest.1, ?_⟩
    simp only [Token.bytes, List.length_append, hlength]
    omega
  case tokenList =>
    obtain rfl := Option.some.inj ht
    exact ⟨hshortest.1, hshortest.2 0xc0⟩
  case tokenDictionary =>
    obtain rfl := Option.some.inj ht
    exact ⟨hshortest.1, hshortest.2 0xe0⟩

end Tokens

end Libtvnet
