import Libtvnet.PickleDecoder

/-!
# Decoding what was encoded

`tvnp_decode_token` on the bytes of a token, with anything behind them, gives
that token and stops at the first byte behind it.
-/

namespace Libtvnet

open Libtvnet.Foundation

/-- What a decoded token says, where `data` are the bytes of its buffer. -/
def TvnpToken.Denotes (token : TvnpToken) (data : List UInt8) : Token → Prop
  | .null => token.type = .tokenNull
  | .integer x => token.type = .tokenInteger ∧ token.i = x
  | .float x => token.type = .tokenFloat ∧ token.f = x
  | .utf8 string => token.type = .tokenUtf8String ∧ token.u = string.length ∧
      string ++ [0] <+: data.drop token.data
  | .binary string => token.type = .tokenBinString ∧ token.u = string.length ∧
      string <+: data.drop token.data
  | .list count => token.type = .tokenList ∧ token.u = count
  | .dictionary count => token.type = .tokenDictionary ∧ token.u = count

/-- An integral double has become an integer, any other one is sent as it is. -/
theorem TvnpToken.cases_of_denotes_ofDouble {token : TvnpToken} {data : List UInt8}
    {undefined : Binary64 → Int} {x : Binary64}
    (h : token.Denotes data (Token.ofDouble undefined x)) :
    (x.integral = true ∧ token.type = .tokenInteger ∧
      token.i = Int64.ofInt (IntegerType.int64.ofBinary undefined x)) ∨
    (x.integral = false ∧ token.type = .tokenFloat ∧ token.f = x) := by
  unfold Token.ofDouble at h
  split at h
  · next hintegral => exact .inl ⟨hintegral, h⟩
  · next hintegral => exact .inr ⟨Bool.eq_false_iff.mpr hintegral, h⟩

/-! ## The control byte -/

theorem tvnpDecodeToken_cons {b : TvuBuffer} {c : UInt8} {bytes : List UInt8}
    (indeterminate : TvnpToken) (h : b.rest = c :: bytes) :
    tvnpDecodeToken indeterminate b = tvnpDecodeSwitch indeterminate (b.skip 1) c := by
  have hsize := b.size_lt
  have hle : b.offset + 1 ≤ b.size :=
    TvuBuffer.offset_add_le (List.cons_ne_nil c []) h
  have hnot : ¬ b.overruns 1 = true := by
    unfold TvuBuffer.size at hle
    rw [TvuBuffer.overruns_iff (by omega), TvuBuffer.size]
    omega
  have hbyte : b.data[b.offset]? = some c := by
    have hhead := congrArg (·[0]?) h
    simpa [TvuBuffer.rest] using hhead
  rw [tvnpDecodeToken, if_neg hnot, hbyte]
  rfl

theorem rest_skip_one {b : TvuBuffer} {c : UInt8} {bytes : List UInt8}
    (h : b.rest = c :: bytes) : (b.skip 1).rest = bytes :=
  TvuBuffer.rest_skip (show b.rest = [c] ++ bytes from h)

private theorem tvnpDecodeSwitch_number {c : UInt8} (indeterminate : TvnpToken) (b : TvuBuffer)
    (h : c.toNat < 0x80) :
    tvnpDecodeSwitch indeterminate b c = tvnpDecodeNumber indeterminate b c := by
  have hshift : (c >>> 5).toNat = c.toNat / 32 := by
    rw [UInt8.toNat_shiftRight]
    exact Nat.shiftRight_eq_div_pow _ 5
  have hcases : (c >>> 5).toNat = 0 ∨ (c >>> 5).toNat = 1 ∨ (c >>> 5).toNat = 2 ∨
      (c >>> 5).toNat = 3 := by omega
  rcases hcases with h | h | h | h <;> simp only [tvnpDecodeSwitch, h]

theorem tvnpDecodeNumber_inline {c : UInt8} (token : TvnpToken) (b : TvuBuffer)
    (h : c.toNat < 0x40 ∨ 0x45 < c.toNat) :
    tvnpDecodeNumber token b c =
      some ({ token with
        type := .tokenInteger, value := (tvuSignExtendU8 c 7).toBitVec }, b) := by
  unfold tvnpDecodeNumber
  split <;> first | rfl | omega

private theorem tvnpDecodeField_bytes {token : TvnpToken} {b : TvuBuffer} {type : TvnpType}
    {get : List UInt8 → BitVec 64} {payload suffix : List UInt8} (hne : payload ≠ [])
    (h : b.rest = payload ++ suffix) :
    tvnpDecodeField token b payload.length type get =
      some ({ token with type := type, value := get payload }, b.skip payload.length) := by
  rw [tvnpDecodeField_of_fits (TvuBuffer.offset_add_le hne h), h, List.take_left]

/-! ## Numbers -/

section Numbers

variable {b : TvuBuffer} {suffix : List UInt8} (indeterminate : TvnpToken)

private theorem tvnpDecodeToken_null (h : b.rest = Token.null.bytes ++ suffix) :
    ∃ token, tvnpDecodeToken indeterminate b =
        some (token, b.skip Token.null.bytes.length) ∧ token.Denotes b.data .null :=
  ⟨_, tvnpDecodeToken_cons indeterminate h, rfl⟩

private theorem tvnpDecodeToken_field {c : UInt8} {payload : List UInt8} {size : Nat}
    {type : TvnpType} {get : List UInt8 → BitVec 64} (hc : c.toNat < 0x80)
    (hlength : payload.length = size) (hsize : 0 < size)
    (hnumber : ∀ b, tvnpDecodeNumber indeterminate b c =
      tvnpDecodeField indeterminate b size type get)
    (h : b.rest = (c :: payload) ++ suffix) :
    tvnpDecodeToken indeterminate b =
      some ({ indeterminate with type := type, value := get payload },
        b.skip (c :: payload).length) := by
  have hne : payload ≠ [] := by
    rw [← List.length_pos_iff, hlength]
    exact hsize
  rw [tvnpDecodeToken_cons indeterminate h, tvnpDecodeSwitch_number _ _ hc, hnumber, ← hlength,
    tvnpDecodeField_bytes hne (rest_skip_one h), TvuBuffer.skip_skip, List.length_cons,
    Nat.add_comm 1]

private theorem tvnpDecodeToken_wide {x : Int64} {c : UInt8} {bitSize : Nat}
    (hc : c.toNat < 0x80) (hbits : 0 < bitSize / 8)
    (hbytes : 256 ^ (bitSize / 8) = 2 ^ bitSize)
    (hlo : -(2 ^ (bitSize - 1) : Nat) ≤ x.toInt) (hhi : x.toInt < (2 ^ (bitSize - 1) : Nat))
    (hnumber : ∀ b, tvnpDecodeNumber indeterminate b c =
      tvnpDecodeInteger indeterminate b bitSize .tokenInteger)
    (h : b.rest = (c :: tvuSetBeI bitSize x.toInt) ++ suffix) :
    ∃ token, tvnpDecodeToken indeterminate b =
        some (token, b.skip (c :: tvuSetBeI bitSize x.toInt).length) ∧
      token.Denotes b.data (.integer x) :=
  ⟨_, tvnpDecodeToken_field indeterminate hc (length_tvuSetBeI _ _) hbits hnumber h, rfl,
    tvuGetBeI_tvuSetBeI x (by omega) hbytes hlo hhi⟩

private theorem tvnpDecodeToken_integer {x : Int64}
    (h : b.rest = (Token.integer x).bytes ++ suffix) :
    ∃ token, tvnpDecodeToken indeterminate b =
        some (token, b.skip (Token.integer x).bytes.length) ∧
      token.Denotes b.data (.integer x) := by
  have hlo := x.le_toInt
  have hhi := x.toInt_lt
  simp only [Token.bytes, integerBytes, IntegerType.Holds, IntegerType.min, IntegerType.max,
    IntegerType.int16, IntegerType.int32, if_true] at h ⊢
  split at h
  · next h7 =>
      rw [if_pos h7]
      have hword := truncate_lt 7 x.toInt
      have hmod : (truncate 7 x.toInt : Int) = x.toInt % 128 :=
        Int.toNat_of_nonneg (Int.emod_nonneg _ (by decide))
      have hc : (UInt8.ofNat (truncate 7 x.toInt)).toNat = truncate 7 x.toInt :=
        UInt8.toNat_ofNat_of_lt' (by change _ < 256; omega)
      refine ⟨{ indeterminate with
          type := .tokenInteger
          value := (tvuSignExtendU8 (UInt8.ofNat (truncate 7 x.toInt)) 7).toBitVec },
        (tvnpDecodeToken_cons indeterminate h).trans ?_, rfl, ?_⟩
      · rw [tvnpDecodeSwitch_number _ _ (by omega), tvnpDecodeNumber_inline _ _ (by omega)]
        rfl
      · change tvuSignExtendU8 (UInt8.ofNat (truncate 7 x.toInt)) 7 = x
        rw [tvuSignExtendU8, hc, Nat.mod_eq_of_lt hword,
          signExtend_truncate (by decide) (by omega) (by omega), Int64.ofInt_toInt]
  · next h7 =>
      rw [if_neg h7]
      split at h
      · next h16 =>
          rw [if_pos h16]
          exact tvnpDecodeToken_wide indeterminate (by decide) (by decide) (by decide)
            (by omega) (by omega) (fun _ => rfl) h
      · next h16 =>
          rw [if_neg h16]
          split at h
          · next h32 =>
              rw [if_pos h32]
              exact tvnpDecodeToken_wide indeterminate (by decide) (by decide) (by decide)
                (by omega) (by omega) (fun _ => rfl) h
          · next h32 =>
              rw [if_neg h32]
              exact tvnpDecodeToken_wide indeterminate (by decide) (by decide) (by decide)
                (by omega) (by omega) (fun _ => rfl) h

private theorem f_ofNat (x : Binary64) (token : TvnpToken) (type : TvnpType) :
    ({ token with type := type, value := BitVec.ofNat 64 x.toBits } : TvnpToken).f = x := by
  have hbits : (BitVec.ofNat 64 x.toBits).toNat = x.toBits := by
    rw [BitVec.toNat_ofNat]
    exact Nat.mod_eq_of_lt x.toBits_lt
  rw [TvnpToken.f, hbits, Binary.ofBits_toBits]

private theorem convert_convert_of_fitsFloat {x : Binary64} (hintegral : x.integral = false)
    (hfits : fitsFloat x = true) : ((x.convert : Binary32).convert : Binary64) = x := by
  apply Binary.eq_of_eq_of_ne_zero hfits
  intro hzero
  have hmagnitude := Binary.units_eq_zero.mp hzero
  have hfinite : x.isFinite = true := by
    rw [Binary.isFinite, hmagnitude]
    decide
  rw [Binary.integral_of_units_eq_zero hfinite hzero] at hintegral
  contradiction

private theorem tvnpDecodeToken_float {x : Binary64} (hx : x.integral = false)
    (h : b.rest = (Token.float x).bytes ++ suffix) :
    ∃ token, tvnpDecodeToken indeterminate b =
        some (token, b.skip (Token.float x).bytes.length) ∧
      token.Denotes b.data (.float x) := by
  simp only [Token.bytes, floatBytes] at h ⊢
  split at h
  · next hfits =>
      rw [if_pos hfits]
      refine ⟨_, tvnpDecodeToken_field indeterminate (by decide) (length_tvuSetBeF _ _)
        (by decide) (fun _ => rfl) h, rfl, ?_⟩
      have hget := tvuGetBeF_tvuSetBeF 32 (x.convert : Binary32) (by decide)
      simp only [hget, f_ofNat, convert_convert_of_fitsFloat hx hfits]
  · next hfits =>
      rw [if_neg hfits]
      refine ⟨_, tvnpDecodeToken_field indeterminate (by decide) (length_tvuSetBeF _ _)
        (by decide) (fun _ => rfl) h, rfl, ?_⟩
      have hget := tvuGetBeF_tvuSetBeF 64 x (by decide)
      simp only [hget, f_ofNat]

end Numbers

/-! ## Length headers -/

def IsControl (control : UInt8) : Prop :=
  control = 0x80 ∨ control = 0xa0 ∨ control = 0xc0 ∨ control = 0xe0

instance (control : UInt8) : Decidable (IsControl control) :=
  inferInstanceAs (Decidable (_ ∨ _))

private theorem control_or : ∀ n : Fin 32, ∀ control ∈ [0x80, 0xa0, 0xc0, 0xe0],
    ((control ||| UInt8.ofNat n) >>> 5) = (control >>> 5 : UInt8) ∧
      ((control ||| UInt8.ofNat n) &&& 0x1f).toNat = n := by
  decide +kernel

theorem IsControl.shift {control : UInt8} (h : IsControl control) {n : Nat} (hn : n < 32) :
    (control ||| UInt8.ofNat n) >>> 5 = control >>> 5 :=
  (control_or ⟨n, hn⟩ control (by simpa [IsControl] using h)).1

theorem IsControl.mask {control : UInt8} (h : IsControl control) {n : Nat} (hn : n < 32) :
    ((control ||| UInt8.ofNat n) &&& 0x1f).toNat = n :=
  (control_or ⟨n, hn⟩ control (by simpa [IsControl] using h)).2

private theorem tvnpDecodeContainer_field {control : UInt8} {n tag bitSize : Nat}
    (hcontrol : IsControl control) (hwide : IsWide tag bitSize)
    (hn : n < 256 ^ (bitSize / 8)) {token : TvnpToken} {b : TvuBuffer} {type : TvnpType}
    {suffix : List UInt8} (h : b.rest = bigEndian (bitSize / 8) n ++ suffix) :
    tvnpDecodeContainer token b (control ||| UInt8.ofNat tag) type =
      some ({ token with type := type, value := BitVec.ofNat 64 n },
        b.skip (bigEndian (bitSize / 8) n).length) := by
  have hrange : tag < 32 ∧ 0 < bitSize / 8 := by
    rcases hwide with ⟨rfl, rfl⟩ | ⟨rfl, rfl⟩ | ⟨rfl, rfl⟩ <;> decide
  have hne : bigEndian (bitSize / 8) n ≠ [] := by
    rw [← List.length_pos_iff, length_bigEndian]
    exact hrange.2
  have hfield : tvnpDecodeField token b _ type (fun bytes => BitVec.ofNat 64 (tvuGetBeU bytes)) =
      _ := tvnpDecodeField_bytes hne h
  rw [length_bigEndian] at hfield ⊢
  rw [tvnpDecodeContainer_wide hwide _ _ _ (hcontrol.mask hrange.1), tvnpDecodeUnsigned, hfield,
    tvuGetBeU, ofBigEndian_bigEndian, Nat.mod_eq_of_lt hn]

private theorem tvnpDecodeContainer_compound {control : UInt8} {n : Nat}
    (hcontrol : IsControl control) (hn : n < 2 ^ 32) :
    ∃ c payload, compoundBytes control n = c :: payload ∧ c >>> 5 = control >>> 5 ∧
      ∀ (token : TvnpToken) (b : TvuBuffer) (type : TvnpType) (suffix : List UInt8),
        b.rest = payload ++ suffix →
        tvnpDecodeContainer token b c type =
          some ({ token with type := type, value := BitVec.ofNat 64 n },
            b.skip payload.length) := by
  unfold compoundBytes
  split
  · next h5 =>
      refine ⟨_, [], rfl, hcontrol.shift (by omega), fun token b type suffix _ => ?_⟩
      rw [tvnpDecodeContainer_inline token b type h5 (hcontrol.mask (by omega)),
        List.length_nil, TvuBuffer.skip_zero]
  split
  · next h8 =>
      exact ⟨_, _, rfl, hcontrol.shift (n := 0x1d) (by decide), fun _ _ _ _ h =>
        tvnpDecodeContainer_field hcontrol (.inr (.inr ⟨rfl, rfl⟩)) h8 h⟩
  split
  · next h16 =>
      exact ⟨_, _, rfl, hcontrol.shift (n := 0x1e) (by decide), fun _ _ _ _ h =>
        tvnpDecodeContainer_field hcontrol (.inr (.inl ⟨rfl, rfl⟩)) h16 h⟩
  · exact ⟨_, _, rfl, hcontrol.shift (n := 0x1f) (by decide), fun _ _ _ _ h =>
      tvnpDecodeContainer_field hcontrol (.inl ⟨rfl, rfl⟩) hn h⟩

section Compounds

variable {b : TvuBuffer} {suffix : List UInt8} (indeterminate : TvnpToken)

private theorem tvnpDecodeToken_count (control : UInt8) {type : TvnpType} {count : Nat}
    (hcontrol : IsControl control) (hcount : count < 2 ^ 32)
    (hswitch : ∀ (b : TvuBuffer) (c : UInt8), c >>> 5 = control >>> 5 →
      tvnpDecodeSwitch indeterminate b c = tvnpDecodeContainer indeterminate b c type)
    (h : b.rest = compoundBytes control count ++ suffix) :
    ∃ token, tvnpDecodeToken indeterminate b =
        some (token, b.skip (compoundBytes control count).length) ∧
      token.type = type ∧ token.u = count := by
  obtain ⟨c, payload, hbytes, hshift, hcontainer⟩ :=
    tvnpDecodeContainer_compound hcontrol hcount
  rw [hbytes] at h ⊢
  refine ⟨{ indeterminate with type := type, value := BitVec.ofNat 64 count }, ?_, rfl,
    TvnpToken.u_ofNat hcount _ _⟩
  rw [tvnpDecodeToken_cons indeterminate h, hswitch _ _ hshift,
    hcontainer _ _ _ _ (rest_skip_one h), TvuBuffer.skip_skip, List.length_cons, Nat.add_comm 1]

private theorem tvnpDecodeToken_span (control : UInt8) (trailer : List UInt8)
    {type : TvnpType} {string : List UInt8} (hcontrol : IsControl control)
    (hstring : string.length < 2 ^ 32)
    (hswitch : ∀ (b : TvuBuffer) (c : UInt8), c >>> 5 = control >>> 5 →
      tvnpDecodeSwitch indeterminate b c =
        tvnpDecodeSpan indeterminate b c type trailer.length)
    (h : b.rest = compoundBytes control string.length ++ string ++ trailer ++ suffix) :
    ∃ token, tvnpDecodeToken indeterminate b =
        some (token,
          b.skip (compoundBytes control string.length ++ string ++ trailer).length) ∧
      token.type = type ∧ token.u = string.length ∧
      string ++ trailer <+: b.data.drop token.data := by
  obtain ⟨c, payload, hbytes, hshift, hcontainer⟩ :=
    tvnpDecodeContainer_compound hcontrol hstring
  rw [hbytes] at h ⊢
  have hheader : b.rest = (c :: payload) ++ (string ++ trailer ++ suffix) := by
    rw [h]
    simp
  have hle : b.offset + ((c :: payload) ++ string).length ≤ b.size := by
    have hsplit : b.rest = (c :: payload) ++ string ++ (trailer ++ suffix) := by
      rw [h]
      simp
    exact TvuBuffer.offset_add_le (by simp) hsplit
  have hoffset : (b.skip (payload.length + 1)).offset = b.offset + (payload.length + 1) := by
    apply TvuBuffer.offset_skip_of_le
    rw [List.length_append, List.length_cons] at hle
    omega
  have hsize := b.size_lt
  have hfits : ¬ (b.skip (payload.length + 1)).overruns string.length = true := by
    rw [List.length_append, List.length_cons] at hle
    unfold TvuBuffer.size at hle
    rw [TvuBuffer.overruns_iff (by rw [hoffset]; omega), hoffset, TvuBuffer.size_skip,
      TvuBuffer.size]
    omega
  refine ⟨⟨type, BitVec.ofNat 64 string.length, b.offset + (payload.length + 1)⟩, ?_, rfl,
    TvnpToken.u_ofNat hstring _ _, ?_⟩
  · rw [tvnpDecodeToken_cons indeterminate hheader, hswitch _ _ hshift, tvnpDecodeSpan,
      hcontainer _ _ _ _ (rest_skip_one hheader), TvuBuffer.skip_skip, Nat.add_comm 1]
    simp only [Option.bind_eq_bind, Option.bind_some, TvnpToken.u_ofNat hstring, if_neg hfits]
    have hlength : payload.length + 1 + (string.length + trailer.length) =
        ((c :: payload) ++ string ++ trailer).length := by
      simp only [List.length_append, List.length_cons]
      omega
    rw [TvuBuffer.skip_skip, hoffset, hlength]
  · have hrest := TvuBuffer.rest_skip hheader
    rw [TvuBuffer.rest, TvuBuffer.data_skip, List.length_cons, hoffset] at hrest
    exact ⟨suffix, hrest.symm⟩

/-- Decoding the bytes of a token gives the token and steps over exactly its bytes. -/
theorem tvnpDecodeToken_bytes {t : Token} (hvalid : t.Valid)
    (h : b.rest = t.bytes ++ suffix) :
    ∃ token, tvnpDecodeToken indeterminate b = some (token, b.skip t.bytes.length) ∧
      token.Denotes b.data t := by
  cases t with
  | null => exact tvnpDecodeToken_null indeterminate h
  | integer x => exact tvnpDecodeToken_integer indeterminate h
  | float x => exact tvnpDecodeToken_float indeterminate hvalid h
  | utf8 string =>
      exact tvnpDecodeToken_span indeterminate 0x80 [0]
        (by decide) hvalid
        (fun b c hc => by rw [tvnpDecodeSwitch, hc]; rfl) h
  | binary string =>
      have hsplit : b.rest = compoundBytes 0xa0 string.length ++ string ++ [] ++ suffix := by
        rw [h, List.append_nil]
        rfl
      have hspan := tvnpDecodeToken_span indeterminate 0xa0 []
        (by decide) hvalid (fun b c hc => by rw [tvnpDecodeSwitch, hc]; rfl) hsplit
      rw [List.append_nil, List.append_nil] at hspan
      exact hspan
  | list count =>
      exact tvnpDecodeToken_count indeterminate 0xc0 (by decide) hvalid
        (fun b c hc => by rw [tvnpDecodeSwitch, hc]; rfl) h
  | dictionary count =>
      exact tvnpDecodeToken_count indeterminate 0xe0 (by decide) hvalid
        (fun b c hc => by rw [tvnpDecodeSwitch, hc]; rfl) h

theorem tvnpDecodeToken_end (h : b.rest = []) (hoffset : b.offset ≤ b.size) :
    tvnpDecodeToken indeterminate b = some ({ indeterminate with type := .tokenEnd }, b) := by
  have hlength := congrArg List.length h
  rw [TvuBuffer.length_rest, List.length_nil] at hlength
  have hsize := b.size_lt
  have hover : b.overruns 1 = true := by
    rw [TvuBuffer.overruns_iff (by unfold TvuBuffer.size at hoffset; omega)]
    omega
  rw [tvnpDecodeToken, if_pos hover]

end Compounds

/-! ## Several tokens -/

def readTokens (indeterminate : TvnpToken) :
    Nat → TvuBuffer → Option (List TvnpToken × TvuBuffer)
  | 0, b => some ([], b)
  | n + 1, b => do
      let (token, b) ← tvnpDecodeToken indeterminate b
      let (tokens, b) ← readTokens indeterminate n b
      some (token :: tokens, b)

theorem readTokens_wire (indeterminate : TvnpToken) {ts : List Token} {b : TvuBuffer}
    {suffix : List UInt8} (hvalid : ∀ t ∈ ts, t.Valid) (h : b.rest = wire ts ++ suffix) :
    ∃ tokens, readTokens indeterminate ts.length b =
        some (tokens, b.skip (wire ts).length) ∧
      List.Forall₂ (fun t token => TvnpToken.Denotes token b.data t) ts tokens := by
  induction ts generalizing b with
  | nil => exact ⟨[], by simp [readTokens], .nil⟩
  | cons t ts ih =>
      rw [wire_cons, List.append_assoc] at h
      rw [List.forall_mem_cons] at hvalid
      obtain ⟨token, htoken, hdenotes⟩ := tvnpDecodeToken_bytes indeterminate hvalid.1 h
      obtain ⟨tokens, htokens, hall⟩ := ih hvalid.2 (TvuBuffer.rest_skip h)
      refine ⟨token :: tokens, ?_, .cons hdenotes hall⟩
      rw [List.length_cons, readTokens, htoken]
      simp only [Option.bind_eq_bind, Option.bind_some, htokens, TvuBuffer.skip_skip, wire_cons,
        List.length_append]

end Libtvnet
