import Libtvnet.StdargDecode
import Libtvnet.Terminator

/-!
# Messages that are cut short

A receiver whose array is too small gets the beginning of a message.  What a
call of the decoder accepts there it would accept in the whole message too, so
no beginning is decoded, but the one without the NUL of a last string.
-/

namespace Libtvnet

open Libtvnet.Foundation

/-! ## Beginnings -/

/-- `b` has the first bytes of `w`, and has come as far. -/
structure TvuBuffer.Starts (b w : TvuBuffer) : Prop where
  data : b.data <+: w.data
  offset : b.offset = w.offset

section Starts

variable {b w : TvuBuffer}

theorem TvuBuffer.Starts.skip (h : b.Starts w) (n : Nat) : (b.skip n).Starts (w.skip n) where
  data := h.data
  offset := by simp only [TvuBuffer.skip, h.offset]

theorem TvuBuffer.Starts.size_le (h : b.Starts w) : b.size ≤ w.size := h.data.length_le

theorem TvuBuffer.Starts.rest (h : b.Starts w) : b.rest <+: w.rest := by
  obtain ⟨extra, hextra⟩ := h.data
  rw [TvuBuffer.rest, TvuBuffer.rest, ← h.offset, ← hextra, List.drop_append]
  exact List.prefix_append _ _

theorem TvuBuffer.Starts.cons (h : b.Starts w) {c : UInt8} {bytes : List UInt8}
    (hrest : b.rest = c :: bytes) :
    ∃ bytes', w.rest = c :: bytes' ∧ bytes <+: bytes' := by
  obtain ⟨extra, hextra⟩ := h.rest
  rw [hrest] at hextra
  exact ⟨bytes ++ extra, hextra.symm, List.prefix_append _ _⟩

private theorem lengthHeader_prefix_iff {c : UInt8} {bytes bytes' : List UInt8} {width n : Nat}
    (hbytes : bytes <+: bytes') :
    lengthHeader c bytes = some (width, n) ↔
      lengthHeader c bytes' = some (width, n) ∧ width ≤ bytes.length := by
  obtain ⟨extra, rfl⟩ := hbytes
  unfold lengthHeader
  by_cases hzero : headerWidth c = 0
  · simp only [if_pos hzero, Option.some.injEq, Prod.mk.injEq, iff_self_and]
    rintro ⟨rfl, -⟩
    exact Nat.zero_le _
  · rw [if_neg hzero, if_neg hzero]
    by_cases hfits : headerWidth c ≤ bytes.length
    · have hfits' : headerWidth c ≤ (bytes ++ extra).length := by
        rw [List.length_append]
        omega
      rw [if_pos hfits, if_pos hfits', List.take_append_of_le_length hfits]
      simp only [Option.some.injEq, Prod.mk.injEq, iff_self_and]
      rintro ⟨rfl, -⟩
      exact hfits
    · rw [if_neg hfits]
      simp only [reduceCtorEq, false_iff, not_and, Nat.not_le]
      intro h
      split at h
      case isTrue =>
        obtain ⟨rfl, -⟩ := Prod.mk.inj (Option.some.inj h)
        exact Nat.lt_of_not_le hfits
      case isFalse => cases h

end Starts

/-! ## One call -/

section Token

variable {indeterminate token : TvnpToken} {b b' w : TvuBuffer}

def TvnpToken.Found (token : TvnpToken) : Prop :=
  token.type ≠ .tokenEnd ∧ token.type ≠ .tokenError

private theorem tvnpDecodeField_starts {token' : TvnpToken} {size : Nat} {type : TvnpType}
    {get : List UInt8 → BitVec 64} (h : b.Starts w) (hoffset : b.offset ≤ b.size)
    (hsize : size ≤ 8) (hrun : tvnpDecodeField token b size type get = some (token', b'))
    (hfound : token'.Found) :
    ∃ w', tvnpDecodeField token w size type get = some (token', w') ∧ b'.Starts w' := by
  have hblock := b.size_lt
  have hle := h.size_le
  by_cases hfits : b.offset + size ≤ b.size
  · rw [tvnpDecodeField_of_fits hfits] at hrun
    obtain ⟨rfl, rfl⟩ := Prod.mk.inj (Option.some.inj hrun)
    obtain ⟨extra, hextra⟩ := h.rest
    have htake : w.rest.take size = b.rest.take size := by
      rw [← hextra, List.take_append_of_le_length (by rw [TvuBuffer.length_rest]; omega)]
    refine ⟨w.skip size, ?_, h.skip size⟩
    rw [tvnpDecodeField_of_fits (by rw [← h.offset]; omega), htake]
  · rw [tvnpDecodeField_of_short (by omega)
      (by unfold TvuBuffer.size at hoffset; omega)] at hrun
    obtain ⟨rfl, -⟩ := Prod.mk.inj (Option.some.inj hrun)
    exact absurd rfl hfound.2

private theorem tvnpDecodeNumber_starts {token' : TvnpToken} {c : UInt8} (h : b.Starts w)
    (hoffset : b.offset ≤ b.size) (hrun : tvnpDecodeNumber token b c = some (token', b'))
    (hfound : token'.Found) :
    ∃ w', tvnpDecodeNumber token w c = some (token', w') ∧ b'.Starts w' := by
  unfold tvnpDecodeNumber at hrun ⊢
  split at hrun
  case h_1 | h_7 =>
    obtain ⟨rfl, rfl⟩ := Prod.mk.inj (Option.some.inj hrun)
    exact ⟨w, rfl, h⟩
  all_goals exact tvnpDecodeField_starts h hoffset (by decide) hrun hfound

private theorem tvnpDecodeContainer_starts {token' : TvnpToken} {c : UInt8} {type : TvnpType}
    (h : b.Starts w) (hoffset : b.offset ≤ b.size)
    (hrun : tvnpDecodeContainer token b c type = some (token', b')) (hfound : token'.Found) :
    ∃ w', tvnpDecodeContainer token w c type = some (token', w') ∧ b'.Starts w' := by
  have hle := h.size_le
  rw [tvnpDecodeContainer_eq _ _ _ hoffset] at hrun
  rw [tvnpDecodeContainer_eq _ _ _ (by rw [← h.offset]; omega)]
  cases hheader : lengthHeader c b.rest with
  | none =>
      rw [hheader] at hrun
      obtain ⟨rfl, -⟩ := Prod.mk.inj (Option.some.inj hrun)
      exact absurd rfl hfound.2
  | some header =>
      obtain ⟨width, n⟩ := header
      rw [hheader] at hrun
      obtain ⟨rfl, rfl⟩ := Prod.mk.inj (Option.some.inj hrun)
      rw [((lengthHeader_prefix_iff h.rest).mp hheader).1]
      exact ⟨w.skip width, rfl, h.skip width⟩

private theorem tvnpDecodeSpan_starts {token : TvnpToken} {c : UInt8} {type : TvnpType}
    {trailer : Nat} (htrailer : trailer ≤ 1) (h : b.Starts w) (hoffset : b.offset ≤ b.size)
    (hrun : tvnpDecodeSpan indeterminate b c type trailer = some (token, b'))
    (hfound : token.Found) :
    ∃ w', tvnpDecodeSpan indeterminate w c type trailer = some (token, w') ∧ b'.Starts w' := by
  have hle := h.size_le
  cases hheader : lengthHeader c b.rest with
  | none =>
      obtain ⟨token', b'', hcut, herror, -⟩ :=
        tvnpDecodeSpan_of_cut indeterminate type htrailer hoffset hheader
      rw [hcut] at hrun
      obtain ⟨rfl, -⟩ := Prod.mk.inj (Option.some.inj hrun)
      exact absurd herror hfound.2
  | some header =>
      obtain ⟨width, n⟩ := header
      rw [tvnpDecodeSpan_of_header indeterminate type trailer hoffset hheader] at hrun
      rw [tvnpDecodeSpan_of_header indeterminate type trailer (by rw [← h.offset]; omega)
        ((lengthHeader_prefix_iff h.rest).mp hheader).1, ← h.offset]
      split at hrun
      case isTrue =>
        obtain ⟨rfl, -⟩ := Prod.mk.inj (Option.some.inj hrun)
        exact absurd rfl hfound.2
      case isFalse hfits =>
        obtain ⟨rfl, rfl⟩ := Prod.mk.inj (Option.some.inj hrun)
        rw [if_neg (by omega)]
        exact ⟨_, rfl, h.skip _⟩

private theorem tvnpDecodeSwitch_starts {c : UInt8} (h : b.Starts w) (hoffset : b.offset ≤ b.size)
    (hrun : tvnpDecodeSwitch indeterminate b c = some (token, b')) (hfound : token.Found) :
    ∃ w', tvnpDecodeSwitch indeterminate w c = some (token, w') ∧ b'.Starts w' := by
  unfold tvnpDecodeSwitch at hrun ⊢
  split at hrun
  case h_1 | h_2 | h_3 | h_4 => exact tvnpDecodeNumber_starts h hoffset hrun hfound
  case h_5 => exact tvnpDecodeSpan_starts (by decide) h hoffset hrun hfound
  case h_6 => exact tvnpDecodeSpan_starts (by decide) h hoffset hrun hfound
  case h_7 | h_8 => exact tvnpDecodeContainer_starts h hoffset hrun hfound
  case h_9 =>
    obtain ⟨rfl, rfl⟩ := Prod.mk.inj (Option.some.inj hrun)
    exact ⟨w, rfl, h⟩

private theorem tvnpDecodeToken_starts (h : b.Starts w)
    (hrun : tvnpDecodeToken indeterminate b = some (token, b')) (hfound : token.Found) :
    ∃ w', tvnpDecodeToken indeterminate w = some (token, w') ∧ b'.Starts w' := by
  obtain ⟨hlt, -⟩ := tvnpDecodeToken_some hrun hfound.1
  obtain ⟨c, bytes, hrest⟩ : ∃ c bytes, b.rest = c :: bytes := by
    apply List.exists_cons_of_length_pos
    rw [TvuBuffer.length_rest]
    omega
  obtain ⟨bytes', hrest', -⟩ := h.cons hrest
  rw [tvnpDecodeToken_cons indeterminate hrest] at hrun
  rw [tvnpDecodeToken_cons indeterminate hrest']
  refine tvnpDecodeSwitch_starts (h.skip 1) ?_ hrun hfound
  rw [TvuBuffer.offset_skip_of_le (by omega), TvuBuffer.size_skip]
  omega

/-! ## The token in which a message is cut -/

def CutBeforeNul (b w : TvuBuffer) (t : Token) : Prop :=
  (∃ string, t = .utf8 string) ∧ b.size + 1 = w.offset + t.bytes.length

private theorem announcedString_starts (h : b.Starts w) {p n : Nat}
    (hannounced : announcedString w = some (p, n)) (hle : p ≤ b.size) :
    announcedString b = some (p, n) := by
  obtain ⟨hlt, -⟩ := tvnpDecodeToken_announced .zeroFilled hannounced
  obtain ⟨c, bytes, hrest⟩ : ∃ c bytes, b.rest = c :: bytes := by
    apply List.exists_cons_of_length_pos
    rw [TvuBuffer.length_rest, h.offset]
    omega
  obtain ⟨bytes', hrest', hbytes⟩ := h.cons hrest
  have hlength := congrArg List.length hrest
  rw [TvuBuffer.length_rest, List.length_cons, h.offset] at hlength
  simp only [announcedString, hrest, hrest', h.offset] at hannounced ⊢
  split at hannounced
  case isTrue hc =>
    obtain ⟨header, hheader, hspan⟩ := Option.map_eq_some_iff.mp hannounced
    obtain ⟨width, m⟩ := header
    obtain ⟨rfl, rfl⟩ := Prod.mk.inj hspan
    have hhere := (lengthHeader_prefix_iff hbytes).mpr ⟨hheader, by omega⟩
    rw [if_pos hc, hhere, Option.map_some]
  case isFalse => cases hannounced

variable {t : Token} {suffix : List UInt8}

private theorem cutBeforeNul_of_found (hvalid : t.Valid) (h : b.Starts w)
    (hrest : w.rest = t.bytes ++ suffix) (hcut : b.size < w.offset + t.bytes.length)
    (hrun : tvnpDecodeToken indeterminate b = some (token, b')) (hfound : token.Found) :
    CutBeforeNul b w t ∧ b'.offset = b.size + 1 ∧ token.Denotes w.data t := by
  obtain ⟨w', hrun', hstarts⟩ := tvnpDecodeToken_starts h hrun hfound
  obtain ⟨token', hwhole, hdenotes⟩ := tvnpDecodeToken_bytes indeterminate hvalid hrest
  obtain ⟨rfl, rfl⟩ := Prod.mk.inj (Option.some.inj (hrun'.symm.trans hwhole))
  obtain ⟨hlt, -, houtcome⟩ := tvnpDecodeToken_some hrun hfound.1
  have hoffset := h.offset
  have hend : b'.offset = w.offset + t.bytes.length := by
    rw [hstarts.offset]
    apply TvuBuffer.offset_skip_of_le
    exact TvuBuffer.offset_add_le (List.ne_nil_of_length_pos (by omega)) hrest
  have hutf8 : token.type = .tokenUtf8String := by
    split at houtcome
    case h_1 heq => exact absurd heq hfound.1
    case h_2 heq => exact absurd heq hfound.2
    case h_3 heq => exact heq
    all_goals omega
  rw [hutf8] at houtcome
  obtain ⟨-, hspan, hafter⟩ := houtcome
  have hstring : ∃ string, t = .utf8 string := by
    cases t with
    | utf8 string => exact ⟨string, rfl⟩
    | null => simp [TvnpToken.Denotes, hutf8] at hdenotes
    | integer x => simp [TvnpToken.Denotes, hutf8] at hdenotes
    | float x => simp [TvnpToken.Denotes, hutf8] at hdenotes
    | binary string => simp [TvnpToken.Denotes, hutf8] at hdenotes
    | list count => simp [TvnpToken.Denotes, hutf8] at hdenotes
    | dictionary count => simp [TvnpToken.Denotes, hutf8] at hdenotes
  exact ⟨⟨hstring, by omega⟩, by omega, hdenotes⟩

private theorem found_of_cutBeforeNul (hvalid : t.Valid) (h : b.Starts w)
    (hrest : w.rest = t.bytes ++ suffix) (hcut : CutBeforeNul b w t)
    (hrun : tvnpDecodeToken indeterminate b = some (token, b')) : token.Found := by
  obtain ⟨⟨string, rfl⟩, hsize⟩ := hcut
  have hne : (Token.utf8 string).bytes ≠ [] := by simp [Token.bytes]
  have hle := TvuBuffer.offset_add_le hne hrest
  obtain ⟨token', hwhole, htype, -⟩ := tvnpDecodeToken_bytes indeterminate hvalid hrest
  cases hannounced : announcedString w with
  | none =>
      exact absurd htype (tvnpDecodeToken_unannounced (by omega) hannounced hwhole)
  | some span =>
      obtain ⟨p, n⟩ := span
      obtain ⟨hlt, hp, -, hspan⟩ := tvnpDecodeToken_announced indeterminate hannounced
      rw [hwhole] at hspan
      split at hspan
      case isTrue =>
        obtain ⟨rfl, -⟩ := Prod.mk.inj (Option.some.inj hspan)
        cases htype
      case isFalse hfits =>
        obtain ⟨-, hskip⟩ := Prod.mk.inj (Option.some.inj hspan)
        have hblock := w.size_lt
        have hend := congrArg TvuBuffer.offset hskip
        rw [TvuBuffer.offset_skip_of_le hle,
          TvuBuffer.offset_skip (by unfold TvuBuffer.size at *; omega)] at hend
        have hhere := announcedString_starts h hannounced (by omega)
        obtain ⟨-, -, -, hfound⟩ := tvnpDecodeToken_announced indeterminate hhere
        rw [if_neg (by omega), hrun] at hfound
        obtain ⟨rfl, -⟩ := Prod.mk.inj (Option.some.inj hfound)
        exact ⟨by simp, by simp⟩

end Token

/-! ## The whole message -/

private theorem compoundBytes_ne_nil (control : UInt8) (n : Nat) : compoundBytes control n ≠
    [] := by
  unfold compoundBytes
  split_ifs <;> simp

theorem Token.bytes_ne_nil (t : Token) : t.bytes ≠ [] := by
  cases t with
  | null => simp [Token.bytes]
  | integer x =>
      simp only [Token.bytes, integerBytes]
      split_ifs <;> simp
  | float x =>
      simp only [Token.bytes, floatBytes]
      split_ifs <;> simp
  | utf8 string => simp [Token.bytes]
  | binary string => simp [Token.bytes, compoundBytes_ne_nil]
  | list count => exact compoundBytes_ne_nil _ _
  | dictionary count => exact compoundBytes_ne_nil _ _

private theorem wire_eq_nil_iff {ts : List Token} : wire ts = [] ↔ ts = [] := by
  cases ts with
  | nil => simp
  | cons t ts => simp [t.bytes_ne_nil]

section Message

variable {undefined : Binary64 → Int} {indeterminate : TvnpToken}

private theorem vaStore_of_not_found {token : TvnpToken} (h : ¬ token.Found) (c : Char) :
    vaStore undefined c token = none := by
  have htype : token.type = .tokenEnd ∨ token.type = .tokenError := by
    by_contra hother
    exact h (not_or.mp hother)
  rcases htype with htype | htype <;>
    simp only [vaStore, TvnpToken.toInteger, htype, Option.map_none] <;> split <;> rfl

theorem VaArg.eq_string_of_token {arg : VaArg} {c : Char} {string : List UInt8}
    (h : arg.token undefined c = .utf8 string) : ∃ s, arg = .string s := by
  cases arg with
  | string s => exact ⟨s, rfl⟩
  | gp32 bits =>
      simp only [VaArg.token] at h
      split at h <;> cases h
  | gp64 bits => cases h
  | float64 x =>
      simp only [VaArg.token, Token.ofDouble] at h
      split at h <;> cases h
  | float80 x =>
      simp only [VaArg.token, Token.ofDouble] at h
      split at h <;> cases h

def EndsWithString (args : List VaArg) : Prop := ∃ s, args.getLast? = some (.string s)

private theorem endsWithString_cons {arg : VaArg} {args : List VaArg} (h : args ≠ []) :
    EndsWithString (arg :: args) ↔ EndsWithString args := by
  obtain ⟨first, rest, rfl⟩ := List.exists_cons_of_ne_nil h
  rw [EndsWithString, EndsWithString, List.getLast?_cons_cons]

variable (undefined) in
/-- The bytes of the arguments, which are there but for the NUL of a last string. -/
def MissesNul (b w : TvuBuffer) (types : List Char) (args : List VaArg) : Prop :=
  b.size + 1 = w.offset + (wire (vaTokens undefined types args)).length ∧ EndsWithString args

private theorem missesNul_cons {b w : TvuBuffer} {c : Char} {types : List Char} {arg : VaArg}
    {args : List VaArg} {n : Nat} (hn : n = (arg.token undefined c).bytes.length)
    (hoffset : (w.skip n).offset = w.offset + n) (hargs : args ≠ []) :
    MissesNul undefined b w (c :: types) (arg :: args) ↔
      MissesNul undefined (b.skip n) (w.skip n) types args := by
  rw [MissesNul, MissesNul, endsWithString_cons hargs, vaTokens_cons, wire_cons,
    List.length_append, TvuBuffer.size_skip, hoffset, hn, Nat.add_assoc]

private theorem tvnpVdecode_behind {c : Char} {fmt : List Char} {b : TvuBuffer}
    (indeterminate : TvnpToken) (h : b.offset = b.size + 1) :
    tvnpVdecode undefined indeterminate (c :: fmt) b = some (-1, [], b) := by
  obtain ⟨token, b', htoken, houtcome⟩ := tvnpDecodeToken_outcome indeterminate h.le
  have hend := houtcome.tokenEnd_iff.mpr (by omega)
  obtain rfl := houtcome.eq_of_tokenEnd hend
  have hstore : vaStore undefined c token = none :=
    vaStore_of_not_found (fun hfound => hfound.1 hend) c
  rw [tvnpVdecode, htoken]
  simp only [Option.bind_eq_bind, Option.bind_some, hstore]

private theorem tvnpVdecode_cut_first {c c' : Char} {e d : List Char} {arg : VaArg}
    {args : List VaArg} {b w : TvuBuffer} {suffix : List UInt8} (indeterminate : TvnpToken)
    (hpair : ValuePair c c') (hpairs : List.Forall₂ ValuePair e d) (harg : arg.InRange c)
    (hargs : List.Forall₂ VaArg.InRange e args) (h : b.Starts w) (hoffset : b.offset ≤ b.size)
    (hrest : w.rest = (arg.token undefined c).bytes ++ suffix)
    (hcut : b.size < w.offset + (arg.token undefined c).bytes.length) :
    ∃ ret outputs final,
      tvnpVdecode undefined indeterminate (c' :: d) b = some (ret, outputs, final) ∧
        (ret = 0 ∨ ret = -1) ∧
        (ret = 0 ↔ MissesNul undefined b w (c :: e) (arg :: args)) := by
  obtain ⟨token, b', htoken, houtcome⟩ :=
    tvnpDecodeToken_outcome indeterminate (show b.offset ≤ b.size + 1 by omega)
  have hlength : (wire (vaTokens undefined (c :: e) (arg :: args))).length =
      (arg.token undefined c).bytes.length + (wire (vaTokens undefined e args)).length := by
    rw [vaTokens_cons, wire_cons, List.length_append]
  by_cases hfound : token.Found
  · obtain ⟨⟨⟨string, hstring⟩, hsize⟩, hafter, hdenotes⟩ :=
      cutBeforeNul_of_found harg.1.token_valid h hrest hcut htoken hfound
    obtain ⟨output, hstore, -⟩ := vaStore_token hpair harg hdenotes
    cases hargs with
    | nil =>
        cases hpairs
        obtain ⟨s, rfl⟩ := VaArg.eq_string_of_token hstring
        refine ⟨0, [output], b', ?_, .inl rfl, iff_of_true rfl ⟨?_, s, rfl⟩⟩
        · rw [tvnpVdecode, htoken]
          simp only [Option.bind_eq_bind, Option.bind_some, hstore, tvnpVdecode]
        · rw [hlength, hsize]
          rfl
    | @cons letter next types args =>
        cases hpairs with
        | cons hpair' hpairs =>
            have hbehind : b'.offset = b'.size + 1 := by
              rw [hafter, TvuBuffer.size, TvuBuffer.size, houtcome.1]
            refine ⟨-1, [output], b', ?_, .inr rfl, iff_of_false (by decide) ?_⟩
            · rw [tvnpVdecode, htoken]
              simp only [Option.bind_eq_bind, Option.bind_some, hstore,
                tvnpVdecode_behind indeterminate hbehind]
            · rintro ⟨htotal, -⟩
              have hpos := List.length_pos_iff.mpr (next.token undefined letter).bytes_ne_nil
              rw [hlength, vaTokens_cons, wire_cons, List.length_append] at htotal
              omega
  · refine ⟨-1, [], b', ?_, .inr rfl, iff_of_false (by decide) ?_⟩
    · rw [tvnpVdecode, htoken]
      simp only [Option.bind_eq_bind, Option.bind_some, vaStore_of_not_found hfound]
    · rintro ⟨htotal, s, hlast⟩
      rw [hlength] at htotal
      have hnil : vaTokens undefined e args = [] := by
        rw [← wire_eq_nil_iff, ← List.length_eq_zero_iff]
        omega
      cases hargs with
      | nil =>
          obtain rfl : arg = .string s := by simpa using hlast
          exact hfound (found_of_cutBeforeNul harg.1.token_valid h hrest ⟨⟨s.1, rfl⟩, by
            rw [htotal, hnil]
            rfl⟩ htoken)
      | cons => simp at hnil

private theorem tvnpVdecode_starts {e d : List Char} {args : List VaArg} {b w : TvuBuffer}
    {suffix : List UInt8} (indeterminate : TvnpToken) (hpairs : List.Forall₂ ValuePair e d)
    (hargs : List.Forall₂ VaArg.InRange e args) (h : b.Starts w) (hoffset : b.offset ≤ b.size)
    (hrest : w.rest = wire (vaTokens undefined e args) ++ suffix)
    (hcut : b.size < w.offset + (wire (vaTokens undefined e args)).length) :
    ∃ ret outputs final,
      tvnpVdecode undefined indeterminate d b = some (ret, outputs, final) ∧
        (ret = 0 ∨ ret = -1) ∧ (ret = 0 ↔ MissesNul undefined b w e args) := by
  have hsame := h.offset
  induction hpairs generalizing args b w with
  | nil =>
      cases hargs
      simp only [vaTokens, List.zipWith_nil_left, wire_nil, List.length_nil] at hcut
      omega
  | @cons c c' e d hpair hpairs ih =>
      cases hargs with
      | @cons _ arg _ args harg hargs =>
          rw [vaTokens_cons, wire_cons, List.append_assoc] at hrest
          rw [vaTokens_cons, wire_cons, List.length_append] at hcut
          generalize ht : arg.token undefined c = t at hrest hcut
          have hvalid : t.Valid := ht ▸ harg.1.token_valid
          have hend := TvuBuffer.offset_add_le t.bytes_ne_nil hrest
          have hskip := TvuBuffer.offset_skip_of_le hend
          by_cases hwhole : w.offset + t.bytes.length ≤ b.size
          · obtain ⟨suffix', hb⟩ : t.bytes <+: b.rest :=
              List.prefix_of_prefix_length_le ⟨_, hrest.symm⟩ h.rest
                (by rw [TvuBuffer.length_rest]; omega)
            obtain ⟨token, htoken, hdenotes⟩ :=
              tvnpDecodeToken_bytes indeterminate hvalid hb.symm
            rw [← ht] at hdenotes
            obtain ⟨output, hstore, -⟩ := vaStore_token hpair harg hdenotes
            have hargs' : args ≠ [] := by
              rintro rfl
              simp only [vaTokens, List.zipWith_nil_right, wire_nil, List.length_nil] at hcut
              omega
            have hnext := (h.skip t.bytes.length).offset
            rw [hskip] at hnext
            obtain ⟨ret, outputs, final, hrun, hret, hiff⟩ := ih hargs (h.skip t.bytes.length)
              (by rw [hnext, TvuBuffer.size_skip]; exact hwhole) (TvuBuffer.rest_skip hrest)
              (by rw [hskip, TvuBuffer.size_skip, Nat.add_assoc]; exact hcut)
              (h.skip t.bytes.length).offset
            refine ⟨ret, output :: outputs, final, ?_, hret, ?_⟩
            · rw [tvnpVdecode, htoken]
              simp only [Option.bind_eq_bind, Option.bind_some, hstore, hrun]
            · rw [hiff, missesNul_cons (by rw [ht]) hskip hargs']
          · rw [← ht] at hrest hwhole
            exact tvnpVdecode_cut_first indeterminate hpair hpairs harg hargs h hoffset hrest
              (Nat.lt_of_not_le hwhole)

theorem tvnpVdecode_take_wire {e d : List Char} {args : List VaArg} {received : TvuBuffer}
    {n : Nat} (indeterminate : TvnpToken) (hpairs : List.Forall₂ ValuePair e d)
    (hargs : List.Forall₂ VaArg.InRange e args)
    (hsmall : (wire (vaTokens undefined e args)).length < 2 ^ 63) (hoffset : received.offset = 0)
    (hn : n < (wire (vaTokens undefined e args)).length)
    (hdata : received.data = (wire (vaTokens undefined e args)).take n) :
    ∃ ret outputs final,
      tvnpVdecode undefined indeterminate d received = some (ret, outputs, final) ∧
        (ret = 0 ∨ ret = -1) ∧
        (ret = 0 ↔ n + 1 = (wire (vaTokens undefined e args)).length ∧ EndsWithString args) := by
  let whole : TvuBuffer := ⟨wire (vaTokens undefined e args), 0, hsmall, TvuBuffer.start_lt⟩
  have hsize : received.size = n := by
    rw [TvuBuffer.size, hdata, List.length_take, Nat.min_eq_left hn.le]
  have hstarts : received.Starts whole := ⟨hdata ▸ List.take_prefix _ _, hoffset⟩
  have hrest : whole.rest = wire (vaTokens undefined e args) ++ [] := by
    rw [List.append_nil]
    rfl
  have hcut := tvnpVdecode_starts indeterminate hpairs hargs hstarts (by omega) hrest
    (by rw [hsize, Nat.zero_add]; exact hn)
  rwa [MissesNul, hsize, Nat.zero_add] at hcut

theorem wire_of_tvnpVencode {types : List Char} {args : List VaArg} {block c : TvuBuffer}
    (hmatch : Matching types args) (hlong : 'G' ∉ types) (hblock : block.offset = 0)
    (hencode : tvnpVencode undefined block types args = some (0, c)) :
    c.offset = (wire (vaTokens undefined types args)).length ∧
      c.data.take c.offset = wire (vaTokens undefined types args) := by
  rw [tvnpVencode_eq block hmatch hlong] at hencode
  obtain ⟨c', hc, hpair⟩ := Option.map_eq_some_iff.mp hencode
  obtain ⟨-, rfl⟩ := Prod.mk.inj hpair
  have hend := TvuBuffer.offset_of_append hc
  rw [hblock, Nat.zero_add] at hend
  have hrest : c'.rewind.rest = _ := TvuBuffer.rest_of_append hc hblock.symm rfl
  refine ⟨hend, ?_⟩
  change c'.rewind.rest.take c'.offset = _
  rw [hrest, hend, List.take_left]

/--
A message that is cut short is refused, wherever it is cut, unless it ends with
a string of which the NUL alone is missing.
-/
theorem tvnpVdecode_cut {e d : List Char} {args : List VaArg} {block c received : TvuBuffer}
    {n : Nat} (indeterminate : TvnpToken) (hpairs : List.Forall₂ ValuePair e d)
    (hargs : List.Forall₂ VaArg.InRange e args) (hblock : block.offset = 0)
    (hencode : tvnpVencode undefined block e args = some (0, c)) (hoffset : received.offset = 0)
    (hn : n < c.offset) (hdata : received.data = c.data.take n) :
    ∃ ret outputs final,
      tvnpVdecode undefined indeterminate d received = some (ret, outputs, final) ∧
        (ret = 0 ∨ ret = -1) ∧ (ret = 0 ↔ n + 1 = c.offset ∧ EndsWithString args) := by
  have hmatch : Matching e args := hargs.imp fun _ _ harg => harg.1
  obtain ⟨hend, hmessage⟩ :=
    wire_of_tvnpVencode hmatch (ValuePair.not_longDouble hpairs) hblock hencode
  have hsmall : (wire (vaTokens undefined e args)).length < 2 ^ 63 := by
    have hsize := c.size_lt
    rw [← hmessage, List.length_take]
    omega
  have hbytes : received.data = (wire (vaTokens undefined e args)).take n := by
    rw [hdata, ← hmessage, List.take_take, Nat.min_eq_left hn.le]
  rw [hend] at hn ⊢
  exact tvnpVdecode_take_wire indeterminate hpairs hargs hsmall hoffset hn hbytes

/-- Of the three bytes of the string only the first one is there. -/
theorem tvnpVdecode_cut_mixed :
    ∃ ret outputs final,
      tvnpVdecode (fun _ => 0) .zeroFilled ['q', 'f', 's']
        ⟨[0x45, 0x00, 0xc8, 0x42, 0x3f, 0x00, 0x00, 0x00, 0x81], 0, by decide,
          TvuBuffer.start_lt⟩ = some (ret, outputs, final) ∧
        (ret = 0 ∨ ret = -1) ∧ (ret = 0 ↔ 9 + 1 = 11 ∧ EndsWithString mixedArgs) := by
  have hencode : tvnpVencode (fun _ => 0)
      ⟨List.replicate 11 0xff, 0, by decide, TvuBuffer.start_lt⟩ ['B', 'F', 's'] mixedArgs =
        some (0, ⟨[0x45, 0x00, 0xc8, 0x42, 0x3f, 0x00, 0x00, 0x00, 0x81, 0x41, 0x00], 11,
          by decide, by decide⟩) := by decide +kernel
  exact tvnpVdecode_cut .zeroFilled valuePairs_mixed mixedArgs_inRange rfl hencode rfl
    (by decide) rfl

end Message

end Libtvnet
