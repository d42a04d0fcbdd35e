import Libtvnet.TokenCodec
import Libtvnet.DecodeBounds

/-!
# The terminator of a string

Clients use the data of a UTF-8 token as a C string.  The decoder checks that
the counted bytes are inside the buffer and steps over one more byte without
looking at it, so the terminator is there exactly when the sender put it there.
-/

namespace Libtvnet

/-- The UTF-8 string announced at the offset: the index of its bytes and their number. -/
def announcedString (b : TvuBuffer) : Option (Nat × Nat) :=
  match b.rest with
  | [] => none
  | c :: bytes =>
      if c >>> 5 = 4 then
        (lengthHeader c bytes).map fun (width, n) => (b.offset + 1 + width, n)
      else none

/--
A UTF-8 token carries its terminator, and a string announced without one is an
error.
-/
def TerminatedStrings (indeterminate : TvnpToken) (b : TvuBuffer) : Prop :=
  ∃ token b', tvnpDecodeToken indeterminate b = some (token, b') ∧
    (token.type = .tokenUtf8String →
      token.data + token.u < b.size ∧ b.data[token.data + token.u]? = some 0 ∧
        b'.offset ≤ b.size) ∧
    ∀ p n, announcedString b = some (p, n) → b.data[p + n]? ≠ some 0 →
      token.type = .tokenError

/-! ## Which tokens are UTF-8 strings -/

private theorem tvnpDecodeContainer_type {b b' : TvuBuffer} {token token' : TvnpToken}
    {c : UInt8} {type : TvnpType} (h : b.offset ≤ b.size)
    (hrun : tvnpDecodeContainer token b c type = some (token', b')) :
    token'.type = type ∨ token'.type = .tokenError := by
  rw [tvnpDecodeContainer_eq _ _ _ h] at hrun
  unfold headerResult at hrun
  split at hrun
  all_goals
    obtain ⟨rfl, -⟩ := Prod.mk.inj (Option.some.inj hrun)
    simp

private theorem tvnpDecodeSpan_type {b b' : TvuBuffer} {token token' : TvnpToken}
    {c : UInt8} {type : TvnpType} {trailer : Nat} (h : b.offset ≤ b.size)
    (hrun : tvnpDecodeSpan token b c type trailer = some (token', b')) :
    token'.type = type ∨ token'.type = .tokenError := by
  unfold tvnpDecodeSpan at hrun
  cases hcontainer : tvnpDecodeContainer token b c type with
  | none =>
      rw [hcontainer] at hrun
      contradiction
  | some result =>
      have htype := tvnpDecodeContainer_type h hcontainer
      simp only [hcontainer, Option.bind_eq_bind, Option.bind_some] at hrun
      split at hrun
      · obtain ⟨rfl, -⟩ := Prod.mk.inj (Option.some.inj hrun)
        exact .inr rfl
      · obtain ⟨rfl, -⟩ := Prod.mk.inj (Option.some.inj hrun)
        exact htype

theorem tvnpDecodeToken_announced {b : TvuBuffer} (indeterminate : TvnpToken) {p n : Nat}
    (h : announcedString b = some (p, n)) :
    b.offset < p ∧ p ≤ b.size ∧ n < 2 ^ 32 ∧
    tvnpDecodeToken indeterminate b =
      if b.size < p + n then
        some ({ indeterminate with type := .tokenError, value := BitVec.ofNat 64 n },
          b.skip (p - b.offset))
      else some (⟨.tokenUtf8String, BitVec.ofNat 64 n, p⟩, b.skip (p - b.offset + n + 1)) := by
  unfold announcedString at h
  split at h
  · contradiction
  · next c bytes hrest =>
      split at h
      · next hc =>
          cases hheader : lengthHeader c bytes with
          | none =>
              rw [hheader] at h
              contradiction
          | some header =>
              obtain ⟨width, m⟩ := header
              rw [hheader] at h
              simp only [Option.map_some, Option.some.injEq, Prod.mk.injEq] at h
              obtain ⟨rfl, rfl⟩ := h
              have hbounds := lengthHeader_bounds hheader
              have hlength := congrArg List.length hrest
              rw [TvuBuffer.length_rest, List.length_cons] at hlength
              have hoffset : (b.skip 1).offset = b.offset + 1 :=
                TvuBuffer.offset_skip_of_le (by omega)
              have hnext := rest_skip_one hrest
              rw [← hnext] at hheader
              have hspan := tvnpDecodeSpan_of_header indeterminate .tokenUtf8String 1
                (by rw [hoffset, TvuBuffer.size_skip]; omega) hheader
              refine ⟨by omega, by omega, hbounds.2, ?_⟩
              have hswitch : tvnpDecodeSwitch indeterminate (b.skip 1) c =
                  tvnpDecodeSpan indeterminate (b.skip 1) c .tokenUtf8String 1 := by
                rw [tvnpDecodeSwitch, hc]
                rfl
              have hskip : b.offset + 1 + width - b.offset = 1 + width := by omega
              rw [tvnpDecodeToken_cons indeterminate hrest, hswitch, hspan, hoffset, hskip,
                TvuBuffer.size_skip, TvuBuffer.skip_skip, TvuBuffer.skip_skip]
              simp only [Nat.add_assoc]
      · contradiction

theorem tvnpDecodeToken_unannounced {b b' : TvuBuffer} {indeterminate token : TvnpToken}
    (hoffset : b.offset ≤ b.size) (h : announcedString b = none)
    (hrun : tvnpDecodeToken indeterminate b = some (token, b')) :
    token.type ≠ .tokenUtf8String := by
  cases hrest : b.rest with
  | nil =>
      rw [tvnpDecodeToken_end indeterminate hrest hoffset] at hrun
      obtain ⟨rfl, -⟩ := Prod.mk.inj (Option.some.inj hrun)
      simp
  | cons c bytes =>
      have hlength := congrArg List.length hrest
      rw [TvuBuffer.length_rest, List.length_cons] at hlength
      have hle : (b.skip 1).offset ≤ (b.skip 1).size := by
        rw [TvuBuffer.offset_skip_of_le (by omega), TvuBuffer.size_skip]
        omega
      rw [tvnpDecodeToken_cons indeterminate hrest] at hrun
      have hnumber {token b'} (hrun : tvnpDecodeNumber indeterminate (b.skip 1) c =
          some (token, b')) : token.type ≠ .tokenUtf8String := by
        obtain ⟨token', b'', hrun', -, -, -, htype⟩ :=
          tvnpDecodeNumber_outcome indeterminate c hle
        rw [hrun] at hrun'
        obtain ⟨rfl, -⟩ := Prod.mk.inj (Option.some.inj hrun')
        rcases htype with htype | htype | htype | htype <;> simp [htype]
      unfold tvnpDecodeSwitch at hrun
      split at hrun
      · exact hnumber hrun
      · exact hnumber hrun
      · exact hnumber hrun
      · exact hnumber hrun
      · next hshift =>
          -- The header is cut off: the type it is returned with is that of an error.
          have hc : c >>> 5 = 4 := UInt8.toNat_inj.mp hshift
          have hheader : lengthHeader c bytes = none := by
            simpa [announcedString, hrest, hc] using h
          obtain ⟨token', b'', hrun', herror, -⟩ :=
            tvnpDecodeSpan_of_cut indeterminate (c := c) .tokenUtf8String (le_refl 1) hle
              (by rw [rest_skip_one hrest, hheader])
          rw [hrun] at hrun'
          obtain ⟨rfl, -⟩ := Prod.mk.inj (Option.some.inj hrun')
          simp [herror]
      · rcases tvnpDecodeSpan_type hle hrun with htype | htype <;> simp [htype]
      · rcases tvnpDecodeContainer_type hle hrun with htype | htype <;> simp [htype]
      · rcases tvnpDecodeContainer_type hle hrun with htype | htype <;> simp [htype]
      · have := shiftRight_five_lt c
        simp only [imp_false] at *
        omega

/-! ## The exact condition -/

theorem terminatedStrings_iff (indeterminate : TvnpToken) {b : TvuBuffer}
    (h : b.offset ≤ b.size) :
    TerminatedStrings indeterminate b ↔
      ∀ p n, announcedString b = some (p, n) → p + n ≤ b.size → b.data[p + n]? = some 0 := by
  constructor
  · rintro ⟨token, b', hrun, -, herror⟩ p n hstring hle
    by_contra hnul
    have htype := herror p n hstring hnul
    have htoken := (tvnpDecodeToken_announced indeterminate hstring).2.2.2
    rw [hrun, if_neg (by omega)] at htoken
    obtain ⟨rfl, -⟩ := Prod.mk.inj (Option.some.inj htoken)
    contradiction
  · intro hnul
    cases hstring : announcedString b with
    | none =>
        obtain ⟨token, b', hrun, -⟩ :=
          tvnpDecodeToken_outcome indeterminate (b := b) (by omega)
        refine ⟨token, b', hrun, fun htype => ?_, fun p n hsome => ?_⟩
        · exact absurd htype (tvnpDecodeToken_unannounced h hstring hrun)
        · rw [hstring] at hsome
          contradiction
    | some string =>
        obtain ⟨p, n⟩ := string
        obtain ⟨hlo, hhi, hn, hrun⟩ := tvnpDecodeToken_announced indeterminate hstring
        by_cases hshort : b.size < p + n
        · rw [if_pos hshort] at hrun
          exact ⟨_, _, hrun, by simp, fun _ _ _ _ => rfl⟩
        · rw [if_neg hshort] at hrun
          have hbyte := hnul p n hstring (by omega)
          have hlt : p + n < b.size := (List.getElem?_eq_some_iff.mp hbyte).1
          have hu : (⟨.tokenUtf8String, BitVec.ofNat 64 n, p⟩ : TvnpToken).u = n := by
            rw [TvnpToken.u, BitVec.toNat_ofNat]
            exact Nat.mod_eq_of_lt (by omega)
          refine ⟨_, _, hrun, fun _ => ?_, ?_⟩
          · rw [hu, TvuBuffer.offset_skip_of_le (by omega)]
            exact ⟨hlt, hbyte, by omega⟩
          · rintro p' n' hsome hbad
            rw [hstring] at hsome
            obtain ⟨rfl, rfl⟩ := Prod.mk.inj (Option.some.inj hsome)
            exact absurd hbyte hbad

def properString : TvuBuffer := ⟨[0x81, 0x41, 0x00], 0, by decide, TvuBuffer.start_lt⟩

theorem terminatedStrings_properString : TerminatedStrings .zeroFilled properString := by
  apply (terminatedStrings_iff .zeroFilled (b := properString) (by decide)).mpr
  intro p n hstring _
  have hannounced : announcedString properString = some (1, 1) := by decide
  rw [hannounced] at hstring
  obtain ⟨rfl, rfl⟩ := Prod.mk.inj (Option.some.inj hstring)
  decide

theorem not_terminatedStrings_cutString :
    cutString.offset ≤ cutString.size ∧ ¬ TerminatedStrings .zeroFilled cutString := by
  refine ⟨by decide, ?_⟩
  rintro ⟨token, b', hrun, hterminated, -⟩
  have htoken : (tvnpDecodeToken .zeroFilled cutString).map Prod.fst =
      some ⟨.tokenUtf8String, 1, 1⟩ := by decide
  rw [hrun] at htoken
  obtain rfl : token = ⟨.tokenUtf8String, 1, 1⟩ := Option.some.inj htoken
  exact absurd (hterminated rfl).1 (by decide)

end Libtvnet
