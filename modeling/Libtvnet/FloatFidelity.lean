import Libtvnet.PickleLength
import Libtvnet.PickleEncoder
import Libtvnet.TokenCodec

/-!
# The fidelity of a double

`tvnp_encode_float` sends a number with a zero fraction as an integer.  The
test is `floor(x) == x`, which the infinities satisfy and every double from
`2 ^ 52` on; the limits of `int64_t` are not looked at.
-/

namespace Libtvnet

open Libtvnet.Foundation

def TvnpToken.exact (token : TvnpToken) : Option ExactNumber :=
  match token.type with
  | .tokenInteger => some (.finite token.i.toInt)
  | .tokenFloat => token.f.exact
  | _ => none

def FitsInt64 (x : Binary64) : Prop :=
  x.isFinite = true ∧ -(2 ^ 63) ≤ x.value ∧ x.value < 2 ^ 63

structure FloatFaithful (undefined : Binary64 → Int) (indeterminate : TvnpToken)
    (x : Binary64) : Prop where
  /-- The conversion to an integer is performed inside of the limits only. -/
  defined : x.integral = true → FitsInt64 x
  decoded : ∀ b : TvuBuffer, b.offset + tvnpLengthFloat undefined x ≤ b.size →
    ∃ c, tvnpEncodeFloat undefined b x = some c ∧
      ∀ received : TvuBuffer, received.offset = b.offset →
        received.data.take c.offset = c.data.take c.offset →
        ∃ token final, tvnpDecodeToken indeterminate received = some (token, final) ∧
          token.exact = x.exact

theorem fitsInt64_iff_holds {x : Binary64} (hfinite : x.isFinite = true)
    (hintegral : x.integral = true) : FitsInt64 x ↔ IntegerType.int64.Holds x.toInt := by
  have hlo : -(2 ^ 63) ≤ x.value ↔ -(2 ^ 63) ≤ x.toInt := by
    rw [Binary.value_of_integral hfinite hintegral]
    exact_mod_cast Iff.rfl
  have hhi : x.value < 2 ^ 63 ↔ x.toInt < 2 ^ 63 := by
    rw [Binary.value_of_integral hfinite hintegral]
    exact_mod_cast Iff.rfl
  rw [FitsInt64, hlo, hhi, IntegerType.int64, IntegerType.holds_signed]
  simp only [hfinite, true_and]
  omega

theorem fitsInt64_holds {x : Binary64} (h : FitsInt64 x) (hintegral : x.integral = true) :
    IntegerType.int64.Holds x.toInt :=
  (fitsInt64_iff_holds h.1 hintegral).mp h

theorem fitsInt64_of_not_integral {x : Binary64} (hnan : x.isNaN = false)
    (h : x.integral = false) : FitsInt64 x := by
  have hfinite := Binary.isFinite_of_not_integral hnan h
  have hsmall : |x.value| < (2 ^ (binary64.fractionBits + 1) : Nat) := by
    by_contra hlarge
    rw [Binary.integral_of_large hfinite (le_of_not_gt hlarge)] at h
    contradiction
  have hbound : ((2 ^ (binary64.fractionBits + 1) : Nat) : ℚ) < 2 ^ 63 := by
    norm_num [binary64]
  obtain ⟨hlo, hhi⟩ := abs_lt.mp (hsmall.trans hbound)
  exact ⟨hfinite, hlo.le, hhi⟩

private theorem exact_of_denotes {undefined : Binary64 → Int} {x : Binary64} {token : TvnpToken}
    {data : List UInt8} (h : FitsInt64 x)
    (htoken : token.Denotes data (Token.ofDouble undefined x)) : token.exact = x.exact := by
  rw [Binary.exact_of_finite h.1]
  rcases token.cases_of_denotes_ofDouble htoken with
    ⟨hintegral, htype, hi⟩ | ⟨-, htype, hf⟩
  · have hholds := fitsInt64_holds h hintegral
    have hvalue : token.i.toInt = x.toInt := by
      obtain ⟨hlo, hhi⟩ := IntegerType.holds_signed.mp hholds
      rw [hi, IntegerType.ofBinary_of_holds h.1 hholds]
      exact Int64.toInt_ofInt_of_le hlo (by omega)
    simp only [TvnpToken.exact, htype, hvalue, Binary.value_of_integral h.1 hintegral]
  · simp only [TvnpToken.exact, htype, hf, Binary.exact_of_finite h.1]

theorem floatFaithful_iff (undefined : Binary64 → Int) (indeterminate : TvnpToken)
    {x : Binary64} (hnan : x.isNaN = false) :
    FloatFaithful undefined indeterminate x ↔ FitsInt64 x := by
  constructor
  · intro hfaithful
    cases hintegral : x.integral with
    | true => exact hfaithful.defined hintegral
    | false => exact fitsInt64_of_not_integral hnan hintegral
  · intro hfits
    refine ⟨fun _ => hfits, fun b hroom => ?_⟩
    rw [tvnpLengthFloat_eq] at hroom
    obtain ⟨c, hc, -⟩ := TvuBuffer.append_eq_some hroom
    refine ⟨c, (tvnpEncodeFloat_eq undefined b x).trans hc, fun received hoffset hdata => ?_⟩
    have hrest := TvuBuffer.rest_of_append hc hoffset hdata
    obtain ⟨token, htoken, hdenotes⟩ :=
      tvnpDecodeToken_bytes indeterminate (Token.ofDouble_valid undefined x) hrest
    exact ⟨token, _, htoken, exact_of_denotes hfits hdenotes⟩

theorem floatFaithful_five :
    FloatFaithful (fun _ => 0) .zeroFilled (Binary.ofInt 5) ↔ FitsInt64 (Binary.ofInt 5) :=
  floatFaithful_iff _ _ (by decide +kernel)

def twoPow63 : Binary64 := Binary.ofInt (2 ^ 63)

theorem not_floatFaithful_twoPow63 :
    ¬ ∃ undefined, FloatFaithful undefined .zeroFilled twoPow63 := by
  rintro ⟨undefined, hfaithful⟩
  have hfits := hfaithful.defined (by decide +kernel)
  exact absurd hfits.2.2 (by decide +kernel)

end Libtvnet
