import Mathlib.Data.List.TakeWhile
import Mathlib.Tactic

/-!
# Decimal fields

The conversions `%0<width>llu` of `printf` and `%<width>llu` of `scanf`.  A
number that fits the width is printed with exactly that many digits, so what
stands behind the field cannot be taken for a part of it.
-/

namespace Libtvnet.Foundation

def printUnsigned (width n : Nat) : List Char := (Nat.toDigits 10 n).leftpad width '0'

/-- The conversions `%i` and `%lli` of `printf`. -/
def printSigned (i : Int) : List Char :=
  if i < 0 then '-' :: Nat.toDigits 10 i.natAbs else Nat.toDigits 10 i.natAbs

def isSpace (c : Char) : Bool := c = ' ' ∨ (9 ≤ c.toNat ∧ c.toNat ≤ 13)

/-- The number that the digits in front spell, as the words of 64 bits have it. -/
def digitsValue (field : List Char) : Option UInt64 :=
  match field.takeWhile Char.isDigit with
  | [] => none
  | ds => some (UInt64.ofNat (min (Nat.ofDigitChars 10 ds 0) (2 ^ 64 - 1)))

/-- White space is skipped and not counted; a sign is a part of the field. -/
def scanUnsigned (width : Nat) (s : List Char) : Option UInt64 :=
  match (s.dropWhile isSpace).take width with
  | '-' :: field => (digitsValue field).map (0 - ·)
  | '+' :: field => digitsValue field
  | field => digitsValue field

theorem isDigit_of_mem_printUnsigned {width n : Nat} {c : Char}
    (h : c ∈ printUnsigned width n) : c.isDigit = true := by
  rw [printUnsigned, List.leftpad, List.mem_append] at h
  cases h with
  | inl hzero =>
      rw [List.eq_of_mem_replicate hzero]
      rfl
  | inr hdigit => exact Nat.isDigit_of_mem_toDigits (by decide) (by decide) hdigit

theorem printUnsigned_ne_nil (width n : Nat) : printUnsigned width n ≠ [] := by
  simp [printUnsigned, List.leftpad]

theorem length_printUnsigned {width n : Nat} (hwidth : 0 < width) (h : n < 10 ^ width) :
    (printUnsigned width n).length = width := by
  have hdigits := (Nat.length_toDigits_le_iff (by decide) hwidth).mpr h
  rw [printUnsigned, List.length_leftpad]
  omega

theorem ofDigitChars_printUnsigned (width n : Nat) :
    Nat.ofDigitChars 10 (printUnsigned width n) 0 = n := by
  rw [printUnsigned, List.leftpad, Nat.ofDigitChars_append, Nat.ofDigitChars_replicate_zero,
    Nat.mul_zero, Nat.ofDigitChars_ten_toDigits]

theorem digitsValue_printUnsigned {n : Nat} (width : Nat) (h : n < 2 ^ 64) :
    digitsValue (printUnsigned width n) = some (UInt64.ofNat n) := by
  have hall : (printUnsigned width n).takeWhile Char.isDigit = printUnsigned width n :=
    List.takeWhile_eq_self_iff.mpr fun _ hc => isDigit_of_mem_printUnsigned hc
  have hvalue := ofDigitChars_printUnsigned width n
  unfold digitsValue
  rw [hall]
  cases hfield : printUnsigned width n with
  | nil => exact absurd hfield (printUnsigned_ne_nil width n)
  | cons c cs =>
      rw [hfield] at hvalue
      simp only [hvalue]
      rw [Nat.min_eq_left (by omega)]

/-- A printed field is scanned back, whatever stands behind it. -/
theorem scanUnsigned_printUnsigned {width n : Nat} (hwidth : 0 < width) (h : n < 10 ^ width)
    (hword : n < 2 ^ 64) (suffix : List Char) :
    scanUnsigned width (printUnsigned width n ++ suffix) = some (UInt64.ofNat n) := by
  have hlength := length_printUnsigned hwidth h
  have hvalue := digitsValue_printUnsigned width hword
  cases hfield : printUnsigned width n with
  | nil => exact absurd hfield (printUnsigned_ne_nil width n)
  | cons c cs =>
      have hmem : c ∈ printUnsigned width n := by simp [hfield]
      obtain ⟨hlo, hhi⟩ := Char.isDigit_iff_toNat.mp (isDigit_of_mem_printUnsigned hmem)
      have hzero : '0'.toNat = 48 := rfl
      have hspace : isSpace c = false := by
        have hblank : c ≠ ' ' := by
          rintro rfl
          contradiction
        simp only [isSpace, hblank, false_or, decide_eq_false_iff_not]
        omega
      rw [hfield] at hlength hvalue
      have htake : ((c :: cs ++ suffix).dropWhile isSpace).take width = c :: cs := by
        rw [List.cons_append, List.dropWhile_cons, if_neg (by simp [hspace]),
          ← List.cons_append, List.take_left' hlength]
      unfold scanUnsigned
      rw [htake]
      split
      · next hsign =>
          obtain ⟨rfl, -⟩ := List.cons.inj hsign
          contradiction
      · next hsign =>
          obtain ⟨rfl, -⟩ := List.cons.inj hsign
          contradiction
      · exact hvalue

end Libtvnet.Foundation
