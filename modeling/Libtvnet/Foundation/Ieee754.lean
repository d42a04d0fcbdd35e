import Mathlib.Data.BitVec
import Mathlib.Order.Monotone.Basic
import Mathlib.Tactic

/-!
# Binary floating point as exact integers

Every finite number of a binary interchange format is an integer multiple of
the least subnormal of that format.  Measuring magnitudes in that unit keeps
all of the arithmetic below in `Nat` and `Int`: comparison, the integrality
test, conversion to and from integers and rounding between formats.

A magnitude is the bit pattern without its sign bit.  Patterns below
`infinity` are finite, patterns above it are NaNs.
-/

namespace Libtvnet.Foundation

structure Format where
  fractionBits : Nat
  exponentBits : Nat
  deriving DecidableEq, Repr

def binary32 : Format := ⟨23, 8⟩
def binary64 : Format := ⟨52, 11⟩
/-- The extended format of x87, without its explicit integer bit. -/
def binary80 : Format := ⟨63, 15⟩

namespace Format

variable (F : Format)

def infinity : Nat := (2 ^ F.exponentBits - 1) * 2 ^ F.fractionBits

def signBit : Nat := 2 ^ (F.exponentBits + F.fractionBits)

def unitBits : Nat := 2 ^ (F.exponentBits - 1) + F.fractionBits - 2

def units (m : Nat) : Nat :=
  if m < 2 ^ F.fractionBits then m
  else (2 ^ F.fractionBits + m % 2 ^ F.fractionBits) * 2 ^ (m / 2 ^ F.fractionBits - 1)

/--
The magnitude nearest to `n / 2 ^ shift` units, ties to even.  A carry out of
the significand moves into the exponent field by the layout of the pattern.
-/
def nearest (shift n : Nat) : Nat :=
  let drop := max (Nat.log2 n - F.fractionBits) shift
  let quotient := n / 2 ^ drop
  let remainder := n % 2 ^ drop
  let up := 2 ^ drop < 2 * remainder ∨ (2 * remainder = 2 ^ drop ∧ quotient % 2 = 1)
  min ((drop - shift) * 2 ^ F.fractionBits + quotient + if up then 1 else 0) F.infinity

theorem units_of_lt {m : Nat} (h : m < 2 ^ F.fractionBits) : F.units m = m := if_pos h

@[simp] theorem units_zero : F.units 0 = 0 := F.units_of_lt (Nat.two_pow_pos _)

theorem units_normal {significand : Nat} (binade : Nat)
    (hlo : 2 ^ F.fractionBits ≤ significand) (hhi : significand < 2 ^ (F.fractionBits + 1)) :
    F.units (binade * 2 ^ F.fractionBits + significand) = significand * 2 ^ binade := by
  have hpos := Nat.two_pow_pos F.fractionBits
  obtain ⟨fraction, rfl⟩ := Nat.exists_eq_add_of_le hlo
  have hfraction : fraction < 2 ^ F.fractionBits := by
    rw [pow_succ] at hhi
    omega
  have hsplit : binade * 2 ^ F.fractionBits + (2 ^ F.fractionBits + fraction) =
      fraction + (binade + 1) * 2 ^ F.fractionBits := by ring
  have hge : ¬ fraction + (binade + 1) * 2 ^ F.fractionBits < 2 ^ F.fractionBits := by
    rw [Nat.add_mul]
    omega
  rw [hsplit, units, if_neg hge, Nat.add_mul_mod_self_right, Nat.mod_eq_of_lt hfraction,
    Nat.add_mul_div_right _ _ hpos, Nat.div_eq_of_lt hfraction]
  simp

theorem exists_normal {m : Nat} (h : 2 ^ F.fractionBits ≤ m) :
    ∃ binade significand, 2 ^ F.fractionBits ≤ significand ∧
      significand < 2 ^ (F.fractionBits + 1) ∧
      m = binade * 2 ^ F.fractionBits + significand := by
  have hpos := Nat.two_pow_pos F.fractionBits
  have hmod := Nat.mod_lt m hpos
  have hdiv : 1 ≤ m / 2 ^ F.fractionBits := (Nat.one_le_div_iff hpos).mpr h
  refine ⟨m / 2 ^ F.fractionBits - 1, 2 ^ F.fractionBits + m % 2 ^ F.fractionBits,
    Nat.le_add_right _ _, ?_, ?_⟩
  · rw [pow_succ]
    omega
  · have hsplit := Nat.div_add_mod' m (2 ^ F.fractionBits)
    obtain ⟨binade, hbinade⟩ := Nat.exists_eq_add_of_le hdiv
    rw [hbinade] at hsplit ⊢
    rw [Nat.add_mul] at hsplit
    rw [Nat.add_sub_cancel_left]
    omega

theorem units_strictMono : StrictMono F.units := by
  apply strictMono_nat_of_lt_succ
  intro m
  have hpos := Nat.two_pow_pos F.fractionBits
  by_cases hsub : m + 1 < 2 ^ F.fractionBits
  · rw [units_of_lt _ hsub, units_of_lt _ (by omega)]
    omega
  · obtain ⟨binade, significand, hlo, hhi, hm⟩ := F.exists_normal (Nat.le_of_not_lt hsub)
    rw [hm, F.units_normal binade hlo hhi]
    rcases Nat.lt_or_eq_of_le hlo with hgt | heq
    · -- The predecessor lies in the same binade.
      have hpred : m = binade * 2 ^ F.fractionBits + (significand - 1) := by omega
      rw [hpred, F.units_normal binade (by omega) (by omega)]
      exact Nat.mul_lt_mul_of_pos_right (by omega) (Nat.two_pow_pos _)
    · cases binade with
      | zero =>
          rw [units_of_lt _ (by omega)]
          omega
      | succ binade =>
          -- The predecessor is the last number of the previous binade.
          have hpred : m = binade * 2 ^ F.fractionBits + (2 ^ (F.fractionBits + 1) - 1) := by
            rw [Nat.add_mul] at hm
            rw [pow_succ]
            omega
          have hwidth : 2 ^ F.fractionBits ≤ 2 ^ (F.fractionBits + 1) - 1 := by
            rw [pow_succ]
            omega
          rw [hpred, F.units_normal binade hwidth
            (by have := Nat.two_pow_pos (F.fractionBits + 1); omega),
            ← heq]
          calc (2 ^ (F.fractionBits + 1) - 1) * 2 ^ binade
              < 2 ^ (F.fractionBits + 1) * 2 ^ binade :=
                Nat.mul_lt_mul_of_pos_right (by have := Nat.two_pow_pos (F.fractionBits + 1); omega)
                  (Nat.two_pow_pos _)
            _ = 2 ^ F.fractionBits * 2 ^ (binade + 1) := by ring

theorem units_inj {m n : Nat} : F.units m = F.units n ↔ m = n :=
  F.units_strictMono.injective.eq_iff

private theorem nearest_of_exact (shift significand binade : Nat)
    (hdrop : max (Nat.log2 (significand * 2 ^ (binade + shift)) - F.fractionBits) shift =
      binade + shift) :
    F.nearest shift (significand * 2 ^ (binade + shift)) =
      min (binade * 2 ^ F.fractionBits + significand) F.infinity := by
  have hpos := Nat.two_pow_pos (binade + shift)
  simp only [nearest, hdrop, Nat.mul_div_cancel _ hpos, Nat.mul_mod_left,
    Nat.add_sub_cancel]
  have hdown : ¬ (2 ^ (binade + shift) < 2 * 0 ∨
      (2 * 0 = 2 ^ (binade + shift) ∧ significand % 2 = 1)) := by omega
  rw [if_neg hdown, Nat.add_zero]

theorem nearest_units {m : Nat} (shift : Nat) (h : m < F.infinity) :
    F.nearest shift (F.units m * 2 ^ shift) = m := by
  by_cases hsub : m < 2 ^ F.fractionBits
  · have hlog : Nat.log2 (m * 2 ^ shift) - F.fractionBits ≤ shift := by
      rcases Nat.eq_zero_or_pos m with rfl | hpos
      · simp
      · have hne : m * 2 ^ shift ≠ 0 := (Nat.mul_pos hpos (Nat.two_pow_pos _)).ne'
        have : Nat.log2 (m * 2 ^ shift) < F.fractionBits + shift := by
          rw [Nat.log2_lt hne, pow_add]
          exact Nat.mul_lt_mul_of_pos_right hsub (Nat.two_pow_pos _)
        omega
    have hexact := F.nearest_of_exact shift m 0 (by rw [Nat.zero_add]; omega)
    rw [Nat.zero_add] at hexact
    rw [units_of_lt _ hsub, hexact]
    omega
  · obtain ⟨binade, significand, hlo, hhi, hm⟩ := F.exists_normal (Nat.le_of_not_lt hsub)
    have hpos := Nat.two_pow_pos F.fractionBits
    have hn : F.units m * 2 ^ shift = significand * 2 ^ (binade + shift) := by
      rw [hm, F.units_normal binade hlo hhi, pow_add]
      ring
    have hlog : Nat.log2 (significand * 2 ^ (binade + shift)) =
        F.fractionBits + (binade + shift) := by
      rw [Nat.log2_eq_iff (Nat.mul_pos (by omega) (Nat.two_pow_pos _)).ne']
      constructor
      · rw [pow_add]
        exact Nat.mul_le_mul_right _ hlo
      · rw [Nat.add_right_comm, pow_add 2 (F.fractionBits + 1)]
        exact Nat.mul_lt_mul_of_pos_right hhi (Nat.two_pow_pos _)
    rw [hn, F.nearest_of_exact shift significand binade (by rw [hlog]; omega), ← hm]
    omega

theorem nearest_le_infinity (shift n : Nat) : F.nearest shift n ≤ F.infinity :=
  Nat.min_le_right _ _

theorem signBit_pos : 0 < F.signBit := Nat.two_pow_pos _

theorem infinity_lt_signBit : F.infinity < F.signBit := by
  have hexponent := Nat.two_pow_pos F.exponentBits
  rw [infinity, signBit, pow_add]
  exact Nat.mul_lt_mul_of_pos_right (by omega) (Nat.two_pow_pos _)

end Format

inductive ExactNumber where
  | finite (q : ℚ)
  | infinite (negative : Bool)
  deriving DecidableEq

@[ext] structure Binary (F : Format) where
  negative : Bool
  magnitude : Nat
  magnitude_lt : magnitude < F.signBit
  deriving DecidableEq

namespace Binary

variable {F G : Format}

def ofBits (n : Nat) : Binary F :=
  ⟨n / F.signBit % 2 = 1, n % F.signBit, Nat.mod_lt _ F.signBit_pos⟩

def toBits (x : Binary F) : Nat :=
  (if x.negative then F.signBit else 0) + x.magnitude

@[simp] theorem ofBits_toBits (x : Binary F) : ofBits x.toBits = x := by
  obtain ⟨negative, magnitude, hlt⟩ := x
  cases negative <;>
    simp [ofBits, toBits, Nat.mod_eq_of_lt hlt, Nat.div_eq_of_lt hlt,
      Nat.add_div_left _ F.signBit_pos]

theorem toBits_lt (x : Binary F) :
    x.toBits < 2 ^ (F.exponentBits + F.fractionBits + 1) := by
  have hlt := x.magnitude_lt
  unfold toBits
  rw [pow_succ]
  unfold Format.signBit at hlt ⊢
  split <;> omega

def isNaN (x : Binary F) : Bool := F.infinity < x.magnitude

def isInfinite (x : Binary F) : Bool := x.magnitude = F.infinity

def isFinite (x : Binary F) : Bool := x.magnitude < F.infinity

def units (x : Binary F) : Int :=
  if x.negative then -(F.units x.magnitude : Int) else F.units x.magnitude

def value (x : Binary F) : ℚ := x.units / 2 ^ F.unitBits

/-- The `==` of C: NaNs differ from everything, the two zeros are equal. -/
def eq (x y : Binary F) : Bool :=
  (x.isFinite && y.isFinite && x.units == y.units) || (x.isInfinite && x == y)

/-- `floor(x) == x`, which the infinities satisfy too. -/
def integral (x : Binary F) : Bool :=
  x.isInfinite || (x.isFinite && x.units % 2 ^ F.unitBits == 0)

def toInt (x : Binary F) : Int := x.units.tdiv (2 ^ F.unitBits)

def ofInt (i : Int) : Binary F :=
  ⟨i < 0, F.nearest 0 (i.natAbs * 2 ^ F.unitBits),
    (F.nearest_le_infinity _ _).trans_lt F.infinity_lt_signBit⟩

def quietNaN (negative : Bool) : Binary F :=
  ⟨negative, F.infinity + 2 ^ F.fractionBits / 2, by
    have hfraction := Nat.two_pow_pos F.fractionBits
    have hexponent := Nat.two_pow_pos F.exponentBits
    have hsplit := Nat.sub_one_mul (2 ^ F.exponentBits) (2 ^ F.fractionBits)
    have hle := Nat.le_mul_of_pos_left (2 ^ F.fractionBits) hexponent
    rw [Format.infinity, Format.signBit, pow_add]
    omega⟩

/-- To the nearest; a NaN becomes the quiet one, without the payload that hardware keeps. -/
def convert (x : Binary F) : Binary G :=
  if x.isNaN then quietNaN x.negative
  else if x.isInfinite then ⟨x.negative, G.infinity, G.infinity_lt_signBit⟩
  else
    ⟨x.negative,
      G.nearest (F.unitBits - G.unitBits)
        (F.units x.magnitude * 2 ^ (G.unitBits - F.unitBits)),
      (G.nearest_le_infinity _ _).trans_lt G.infinity_lt_signBit⟩

theorem natAbs_units (x : Binary F) : x.units.natAbs = F.units x.magnitude := by
  unfold units
  split <;> omega

theorem units_eq_zero {x : Binary F} : x.units = 0 ↔ x.magnitude = 0 := by
  have hzero := F.units_inj (m := x.magnitude) (n := 0)
  rw [F.units_zero, ← natAbs_units] at hzero
  omega

theorem eq_of_eq_of_ne_zero {x y : Binary F} (h : x.eq y = true) (hy : y.units ≠ 0) :
    x = y := by
  simp only [eq, Bool.or_eq_true, Bool.and_eq_true, beq_iff_eq] at h
  rcases h with ⟨-, hunits⟩ | ⟨-, hpattern⟩
  · have hmagnitude : x.magnitude = y.magnitude := by
      rw [← F.units_inj, ← natAbs_units, ← natAbs_units, hunits]
    have hsign : x.negative = y.negative := by
      unfold units at hunits hy
      rw [hmagnitude] at hunits
      cases hx : x.negative <;> cases hy' : y.negative <;> simp [hx, hy'] at hunits hy ⊢ <;>
        omega
    exact Binary.ext hsign hmagnitude
  · exact hpattern

theorem units_eq_of_eq {x y : Binary F} (h : x.eq y = true) (hx : x.isFinite = true) :
    y.isFinite = true ∧ x.units = y.units := by
  simp only [eq, Bool.or_eq_true, Bool.and_eq_true, beq_iff_eq] at h
  rcases h with ⟨⟨-, hy⟩, hunits⟩ | ⟨-, rfl⟩
  · exact ⟨hy, hunits⟩
  · exact ⟨hx, rfl⟩

theorem eq_self_of_finite {x : Binary F} (h : x.isFinite = true) : x.eq x = true := by
  simp [eq, h]

theorem units_dvd_of_integral {x : Binary F} (hfinite : x.isFinite = true)
    (h : x.integral = true) : (2 ^ F.unitBits : Int) ∣ x.units := by
  have hnot : x.isInfinite = false := by
    simp only [isFinite, isInfinite, decide_eq_true_eq, decide_eq_false_iff_not] at hfinite ⊢
    omega
  simp only [integral, hnot, hfinite, Bool.false_or, Bool.true_and, beq_iff_eq] at h
  exact Int.dvd_of_emod_eq_zero h

theorem integral_of_units_eq_zero {x : Binary F} (hfinite : x.isFinite = true)
    (h : x.units = 0) : x.integral = true := by
  simp [integral, hfinite, h]

theorem toInt_mul_of_integral {x : Binary F} (hfinite : x.isFinite = true)
    (h : x.integral = true) : x.toInt * 2 ^ F.unitBits = x.units :=
  Int.tdiv_mul_cancel (units_dvd_of_integral hfinite h)

theorem ofInt_toInt {x : Binary F} (hfinite : x.isFinite = true) (h : x.integral = true) :
    (ofInt x.toInt : Binary F).eq x = true := by
  have hmul := toInt_mul_of_integral hfinite h
  have hmagnitude : (ofInt x.toInt : Binary F).magnitude = x.magnitude := by
    have habs : x.toInt.natAbs * 2 ^ F.unitBits = F.units x.magnitude := by
      rw [← natAbs_units, ← hmul, Int.natAbs_mul, Int.natAbs_pow]
      rfl
    change F.nearest 0 (x.toInt.natAbs * 2 ^ F.unitBits) = x.magnitude
    rw [habs]
    simpa using F.nearest_units 0 (of_decide_eq_true hfinite)
  have hpow : (0 : Int) < 2 ^ F.unitBits := by positivity
  have hunits : (ofInt x.toInt : Binary F).units = x.units := by
    have hsign : (ofInt x.toInt : Binary F).negative = decide (x.toInt < 0) := rfl
    have habs := natAbs_units x
    rw [units, hmagnitude, hsign]
    by_cases hneg : x.toInt < 0
    · have : x.units < 0 := hmul ▸ Int.mul_neg_of_neg_of_pos hneg hpow
      simp only [hneg, decide_true, if_true]
      omega
    · have : 0 ≤ x.units := hmul ▸ Int.mul_nonneg (by omega) hpow.le
      simp only [hneg, decide_false, Bool.false_eq_true, if_false]
      omega
  have hfinite' : (ofInt x.toInt : Binary F).isFinite = true := by
    rw [isFinite, hmagnitude]
    exact hfinite
  simp [eq, hfinite, hfinite', hunits]

theorem value_of_integral {x : Binary F} (hfinite : x.isFinite = true) (h : x.integral = true) :
    x.value = x.toInt := by
  have hpow : (2 ^ F.unitBits : ℚ) ≠ 0 := by positivity
  rw [value, div_eq_iff hpow]
  exact_mod_cast (toInt_mul_of_integral hfinite h).symm

theorem integral_of_large {x : Binary F} (hfinite : x.isFinite = true)
    (h : (2 ^ (F.fractionBits + 1) : Nat) ≤ |x.value|) : x.integral = true := by
  have hpow : (0 : ℚ) < 2 ^ F.unitBits := by positivity
  have hunits : 2 ^ (F.fractionBits + 1) * 2 ^ F.unitBits ≤ F.units x.magnitude := by
    rw [value, abs_div, abs_of_pos hpow, le_div_iff₀ hpow] at h
    rw [← natAbs_units]
    have hcast : (((2 ^ (F.fractionBits + 1) * 2 ^ F.unitBits : Nat)) : ℚ) ≤
        (x.units.natAbs : ℚ) := by
      rw [Nat.cast_natAbs]
      push_cast at h ⊢
      exact h
    exact_mod_cast hcast
  have hnormal : 2 ^ F.fractionBits ≤ x.magnitude := by
    by_contra hsub
    rw [F.units_of_lt (Nat.lt_of_not_le hsub)] at hunits
    have hone := Nat.le_mul_of_pos_right (2 ^ (F.fractionBits + 1)) (Nat.two_pow_pos F.unitBits)
    rw [pow_succ] at hone hunits
    omega
  obtain ⟨binade, significand, hlo, hhi, hm⟩ := F.exists_normal hnormal
  rw [hm, F.units_normal binade hlo hhi] at hunits
  have hbinade : F.unitBits ≤ binade := by
    by_contra hlt
    have hle : 2 ^ binade ≤ 2 ^ F.unitBits := Nat.pow_le_pow_right (by decide) (by omega)
    have hmul := Nat.mul_lt_mul_of_lt_of_le hhi hle (Nat.two_pow_pos F.unitBits)
    omega
  have hdvd : (2 ^ F.unitBits : Nat) ∣ x.units.natAbs := by
    rw [natAbs_units, hm, F.units_normal binade hlo hhi]
    exact Dvd.dvd.mul_left (Nat.pow_dvd_pow 2 hbinade) _
  have hmod : x.units % 2 ^ F.unitBits = 0 := by
    apply Int.emod_eq_zero_of_dvd
    rw [← Int.natCast_dvd] at hdvd
    exact_mod_cast hdvd
  simp [integral, hfinite, hmod]

def exact (x : Binary F) : Option ExactNumber :=
  if x.isNaN then none
  else if x.isInfinite then some (.infinite x.negative)
  else some (.finite x.value)

theorem exact_of_finite {x : Binary F} (h : x.isFinite = true) :
    x.exact = some (.finite x.value) := by
  simp only [isFinite, decide_eq_true_eq] at h
  have hnan : x.isNaN = false := decide_eq_false (by omega)
  have hinfinite : x.isInfinite = false := decide_eq_false (by omega)
  simp [exact, hnan, hinfinite]

theorem isFinite_of_not_integral {x : Binary F} (hnan : x.isNaN = false)
    (h : x.integral = false) : x.isFinite = true := by
  simp only [integral, Bool.or_eq_false_iff, isInfinite, decide_eq_false_iff_not] at h
  simp only [isNaN, decide_eq_false_iff_not] at hnan
  exact decide_eq_true (by omega)

end Binary

abbrev Binary32 := Binary binary32
abbrev Binary64 := Binary binary64
abbrev Binary80 := Binary binary80

end Libtvnet.Foundation
