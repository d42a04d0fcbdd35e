import Libtvnet.Foundation.Ieee754

/-!
# Integer types of C

The conversions of C between integer types and from floating point.  A
conversion of a number that the target type cannot hold is undefined for
floating point; its outcome is the parameter `undefined` below.
-/

namespace Libtvnet.Foundation

structure IntegerType where
  signed : Bool
  bits : Nat
  deriving DecidableEq, Repr

namespace IntegerType

def int8 : IntegerType := ⟨true, 8⟩
def uint8 : IntegerType := ⟨false, 8⟩
def int16 : IntegerType := ⟨true, 16⟩
def uint16 : IntegerType := ⟨false, 16⟩
def int32 : IntegerType := ⟨true, 32⟩
def uint32 : IntegerType := ⟨false, 32⟩
def int64 : IntegerType := ⟨true, 64⟩
def uint64 : IntegerType := ⟨false, 64⟩

def min (t : IntegerType) : Int := if t.signed then -(2 ^ (t.bits - 1)) else 0

def max (t : IntegerType) : Int :=
  if t.signed then 2 ^ (t.bits - 1) - 1 else 2 ^ t.bits - 1

def Holds (t : IntegerType) (i : Int) : Prop := t.min ≤ i ∧ i ≤ t.max

instance (t : IntegerType) (i : Int) : Decidable (t.Holds i) :=
  inferInstanceAs (Decidable (_ ∧ _))

theorem holds_signed {bits : Nat} {i : Int} :
    Holds ⟨true, bits⟩ i ↔ -(2 ^ (bits - 1)) ≤ i ∧ i ≤ 2 ^ (bits - 1) - 1 :=
  Iff.rfl

theorem holds_unsigned {bits : Nat} {i : Int} :
    Holds ⟨false, bits⟩ i ↔ 0 ≤ i ∧ i ≤ 2 ^ bits - 1 :=
  Iff.rfl

def wrap (t : IntegerType) (i : Int) : Int :=
  if t.signed then i.bmod (2 ^ t.bits) else i % 2 ^ t.bits

/-- An operator of a signed type is undefined where the type cannot hold its result. -/
def checked (t : IntegerType) (i : Int) : Option Int := if t.Holds i then some i else none

def negate (t : IntegerType) (i : Int) : Option Int := t.checked (-i)

def shiftLeft (t : IntegerType) (i : Int) (n : Nat) : Option Int :=
  if 0 ≤ i then t.checked (i * 2 ^ n) else none

def ofBinary {F : Format} (undefined : Binary F → Int) (t : IntegerType) (x : Binary F) : Int :=
  if x.isFinite ∧ t.Holds x.toInt then x.toInt else t.wrap (undefined x)

theorem wrap_of_holds {t : IntegerType} {i : Int} (hbits : 0 < t.bits) (h : t.Holds i) :
    t.wrap i = i := by
  obtain ⟨signed, bits⟩ := t
  obtain ⟨k, rfl⟩ : ∃ k, bits = k + 1 := ⟨bits - 1, by simp only at hbits; omega⟩
  cases signed with
  | false =>
      obtain ⟨hmin, hmax⟩ := holds_unsigned.mp h
      simp only [wrap, Bool.false_eq_true, if_false]
      exact Int.emod_eq_of_lt hmin (by omega)
  | true =>
      obtain ⟨hmin, hmax⟩ := holds_signed.mp h
      rw [Nat.add_sub_cancel] at hmin hmax
      simp only [wrap, if_true]
      apply Int.bmod_eq_of_le
      · push_cast
        rw [pow_succ]
        omega
      · push_cast
        rw [pow_succ]
        omega

theorem checked_of_holds {t : IntegerType} {i : Int} (h : t.Holds i) : t.checked i = some i :=
  if_pos h

theorem checked_of_not_holds {t : IntegerType} {i : Int} (h : ¬ t.Holds i) :
    t.checked i = none :=
  if_neg h

theorem shiftLeft_of_nonneg {t : IntegerType} {i : Int} (h : 0 ≤ i) (n : Nat) :
    t.shiftLeft i n = t.checked (i * 2 ^ n) :=
  if_pos h

theorem wrap_bmod {t : IntegerType} {n : Nat} (i : Int) (hbits : t.bits ≤ n) :
    t.wrap (i.bmod (2 ^ n)) = t.wrap i := by
  have hdvd : 2 ^ t.bits ∣ 2 ^ n := Nat.pow_dvd_pow 2 hbits
  unfold wrap
  split
  · exact Int.bmod_bmod_of_dvd hdvd
  · have hdvd' : (2 ^ t.bits : Int) ∣ (2 ^ n : Nat) := by exact_mod_cast hdvd
    rw [← Int.emod_emod_of_dvd _ hdvd', Int.bmod_emod, Int.emod_emod_of_dvd _ hdvd']

theorem ofBinary_of_holds {F : Format} {undefined : Binary F → Int} {t : IntegerType}
    {x : Binary F} (hfinite : x.isFinite = true) (h : t.Holds x.toInt) :
    t.ofBinary undefined x = x.toInt :=
  if_pos ⟨hfinite, h⟩

end IntegerType

end Libtvnet.Foundation
