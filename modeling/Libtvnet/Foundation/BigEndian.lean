import Mathlib.Tactic

/-!
# Big-endian words

A word of `width` bytes is the list of its base-256 digits, most significant
digit first.  Signed words are two's complement.  Writing truncates to the
width, so reading back gives the residue of the value that was written.
-/

namespace Libtvnet.Foundation

/-- The `width` low base-256 digits of `n`, most significant first. -/
def bigEndian : Nat → Nat → List UInt8
  | 0, _ => []
  | width + 1, n => UInt8.ofNat (n / 256 ^ width) :: bigEndian width n

def ofBigEndian (bytes : List UInt8) : Nat :=
  bytes.foldl (fun acc byte => acc * 256 + byte.toNat) 0

@[simp] theorem length_bigEndian (width n : Nat) :
    (bigEndian width n).length = width := by
  induction width with
  | zero => rfl
  | succ width ih => simp [bigEndian, ih]

private theorem foldl_bigEndian (width n acc : Nat) :
    (bigEndian width n).foldl (fun acc byte => acc * 256 + byte.toNat) acc =
      acc * 256 ^ width + n % 256 ^ width := by
  induction width generalizing acc with
  | zero => simp [bigEndian, Nat.mod_one]
  | succ width ih =>
      have digit : (UInt8.ofNat (n / 256 ^ width)).toNat = n / 256 ^ width % 256 := by
        simp
      simp only [bigEndian, List.foldl_cons, ih, digit]
      rw [Nat.mod_pow_succ, pow_succ]
      ring

@[simp] theorem ofBigEndian_bigEndian (width n : Nat) :
    ofBigEndian (bigEndian width n) = n % 256 ^ width := by
  rw [ofBigEndian, foldl_bigEndian, Nat.zero_mul, Nat.zero_add]

private theorem foldl_eq_add (bytes : List UInt8) (acc : Nat) :
    bytes.foldl (fun acc byte => acc * 256 + byte.toNat) acc =
      acc * 256 ^ bytes.length + ofBigEndian bytes := by
  induction bytes generalizing acc with
  | nil => simp [ofBigEndian]
  | cons byte bytes ih =>
      have hzero := ih (0 * 256 + byte.toNat)
      rw [ofBigEndian, List.foldl_cons, List.foldl_cons, hzero, ih, List.length_cons, pow_succ]
      ring

theorem ofBigEndian_cons (byte : UInt8) (bytes : List UInt8) :
    ofBigEndian (byte :: bytes) =
      byte.toNat * 256 ^ bytes.length + ofBigEndian bytes := by
  rw [ofBigEndian, List.foldl_cons, foldl_eq_add, Nat.zero_mul, Nat.zero_add]

theorem ofBigEndian_lt (bytes : List UInt8) :
    ofBigEndian bytes < 256 ^ bytes.length := by
  induction bytes with
  | nil => simp [ofBigEndian]
  | cons byte bytes ih =>
      have hbyte : byte.toNat ≤ 255 := by have := byte.toNat_lt; omega
      calc ofBigEndian (byte :: bytes)
          = byte.toNat * 256 ^ bytes.length + ofBigEndian bytes := ofBigEndian_cons _ _
        _ ≤ 255 * 256 ^ bytes.length + ofBigEndian bytes := by gcongr
        _ < 256 ^ (byte :: bytes).length := by
            rw [List.length_cons, pow_succ]
            omega

/-- The two's complement reading of an unsigned word of `bits` bits. -/
def signExtend (bits n : Nat) : Int := Int.bmod n (2 ^ bits)

def truncate (bits : Nat) (x : Int) : Nat := (x % (2 ^ bits : Nat)).toNat

theorem truncate_lt (bits : Nat) (x : Int) : truncate bits x < 2 ^ bits := by
  have hpos : (0 : Int) < (2 ^ bits : Nat) := by exact_mod_cast Nat.two_pow_pos bits
  have := Int.emod_nonneg x hpos.ne'
  have := Int.emod_lt_of_pos x hpos
  unfold truncate
  omega

theorem signExtend_truncate {bits : Nat} {x : Int} (hbits : 0 < bits)
    (hlo : -(2 ^ (bits - 1) : Nat) ≤ x) (hhi : x < (2 ^ (bits - 1) : Nat)) :
    signExtend bits (truncate bits x) = x := by
  obtain ⟨k, rfl⟩ : ∃ k, bits = k + 1 := ⟨bits - 1, by omega⟩
  simp only [Nat.add_sub_cancel] at hlo hhi
  have hpos : (0 : Int) < (2 ^ (k + 1) : Nat) := by
    exact_mod_cast Nat.two_pow_pos (k + 1)
  have hword : ((truncate (k + 1) x : Nat) : Int) = x % (2 ^ (k + 1) : Nat) :=
    Int.toNat_of_nonneg (Int.emod_nonneg x hpos.ne')
  rw [signExtend, hword, Int.emod_bmod]
  apply Int.bmod_eq_of_le
  · rw [pow_succ]
    omega
  · rw [pow_succ]
    omega

theorem signExtend_bounds {bits : Nat} (hbits : 0 < bits) (n : Nat) :
    -(2 ^ (bits - 1) : Nat) ≤ signExtend bits n ∧ signExtend bits n < (2 ^ (bits - 1) : Nat) := by
  obtain ⟨k, rfl⟩ : ∃ k, bits = k + 1 := ⟨bits - 1, by omega⟩
  have hpos : 0 < 2 ^ (k + 1) := Nat.two_pow_pos _
  have hlo := Int.le_bmod (x := n) hpos
  have hhi := Int.bmod_lt (x := n) hpos
  rw [signExtend, Nat.add_sub_cancel]
  rw [pow_succ] at hlo hhi ⊢
  omega

theorem truncate_natCast {bits n : Nat} (h : n < 2 ^ bits) :
    truncate bits n = n := by
  have hmod : (n : Int) % (2 ^ bits : Nat) = n := by
    exact_mod_cast Nat.mod_eq_of_lt h
  rw [truncate, hmod, Int.toNat_natCast]

end Libtvnet.Foundation
