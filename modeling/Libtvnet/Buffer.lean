import Libtvnet.Foundation.BigEndian
import Libtvnet.Foundation.Ieee754

/-!
# Buffers

`tvu_buffer_t` of tvutils: a block of memory and an offset into it.  The block
is an object of a 64-bit C program, so it has fewer than `2 ^ 63` bytes, and
`size` is its extent.  An access outside the block has no defined outcome and
is modelled by `none`; offset arithmetic is that of a 64-bit unsigned word.
-/

namespace Libtvnet

open Libtvnet.Foundation

structure TvuBuffer where
  data : List UInt8
  offset : Nat
  size_lt : data.length < 2 ^ 63
  offset_lt : offset < 2 ^ 64
  deriving DecidableEq

theorem TvuBuffer.start_lt : 0 < 2 ^ 64 := by decide

theorem TvuBuffer.nil_length_lt : ([] : List UInt8).length < 2 ^ 63 := by decide

/-! ## Memory operations of tvutils -/

/-- `tvu_set_be_i8` .. `tvu_set_be_i64`: a truncating big-endian store. -/
def tvuSetBeI (bitSize : Nat) (x : Int) : List UInt8 :=
  bigEndian (bitSize / 8) (truncate bitSize x)

def tvuSetBeF {F : Format} (bitSize : Nat) (x : Binary F) : List UInt8 :=
  bigEndian (bitSize / 8) x.toBits

/-- `tvu_get_be_i16` .. `tvu_get_be_i64`: a sign-extending load. -/
def tvuGetBeI (bitSize : Nat) (bytes : List UInt8) : Int64 :=
  Int64.ofInt (signExtend bitSize (ofBigEndian bytes))

/-- `tvu_get_be_u8` .. `tvu_get_be_u32`: a zero-extending load. -/
def tvuGetBeU (bytes : List UInt8) : Nat := ofBigEndian bytes

def tvuGetBeF (F : Format) (bytes : List UInt8) : Binary F :=
  Binary.ofBits (ofBigEndian bytes)

/-- `tvu_sign_extend_u8`: the low `bits` bits of a byte as a signed number. -/
def tvuSignExtendU8 (c : UInt8) (bits : Nat) : Int64 :=
  Int64.ofInt (signExtend bits (c.toNat % 2 ^ bits))

@[simp] theorem length_tvuSetBeI (bitSize : Nat) (x : Int) :
    (tvuSetBeI bitSize x).length = bitSize / 8 :=
  length_bigEndian _ _

@[simp] theorem length_tvuSetBeF {F : Format} (bitSize : Nat) (x : Binary F) :
    (tvuSetBeF bitSize x).length = bitSize / 8 :=
  length_bigEndian _ _

theorem tvuGetBeI_tvuSetBeI {bitSize : Nat} (x : Int64) (hbits : 0 < bitSize)
    (hbytes : 256 ^ (bitSize / 8) = 2 ^ bitSize)
    (hlo : -(2 ^ (bitSize - 1) : Nat) ≤ x.toInt) (hhi : x.toInt < (2 ^ (bitSize - 1) : Nat)) :
    tvuGetBeI bitSize (tvuSetBeI bitSize x.toInt) = x := by
  have hword := truncate_lt bitSize x.toInt
  rw [tvuGetBeI, tvuSetBeI, ofBigEndian_bigEndian, hbytes, Nat.mod_eq_of_lt hword,
    signExtend_truncate hbits hlo hhi, Int64.ofInt_toInt]

theorem tvuGetBeF_tvuSetBeF {F : Format} (bitSize : Nat) (x : Binary F)
    (hbytes : 256 ^ (bitSize / 8) = 2 ^ (F.exponentBits + F.fractionBits + 1)) :
    tvuGetBeF F (tvuSetBeF bitSize x) = x := by
  rw [tvuGetBeF, tvuSetBeF, ofBigEndian_bigEndian, hbytes, Nat.mod_eq_of_lt x.toBits_lt,
    Binary.ofBits_toBits]

namespace TvuBuffer

/-! ## Access -/

def size (b : TvuBuffer) : Nat := b.data.length

def rest (b : TvuBuffer) : List UInt8 := b.data.drop b.offset

def load (b : TvuBuffer) (i n : Nat) : Option (List UInt8) :=
  if i + n ≤ b.size then some ((b.data.drop i).take n) else none

def store (b : TvuBuffer) (i : Nat) (bytes : List UInt8) : Option TvuBuffer :=
  if h : bytes = [] ∨ i + bytes.length ≤ b.data.length then
    some { b with
      data := b.data.take i ++ bytes ++ b.data.drop (i + bytes.length)
      size_lt := by
        have hsize := b.size_lt
        rcases h with rfl | h
        · simpa using hsize
        · simp only [List.length_append, List.length_take, List.length_drop]
          omega }
  else none

/-- `buffer->offset+= n`. -/
def skip (b : TvuBuffer) (n : Nat) : TvuBuffer :=
  { b with
    offset := (b.offset + n) % 2 ^ 64
    offset_lt := Nat.mod_lt _ (by decide) }

def rewind (b : TvuBuffer) : TvuBuffer :=
  { b with
    offset := 0
    offset_lt := start_lt }

/-- Store at the offset and step over what was stored. -/
def append (b : TvuBuffer) (bytes : List UInt8) : Option TvuBuffer :=
  (b.store b.offset bytes).map (·.skip bytes.length)

@[ext] theorem ext' {b c : TvuBuffer} (hdata : b.data = c.data) (hoffset : b.offset = c.offset) :
    b = c := by
  cases b
  cases c
  simp only at hdata hoffset
  subst hdata hoffset
  rfl

@[simp] theorem data_skip (b : TvuBuffer) (n : Nat) : (b.skip n).data = b.data := rfl

@[simp] theorem offset_rewind (b : TvuBuffer) : b.rewind.offset = 0 := rfl

@[simp] theorem size_skip (b : TvuBuffer) (n : Nat) : (b.skip n).size = b.size := rfl

theorem offset_skip {b : TvuBuffer} {n : Nat} (h : b.offset + n < 2 ^ 64) :
    (b.skip n).offset = b.offset + n :=
  Nat.mod_eq_of_lt h

theorem offset_skip_of_le {b : TvuBuffer} {n : Nat} (h : b.offset + n ≤ b.size) :
    (b.skip n).offset = b.offset + n := by
  have := b.size_lt
  exact offset_skip (by unfold size at h; omega)

theorem skip_skip (b : TvuBuffer) (m n : Nat) : (b.skip m).skip n = b.skip (m + n) := by
  ext1
  · rfl
  · simp only [skip]
    omega

@[simp] theorem skip_zero (b : TvuBuffer) : b.skip 0 = b :=
  ext' rfl (Nat.mod_eq_of_lt b.offset_lt)

theorem length_rest (b : TvuBuffer) : b.rest.length = b.size - b.offset :=
  List.length_drop ..

theorem offset_add_le {b : TvuBuffer} {bytes suffix : List UInt8} (hne : bytes ≠ [])
    (h : b.rest = bytes ++ suffix) : b.offset + bytes.length ≤ b.size := by
  have hlength := congrArg List.length h
  have hpos := List.length_pos_iff.mpr hne
  rw [length_rest, List.length_append] at hlength
  omega

theorem rest_skip {b : TvuBuffer} {bytes suffix : List UInt8}
    (h : b.rest = bytes ++ suffix) : (b.skip bytes.length).rest = suffix := by
  rcases List.eq_nil_or_concat bytes with rfl | hne
  · simpa using h
  · have hle := offset_add_le (by obtain ⟨_, _, rfl⟩ := hne; simp) h
    rw [rest, data_skip, offset_skip_of_le hle, ← List.drop_drop, ← rest, h, List.drop_left]

/-! ## Writing -/

private theorem splice_splice {i : Nat} {bytes xs ys : List UInt8}
    (h : i + xs.length ≤ bytes.length) :
    (bytes.take i ++ xs ++ bytes.drop (i + xs.length)).take (i + xs.length) ++ ys ++
        (bytes.take i ++ xs ++ bytes.drop (i + xs.length)).drop (i + xs.length + ys.length) =
      bytes.take i ++ (xs ++ ys) ++ bytes.drop (i + (xs ++ ys).length) := by
  have hleft : (bytes.take i ++ xs).length = i + xs.length := by
    rw [List.length_append, List.length_take]
    omega
  rw [List.take_left' hleft, ← List.drop_drop, List.drop_left' hleft, List.drop_drop,
    List.length_append, ← Nat.add_assoc]
  simp only [List.append_assoc]

private theorem store_eq_some {b : TvuBuffer} {i : Nat} {bytes : List UInt8}
    (h : i + bytes.length ≤ b.size) :
    ∃ c, b.store i bytes = some c ∧ c.offset = b.offset ∧
      c.data = b.data.take i ++ bytes ++ b.data.drop (i + bytes.length) := by
  refine ⟨_, dif_pos (Or.inr h), rfl, rfl⟩

private theorem store_eq_none {b : TvuBuffer} {i : Nat} {bytes : List UInt8} (hne : bytes ≠ [])
    (h : ¬ i + bytes.length ≤ b.size) : b.store i bytes = none :=
  dif_neg (by simpa [hne, size] using h)

theorem append_eq_some {b : TvuBuffer} {bytes : List UInt8}
    (h : b.offset + bytes.length ≤ b.size) :
    ∃ c, b.append bytes = some c ∧ c.offset = b.offset + bytes.length ∧
      c.data = b.data.take b.offset ++ bytes ++ b.data.drop (b.offset + bytes.length) := by
  obtain ⟨c, hc, hoffset, hdata⟩ := store_eq_some h
  refine ⟨c.skip bytes.length, by rw [append, hc, Option.map_some], ?_, hdata⟩
  have hsize := b.size_lt
  unfold size at h
  rw [offset_skip (by omega), hoffset]

private theorem append_eq_none {b : TvuBuffer} {bytes : List UInt8} (hne : bytes ≠ [])
    (h : ¬ b.offset + bytes.length ≤ b.size) : b.append bytes = none := by
  rw [append, store_eq_none hne h, Option.map_none]

@[simp] theorem append_nil (b : TvuBuffer) : b.append [] = some b := by
  have hstore : b.store b.offset [] = some b := by
    rw [store, dif_pos (Or.inl rfl)]
    congr 1
    ext1
    · simp
    · rfl
  rw [append, hstore]
  simp

theorem room_of_append {b c : TvuBuffer} {bytes : List UInt8} (h : b.append bytes = some c)
    (hne : bytes ≠ []) : b.offset + bytes.length ≤ b.size := by
  by_contra hroom
  rw [append_eq_none hne hroom] at h
  contradiction

theorem offset_of_append {b c : TvuBuffer} {bytes : List UInt8} (h : b.append bytes = some c) :
    c.offset = b.offset + bytes.length := by
  by_cases hne : bytes = []
  · subst hne
    rw [append_nil] at h
    cases h
    rfl
  · obtain ⟨c', hc', hoffset, -⟩ := append_eq_some (room_of_append h hne)
    obtain rfl : c' = c := Option.some.inj (hc'.symm.trans h)
    exact hoffset

theorem rest_of_append {b c received : TvuBuffer} {bytes : List UInt8}
    (happend : b.append bytes = some c) (hoffset : received.offset = b.offset)
    (hdata : received.data.take c.offset = c.data.take c.offset) :
    received.rest = bytes ++ received.data.drop c.offset := by
  by_cases hne : bytes = []
  · have hend := offset_of_append happend
    subst hne
    rw [rest, hoffset, hend]
    rfl
  have hroom := room_of_append happend hne
  obtain ⟨c', hc', hcOffset, hcData⟩ := append_eq_some hroom
  obtain rfl : c' = c := Option.some.inj (hc'.symm.trans happend)
  have hstart : (b.data.take b.offset).length = b.offset := by
    unfold size at hroom
    rw [List.length_take]
    omega
  have hwritten : c'.data.take c'.offset = b.data.take b.offset ++ bytes := by
    rw [hcData, hcOffset]
    exact List.take_left' (by rw [List.length_append, hstart])
  rw [rest, hoffset]
  conv_lhs => rw [← List.take_append_drop c'.offset received.data, hdata, hwritten]
  rw [List.append_assoc, List.drop_left' hstart]

theorem append_append (b : TvuBuffer) (xs ys : List UInt8) :
    (b.append xs).bind (·.append ys) = b.append (xs ++ ys) := by
  rcases eq_or_ne xs [] with rfl | hxs
  · simp
  rcases eq_or_ne ys [] with rfl | hys
  · simp
  by_cases hfirst : b.offset + xs.length ≤ b.size
  · obtain ⟨c, hc, hoffset, hdata⟩ := append_eq_some hfirst
    have hsize : c.size = b.size := by
      unfold size at hfirst ⊢
      rw [hdata, List.length_append, List.length_append, List.length_take, List.length_drop]
      omega
    rw [hc, Option.bind_some]
    by_cases hboth : b.offset + (xs ++ ys).length ≤ b.size
    · have hsecond : c.offset + ys.length ≤ c.size := by
        rw [hoffset, hsize]
        simpa [Nat.add_assoc] using hboth
      obtain ⟨d, hd, hdOffset, hdData⟩ := append_eq_some hsecond
      obtain ⟨e, he, heOffset, heData⟩ := append_eq_some hboth
      rw [hd, he]
      congr 1
      ext1
      · rw [hdData, heData, hoffset, hdata]
        exact splice_splice hfirst
      · rw [hdOffset, heOffset, hoffset, List.length_append, Nat.add_assoc]
    · have hsecond : ¬ c.offset + ys.length ≤ c.size := by
        rw [hoffset, hsize]
        simpa [Nat.add_assoc] using hboth
      rw [append_eq_none hys hsecond, append_eq_none (by simp [hxs]) hboth]
  · have hboth : ¬ b.offset + (xs ++ ys).length ≤ b.size := by
      rw [List.length_append]
      omega
    rw [append_eq_none hxs hfirst, append_eq_none (by simp [hxs]) hboth, Option.bind_none]

private theorem store_skip (b : TvuBuffer) (n i : Nat) (bytes : List UInt8) :
    (b.skip n).store i bytes = (b.store i bytes).map (·.skip n) := by
  by_cases h : bytes = [] ∨ i + bytes.length ≤ b.data.length
  · have hleft : (b.skip n).store i bytes = some _ := dif_pos h
    have hright : b.store i bytes = some _ := dif_pos h
    rw [hleft, hright]
    rfl
  · have hleft : (b.skip n).store i bytes = none := dif_neg h
    have hright : b.store i bytes = none := dif_neg h
    rw [hleft, hright, Option.map_none]

theorem store_store_skip (b : TvuBuffer) (xs ys : List UInt8) (hxs : xs ≠ []) :
    ((b.store b.offset xs).bind fun c =>
        (c.store (c.offset + xs.length) ys).bind fun c =>
          some (c.skip (xs.length + ys.length))) =
      b.append (xs ++ ys) := by
  by_cases hfits : b.offset + xs.length ≤ b.size
  · obtain ⟨c, hc, hoffset, -⟩ := store_eq_some hfits
    have hskip : (c.skip xs.length).offset = c.offset + xs.length := by
      have := b.size_lt
      unfold size at hfits
      exact offset_skip (by omega)
    have hfirst : b.append xs = some (c.skip xs.length) := by
      rw [append, hc, Option.map_some]
    rw [← append_append, hfirst, hc, Option.bind_some, Option.bind_some, append, hskip,
      store_skip, Option.map_map]
    cases c.store (c.offset + xs.length) ys with
    | none => rfl
    | some d => simp [skip_skip]
  · have hboth : ¬ b.offset + (xs ++ ys).length ≤ b.size := by
      rw [List.length_append]
      omega
    rw [store_eq_none hxs hfits, append_eq_none (by simp [hxs]) hboth, Option.bind_none]

end TvuBuffer

end Libtvnet
