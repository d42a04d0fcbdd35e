import Libtvnet.Foundation.DecimalField

/-!
# `service.h`

The addresses of services and of clients where the transport is that of UNIX
domain sockets.  A `char` is the `Char` with the same number.
-/

namespace Libtvnet

open Libtvnet.Foundation

/-- The bytes of the object from `sun_path` on; what the caller has left there stays. -/
structure SockaddrUn where
  sunFamily : Nat
  sunPath : List Char

def afUnix : Nat := 1

def sunPathOffset : Nat := 2

def servicePath : List Char := ['/', 't', 'm', 'p', '/', 't', 'v', 'n', 's', '_']

def clientPath : List Char :=
  ['/', 't', 'm', 'p', '/', 't', 'v', 'u', '_', 'c', 'l', 'i', 'e', 'n', 't', '_']

/-- The array behind `sprintf`, which stores a text and its NUL. -/
def sprintf (array text : List Char) : List Char :=
  text ++ '\x00' :: array.drop (text.length + 1)

/-- `sscanf` with a literal text and `%<width>llu`; `none` where nothing is assigned. -/
def sscanf (array literal : List Char) (width : Nat) : Option UInt64 :=
  let s := array.takeWhile (· != '\x00')
  if literal <+: s then scanUnsigned width (s.drop literal.length) else none

def memcmpZero (a b : List Char) (n : Nat) : Bool := a.take n == b.take n

/-- The length of the address, and the address; `bind` is not used. -/
def tvnsMakeAddress (serviceNr : Int64) (_bind : Bool) (address : SockaddrUn) :
    Nat × SockaddrUn :=
  let number := serviceNr.toInt.natAbs
  let text :=
    if 0 ≤ serviceNr.toInt then servicePath ++ printUnsigned 19 number
    else clientPath ++ printUnsigned 19 number
  (sunPathOffset + text.length + 1, ⟨afUnix, sprintf address.sunPath text⟩)

/--
`none` is the call of `abort`.  The first comparison reads seven characters
more than its literal has, the NUL and what the program has `beyond` it.
-/
def tvnsParseAddress (beyond : List Char) (indeterminate : UInt64) (address : SockaddrUn) :
    Option Int64 :=
  if memcmpZero address.sunPath (servicePath ++ '\x00' :: beyond) 17 then
    some ((sscanf address.sunPath servicePath 19).getD indeterminate).toInt64
  else if memcmpZero address.sunPath (clientPath ++ ['\x00']) 16 then
    some (-((sscanf address.sunPath clientPath 19).getD indeterminate).toInt64)
  else none

/-! ## Printed paths -/

theorem printUnsigned_cons (width n : Nat) :
    ∃ c cs, printUnsigned width n = c :: cs ∧ c ≠ '\x00' := by
  cases hfield : printUnsigned width n with
  | nil => exact absurd hfield (printUnsigned_ne_nil width n)
  | cons c cs =>
      refine ⟨c, cs, rfl, ?_⟩
      rintro rfl
      have hmem : '\x00' ∈ printUnsigned width n := by simp [hfield]
      have hdigit := isDigit_of_mem_printUnsigned hmem
      contradiction

theorem natAbs_lt {n : Int64} (h : -(2 ^ 63) < n.toInt) : n.toInt.natAbs < 2 ^ 63 := by
  have hhi := n.toInt_lt
  omega

theorem tvnsParseAddress_service {n : Int64} (h : 0 ≤ n.toInt) (beyond : List Char)
    (indeterminate : UInt64) (bind : Bool) (address : SockaddrUn) :
    tvnsParseAddress beyond indeterminate (tvnsMakeAddress n bind address).2 = none := by
  obtain ⟨c, cs, hfield, hc⟩ := printUnsigned_cons 19 n.toInt.natAbs
  simp [tvnsParseAddress, tvnsMakeAddress, h, sprintf, hfield, memcmpZero, servicePath,
    clientPath, hc]

theorem takeWhile_sprintf {text : List Char} (h : '\x00' ∉ text) (array : List Char) :
    (sprintf array text).takeWhile (· != '\x00') = text := by
  have htext : ∀ c ∈ text, (c != '\x00') = true := by
    intro c hc
    rw [bne_iff_ne]
    rintro rfl
    exact h hc
  rw [sprintf, List.takeWhile_append_of_pos htext]
  simp

private theorem sscanf_sprintf {literal : List Char} (hliteral : '\x00' ∉ literal)
    (array : List Char) {n : Nat} (h : n < 2 ^ 63) :
    sscanf (sprintf array (literal ++ printUnsigned 19 n)) literal 19 =
      some (UInt64.ofNat n) := by
  have htext : '\x00' ∉ literal ++ printUnsigned 19 n := by
    intro hc
    cases List.mem_append.mp hc with
    | inl hmem => exact hliteral hmem
    | inr hmem =>
        have hdigit := isDigit_of_mem_printUnsigned hmem
        contradiction
  have hpath := takeWhile_sprintf htext array
  have hscan : scanUnsigned 19 (printUnsigned 19 n ++ []) = some (UInt64.ofNat n) :=
    scanUnsigned_printUnsigned (by decide) (by omega) (by omega) []
  rw [List.append_nil] at hscan
  simp only [sscanf, hpath, List.prefix_append, if_true, List.drop_left, hscan]

theorem tvnsParseAddress_client {n : Int64} (hneg : n.toInt < 0) (h : -(2 ^ 63) < n.toInt)
    (beyond : List Char) (indeterminate : UInt64) (bind : Bool) (address : SockaddrUn) :
    tvnsParseAddress beyond indeterminate (tvnsMakeAddress n bind address).2 = some n := by
  have hnot : ¬ 0 ≤ n.toInt := by omega
  have hliteral : '\x00' ∉ clientPath := by decide
  have hscan := sscanf_sprintf hliteral address.sunPath (natAbs_lt h)
  have hpath : (tvnsMakeAddress n bind address).2.sunPath =
      sprintf address.sunPath (clientPath ++ printUnsigned 19 n.toInt.natAbs) := by
    simp only [tvnsMakeAddress, if_neg hnot]
  have hservice : memcmpZero (sprintf address.sunPath
      (clientPath ++ printUnsigned 19 n.toInt.natAbs)) (servicePath ++ '\x00' :: beyond) 17 =
      false := by
    simp [memcmpZero, sprintf, servicePath, clientPath]
  have hclient : memcmpZero (sprintf address.sunPath
      (clientPath ++ printUnsigned 19 n.toInt.natAbs)) (clientPath ++ ['\x00']) 16 = true := by
    simp [memcmpZero, sprintf, clientPath]
  have hnumber : -(UInt64.ofNat n.toInt.natAbs).toInt64 = n := by
    have habs : -(n.toInt.natAbs : Int) = n.toInt := by omega
    rw [UInt64.toInt64_ofNat', ← Int64.ofInt_eq_ofNat, Int64.neg_ofInt, habs, Int64.ofInt_toInt]
  rw [tvnsParseAddress, hpath, hservice, hclient, hscan, if_neg (by decide), if_pos rfl,
    Option.getD_some, hnumber]

end Libtvnet
