import Libtvnet.Service

/-!
# The paths of sockets

`tvns_bind` unlinks the path that it binds, so a path that two numbers share
would take the socket of one away from it.  The decimal field of a path gives
its number back, and the literal in front of it gives the sign.
-/

namespace Libtvnet

open Libtvnet.Foundation

def tvnsAddrlen : Nat := 64

/-- The path that `tvns_bind` unlinks; `address` is what `alloca` gave it. -/
def tvnsBindUnlinks (serviceNr : Int64) (address : SockaddrUn) : List Char :=
  (tvnsMakeAddress serviceNr true address).2.sunPath.takeWhile (· != '\x00')

def pathBytes (made : Nat × SockaddrUn) : List Char :=
  made.2.sunPath.take (made.1 - sunPathOffset)

/-! ## What is printed into the path -/

def pathText (serviceNr : Int64) : List Char :=
  if 0 ≤ serviceNr.toInt then servicePath ++ printUnsigned 19 serviceNr.toInt.natAbs
  else clientPath ++ printUnsigned 19 serviceNr.toInt.natAbs

theorem tvnsMakeAddress_eq (n : Int64) (bind : Bool) (address : SockaddrUn) :
    tvnsMakeAddress n bind address =
      (sunPathOffset + (pathText n).length + 1, ⟨afUnix, sprintf address.sunPath (pathText n)⟩) :=
  rfl

theorem printUnsigned_injective (width : Nat) {m n : Nat}
    (h : printUnsigned width m = printUnsigned width n) : m = n := by
  rw [← ofDigitChars_printUnsigned width m, h, ofDigitChars_printUnsigned]

private theorem servicePath_ne_clientPath (xs ys : List Char) :
    servicePath ++ xs ≠ clientPath ++ ys := by
  simp [servicePath, clientPath]

theorem pathText_injective {m n : Int64} (h : pathText m = pathText n) : m = n := by
  apply Int64.toInt_inj.mp
  unfold pathText at h
  split_ifs at h with hm hn hn
  · have habs := printUnsigned_injective 19 (List.append_cancel_left h)
    omega
  · exact absurd h (servicePath_ne_clientPath _ _)
  · exact absurd h.symm (servicePath_ne_clientPath _ _)
  · have habs := printUnsigned_injective 19 (List.append_cancel_left h)
    omega

theorem nul_notMem_pathText (n : Int64) : '\x00' ∉ pathText n := by
  have hfield : '\x00' ∉ printUnsigned 19 n.toInt.natAbs := fun hmem =>
    absurd (isDigit_of_mem_printUnsigned hmem) (by decide)
  have hservice : '\x00' ∉ servicePath := by decide
  have hclient : '\x00' ∉ clientPath := by decide
  unfold pathText
  split
  · simp [hfield, hservice]
  · simp [hfield, hclient]

theorem length_pathText_le {n : Int64} (h : -(2 ^ 63) < n.toInt) :
    (pathText n).length ≤ 35 := by
  have hbound := natAbs_lt h
  have hfield : (printUnsigned 19 n.toInt.natAbs).length = 19 :=
    length_printUnsigned (by decide) (by omega)
  unfold pathText
  split <;> simp [hfield, servicePath, clientPath]

private theorem take_sprintf (array text : List Char) :
    (sprintf array text).take (text.length + 1) = text ++ ['\x00'] := by
  rw [sprintf, List.take_length_add_append]
  rfl

private theorem drop_sprintf (array text : List Char) :
    (sprintf array text).drop (text.length + 1) = array.drop (text.length + 1) := by
  rw [sprintf, ← List.drop_drop, List.drop_left, List.drop_one, List.tail_cons]

theorem pathBytes_tvnsMakeAddress (n : Int64) (bind : Bool) (address : SockaddrUn) :
    pathBytes (tvnsMakeAddress n bind address) = pathText n ++ ['\x00'] := by
  have hlength : sunPathOffset + (pathText n).length + 1 - sunPathOffset =
      (pathText n).length + 1 := by
    omega
  rw [pathBytes, tvnsMakeAddress_eq, hlength, take_sprintf]

theorem tvnsBindUnlinks_eq (n : Int64) (address : SockaddrUn) :
    tvnsBindUnlinks n address = pathText n :=
  takeWhile_sprintf (nul_notMem_pathText n) address.sunPath

/-! ## Every number -/

structure PathsDistinct (m n : Int64) : Prop where
  bytes : ∀ bind bind' address address',
    (tvnsMakeAddress m bind address).1 = (tvnsMakeAddress n bind' address').1 →
    pathBytes (tvnsMakeAddress m bind address) = pathBytes (tvnsMakeAddress n bind' address') →
    m = n
  unlinked : ∀ address address', tvnsBindUnlinks m address = tvnsBindUnlinks n address' → m = n

/-- The length is that of the family and the terminated path, and the path is inside the object. -/
structure AddressFits (n : Int64) : Prop where
  terminated : ∀ bind address, ∃ path, '\x00' ∉ path ∧
    pathBytes (tvnsMakeAddress n bind address) = path ++ ['\x00'] ∧
    (tvnsMakeAddress n bind address).1 = sunPathOffset + (path ++ ['\x00']).length
  le_addrlen : ∀ bind address, (tvnsMakeAddress n bind address).1 ≤ tvnsAddrlen
  unchanged : ∀ bind address,
    (tvnsMakeAddress n bind address).2.sunPath.drop
        ((tvnsMakeAddress n bind address).1 - sunPathOffset) =
      address.sunPath.drop ((tvnsMakeAddress n bind address).1 - sunPathOffset)
  length : ∀ bind address, sunPathOffset + address.sunPath.length = tvnsAddrlen →
    sunPathOffset + (tvnsMakeAddress n bind address).2.sunPath.length = tvnsAddrlen

private theorem pathsDistinct (m n : Int64) : PathsDistinct m n := by
  constructor
  · intro bind bind' address address' _ hbytes
    rw [pathBytes_tvnsMakeAddress, pathBytes_tvnsMakeAddress] at hbytes
    exact pathText_injective (List.append_cancel_right hbytes)
  · intro address address' hpath
    rw [tvnsBindUnlinks_eq, tvnsBindUnlinks_eq] at hpath
    exact pathText_injective hpath

private theorem addressFits {n : Int64} (h : -(2 ^ 63) < n.toInt) : AddressFits n := by
  have htext := length_pathText_le h
  constructor
  · intro bind address
    refine ⟨pathText n, nul_notMem_pathText n, pathBytes_tvnsMakeAddress n bind address, ?_⟩
    rw [tvnsMakeAddress_eq, List.length_append, List.length_singleton]
    rfl
  · intro bind address
    rw [tvnsMakeAddress_eq, sunPathOffset, tvnsAddrlen]
    omega
  · intro bind address
    have hlength : (tvnsMakeAddress n bind address).1 - sunPathOffset =
        (pathText n).length + 1 := by
      rw [tvnsMakeAddress_eq]
      omega
    rw [hlength]
    exact drop_sprintf address.sunPath (pathText n)
  · intro bind address haddress
    rw [tvnsMakeAddress_eq]
    simp only [sprintf, List.length_append, List.length_cons, List.length_drop]
    unfold sunPathOffset tvnsAddrlen at *
    omega

/-- No two numbers share a path, and an address fits what its callers allocate. -/
theorem tvnsMakeAddress_separates {m n : Int64} (hm : -(2 ^ 63) < m.toInt)
    (hn : -(2 ^ 63) < n.toInt) : PathsDistinct m n ∧ AddressFits m ∧ AddressFits n :=
  ⟨pathsDistinct m n, addressFits hm, addressFits hn⟩

theorem tvnsMakeAddress_separates_extremes :
    PathsDistinct 0x7fffffffffffffff (-0x7fffffffffffffff) ∧
      AddressFits 0x7fffffffffffffff ∧ AddressFits (-0x7fffffffffffffff) :=
  tvnsMakeAddress_separates (by decide) (by decide)

end Libtvnet
