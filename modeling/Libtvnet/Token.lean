import Libtvnet.Buffer
import Libtvnet.Foundation.CInteger

/-!
# The wire format

What a pickle means, as a sequence of tokens, and the one byte string that
stands for each token in a pickle written by this library: the shortest form
of the number or of the length header.  Encoders and decoders are compared
with this description, not with each other.
-/

namespace Libtvnet

open Libtvnet.Foundation

inductive Token where
  | null
  | integer (x : Int64)
  | float (x : Binary64)
  | utf8 (string : List UInt8)
  | binary (string : List UInt8)
  | list (count : Nat)
  | dictionary (count : Nat)
  deriving DecidableEq

/-- A length header: up to `0x1c` inside the control byte, else after it. -/
def compoundBytes (control : UInt8) (n : Nat) : List UInt8 :=
  if n ≤ 0x1c then [control ||| UInt8.ofNat n]
  else if n < 2 ^ 8 then (control ||| 0x1d) :: bigEndian 1 n
  else if n < 2 ^ 16 then (control ||| 0x1e) :: bigEndian 2 n
  else (control ||| 0x1f) :: bigEndian 4 n

def integerBytes (x : Int64) : List UInt8 :=
  if -58 ≤ x.toInt ∧ x.toInt ≤ 63 then [UInt8.ofNat (truncate 7 x.toInt)]
  else if IntegerType.int16.Holds x.toInt then 0x45 :: tvuSetBeI 16 x.toInt
  else if IntegerType.int32.Holds x.toInt then 0x44 :: tvuSetBeI 32 x.toInt
  else 0x43 :: tvuSetBeI 64 x.toInt

def fitsFloat (x : Binary64) : Bool :=
  ((x.convert : Binary32).convert : Binary64).eq x

def floatBytes (x : Binary64) : List UInt8 :=
  if fitsFloat x then 0x42 :: tvuSetBeF 32 (x.convert : Binary32)
  else 0x41 :: tvuSetBeF 64 x

namespace Token

def bytes : Token → List UInt8
  | null => [0x40]
  | integer x => integerBytes x
  | float x => floatBytes x
  | utf8 string => compoundBytes 0x80 string.length ++ string ++ [0]
  | binary string => compoundBytes 0xa0 string.length ++ string
  | list count => compoundBytes 0xc0 count
  | dictionary count => compoundBytes 0xe0 count

/--
The tokens that the encoders write: sizes and counts fit a 32-bit header, and
a float is never a number that travels as an integer.
-/
def Valid : Token → Prop
  | float x => x.integral = false
  | utf8 string | binary string => string.length < 2 ^ 32
  | list count | dictionary count => count < 2 ^ 32
  | _ => True

def narrowString (string : List UInt8) : List UInt8 := string.take (string.length % 2 ^ 32)

/-- What is written for a token when its size is passed on as a 32-bit number. -/
def narrow : Token → Token
  | utf8 string => utf8 (narrowString string)
  | binary string => binary (narrowString string)
  | list count => list (count % 2 ^ 32)
  | dictionary count => dictionary (count % 2 ^ 32)
  | t => t

theorem length_narrowString (string : List UInt8) :
    (narrowString string).length = string.length % 2 ^ 32 := by
  rw [narrowString, List.length_take]
  exact Nat.min_eq_left (Nat.mod_le _ _)

theorem length_narrowString_lt (string : List UInt8) :
    (narrowString string).length < 2 ^ 32 := by
  rw [length_narrowString]
  exact Nat.mod_lt _ (Nat.two_pow_pos 32)

theorem narrowString_of_lt {string : List UInt8} (h : string.length < 2 ^ 32) :
    narrowString string = string := by
  rw [narrowString, Nat.mod_eq_of_lt h, List.take_length]

theorem narrow_of_valid {t : Token} (h : t.Valid) : t.narrow = t := by
  cases t with
  | utf8 string => exact congrArg utf8 (narrowString_of_lt h)
  | binary string => exact congrArg binary (narrowString_of_lt h)
  | list count => exact congrArg list (Nat.mod_eq_of_lt h)
  | dictionary count => exact congrArg dictionary (Nat.mod_eq_of_lt h)
  | _ => rfl

/-- A pickled double: the integer it equals, else itself. -/
def ofDouble (undefined : Binary64 → Int) (x : Binary64) : Token :=
  if x.integral then integer (Int64.ofInt (IntegerType.int64.ofBinary undefined x))
  else float x

theorem ofDouble_valid (undefined : Binary64 → Int) (x : Binary64) :
    (ofDouble undefined x).Valid := by
  unfold ofDouble
  split
  · trivial
  · next h => exact Bool.eq_false_iff.mpr h

theorem narrow_ofDouble (undefined : Binary64 → Int) (x : Binary64) :
    (ofDouble undefined x).narrow = ofDouble undefined x :=
  narrow_of_valid (ofDouble_valid undefined x)

private theorem length_bytes_le {t : Token} (h : t.Valid) : t.bytes.length ≤ 2 ^ 32 + 5 := by
  have hcompound (control : UInt8) (n : Nat) : (compoundBytes control n).length ≤ 5 := by
    unfold compoundBytes
    split_ifs <;> simp
  cases t with
  | null => simp [bytes]
  | integer x =>
      simp only [bytes, integerBytes]
      split_ifs <;> simp
  | float x =>
      simp only [bytes, floatBytes]
      split_ifs <;> simp
  | utf8 string =>
      have hheader := hcompound 0x80 string.length
      have hstring : string.length < 2 ^ 32 := h
      simp only [bytes, List.length_append, List.length_singleton]
      omega
  | binary string =>
      have hheader := hcompound 0xa0 string.length
      have hstring : string.length < 2 ^ 32 := h
      simp only [bytes, List.length_append]
      omega
  | list count => exact (hcompound _ _).trans (by decide)
  | dictionary count => exact (hcompound _ _).trans (by decide)

end Token

def wire (tokens : List Token) : List UInt8 := tokens.flatMap Token.bytes

@[simp] theorem wire_nil : wire [] = [] := rfl

@[simp] theorem wire_cons (t : Token) (ts : List Token) : wire (t :: ts) = t.bytes ++ wire ts :=
  rfl

@[simp] theorem wire_append (ts us : List Token) : wire (ts ++ us) = wire ts ++ wire us :=
  List.flatMap_append

theorem length_wire_le {ts : List Token} (h : ∀ t ∈ ts, t.Valid) :
    (wire ts).length ≤ ts.length * (2 ^ 32 + 5) := by
  induction ts with
  | nil => simp
  | cons t ts ih =>
      have hfirst := Token.length_bytes_le (h t (by simp))
      have hrest := ih fun t ht => h t (by simp [ht])
      rw [wire_cons, List.length_append, List.length_cons, Nat.succ_mul]
      omega

end Libtvnet
