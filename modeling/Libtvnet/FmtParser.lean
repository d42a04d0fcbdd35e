import Libtvnet.Foundation.Transducer
import Libtvnet.Stdarg

/-!
# `fmt_parser.c`

The parser turns a format of `printf` into a type string.  A character of
type `utf8_t` is the `Char` with the same number.
-/

namespace Libtvnet

open Libtvnet.Foundation

def CString.chars (s : CString) : List Char := s.1.map Char.ofUInt8

def tvnpFmtParseInt (h l : UInt32) (unsigned : Bool) : Char :=
  let size :=
    if h = 2 then 1
    else if h = 1 then 2
    else if l = 1 then 8
    else if l = 2 then 8
    else 4
  match size with
  | 1 => if unsigned then 'B' else 'b'
  | 2 => if unsigned then 'W' else 'w'
  | 4 => if unsigned then 'D' else 'd'
  | _ => if unsigned then 'Q' else 'q'

def tvnpFmtParseChar (l : UInt32) : Char := if l = 1 then 'W' else 'B'

def tvnpFmtParseFloat (l : UInt32) : Char := if l = 2 then 'G' else 'F'

structure FmtState where
  format : Bool
  h : UInt32
  l : UInt32
  deriving DecidableEq

/-- The body of the loop: the locals behind it, and the letters it writes. -/
def tvnpFmtParseStep (s : FmtState) (c : Char) : FmtState × List Char :=
  let done : FmtState := { s with format := false }
  match s.format with
  | false => ({ format := c = '%', h := 0, l := 0 }, [])
  | true =>
      match c with
      | '%' => (done, [])
      | 's' => (done, ['s'])
      | 'i' => (done, [tvnpFmtParseInt s.h s.l false])
      | 'd' => (done, [tvnpFmtParseInt s.h s.l false])
      | 'o' => (done, [tvnpFmtParseInt s.h s.l false])
      | 'u' => (done, [tvnpFmtParseInt s.h s.l true])
      | 'x' => (done, [tvnpFmtParseInt s.h s.l true])
      | 'X' => (done, [tvnpFmtParseInt s.h s.l true])
      | 'c' => (done, [tvnpFmtParseChar s.l])
      | 'f' => (done, [tvnpFmtParseFloat s.l])
      | 'F' => (done, [tvnpFmtParseFloat s.l])
      | 'e' => (done, [tvnpFmtParseFloat s.l])
      | 'E' => (done, [tvnpFmtParseFloat s.l])
      | 'l' => ({ s with l := s.l + 1 }, [])
      | 'h' => ({ s with h := s.h + 1 }, [])
      | 'j' => ({ s with l := 2 }, [])
      | 't' => ({ s with l := 2 }, [])
      | 'z' => ({ s with l := 2 }, [])
      | 'q' => ({ s with l := 2 }, [])
      | 'L' => ({ s with l := 2 }, [])
      | _ => (s, [])

def fmtParser : Transducer FmtState Char Char := ⟨tvnpFmtParseStep⟩

/-- Outside of a directive; `h` and `l` are set before they are read. -/
def FmtState.start : FmtState := ⟨false, 0, 0⟩

def tvnpFmtParse (fmt : List Char) : List Char × Int := (fmtParser.output .start fmt, 0)

/-! ## The letters -/

def typeLetters : List Char := ['b', 'B', 'w', 'W', 'd', 'D', 'q', 'Q', 'F', 'G', 's']

theorem tvnpFmtParseInt_mem (h l : UInt32) (unsigned : Bool) :
    tvnpFmtParseInt h l unsigned ∈ typeLetters := by
  unfold tvnpFmtParseInt
  cases unsigned <;> split_ifs <;> decide

theorem tvnpFmtParseChar_mem (l : UInt32) : tvnpFmtParseChar l ∈ typeLetters := by
  unfold tvnpFmtParseChar
  split <;> decide

theorem tvnpFmtParseFloat_mem (l : UInt32) : tvnpFmtParseFloat l ∈ typeLetters := by
  unfold tvnpFmtParseFloat
  split <;> decide

theorem tvnpFmtParseStep_mem (s : FmtState) (c : Char) :
    ∀ letter ∈ (tvnpFmtParseStep s c).2, letter ∈ typeLetters := by
  intro letter hletter
  unfold tvnpFmtParseStep at hletter
  split at hletter
  · simp at hletter
  · split at hletter
    all_goals simp only [List.not_mem_nil, List.mem_singleton] at hletter
    all_goals subst hletter
    · decide
    all_goals first
      | exact tvnpFmtParseInt_mem _ _ _
      | exact tvnpFmtParseChar_mem _
      | exact tvnpFmtParseFloat_mem _

theorem tvnpFmtParse_mem {fmt : List Char} {letter : Char} (h : letter ∈ (tvnpFmtParse fmt).1) :
    letter ∈ typeLetters :=
  fmtParser.mem_output tvnpFmtParseStep_mem h

/-- Inside of a directive one more letter is owed. -/
def FmtState.credit (s : FmtState) : Nat := if s.format then 1 else 0

theorem two_mul_length_tvnpFmtParse_le (fmt : List Char) :
    2 * (tvnpFmtParse fmt).1.length ≤ fmt.length := by
  have hstep (s : FmtState) (c : Char) :
      2 * (fmtParser.step s c).2.length + (fmtParser.step s c).1.credit ≤ s.credit + 1 := by
    obtain ⟨format, h, l⟩ := s
    unfold fmtParser tvnpFmtParseStep
    cases format with
    | false =>
        by_cases hc : c = '%' <;> simp [FmtState.credit, hc]
    | true =>
        dsimp only
        split <;> simp [FmtState.credit]
  have hbound := fmtParser.length_output_le FmtState.credit (fun _ => 1) hstep .start fmt
  have hprice : (fmt.map fun _ => 1).sum = fmt.length := by simp
  have hstart : FmtState.start.credit = 0 := rfl
  rw [hprice, hstart] at hbound
  change 2 * (fmtParser.output .start fmt).length ≤ fmt.length
  omega

end Libtvnet
