import Libtvnet.FormatSound

/-!
# The formats that the parser supports

On the conversions that the parser has a case for it is complete, with every
modifier, and nothing of a directive is left behind for the next one.  The
modifiers are those of the parser, which are one more than those of C99.
-/

namespace Libtvnet.Supported

open Libtvnet.Foundation

/-! ## Syntax -/

inductive Modifier where
  | none
  | hh
  | h
  | l
  | ll
  | j
  | t
  | z
  | q
  | L
  deriving DecidableEq, Repr

def Modifier.chars : Modifier → List Char
  | none => []
  | hh => ['h', 'h']
  | h => ['h']
  | l => ['l']
  | ll => ['l', 'l']
  | j => ['j']
  | t => ['t']
  | z => ['z']
  | q => ['q']
  | L => ['L']

inductive Conversion where
  | d
  | i
  | o
  | u
  | x
  | X
  | c
  | s
  | f
  | F
  | e
  | E
  deriving DecidableEq, Repr

def Conversion.char : Conversion → Char
  | d => 'd'
  | i => 'i'
  | o => 'o'
  | u => 'u'
  | x => 'x'
  | X => 'X'
  | c => 'c'
  | s => 's'
  | f => 'f'
  | F => 'F'
  | e => 'e'
  | E => 'E'

structure Directive where
  flags : List Flag
  width : List (Fin 10)
  precision : Option (List (Fin 10))
  modifier : Modifier
  conversion : Conversion
  deriving DecidableEq, Repr

def Directive.amounts (d : Directive) : List Char :=
  d.flags.map Flag.char ++ (Amount.digits d.width).chars ++
    d.precision.elim [] fun precision => '.' :: (Amount.digits precision).chars

def Directive.chars (d : Directive) : List Char :=
  '%' :: d.amounts ++ d.modifier.chars ++ [d.conversion.char]

inductive Segment where
  | text (t : Text)
  | escape
  | directive (d : Directive)

def Segment.chars : Segment → List Char
  | text t => t.1
  | escape => ['%', '%']
  | directive d => d.chars

def format (segments : List Segment) : List Char := segments.flatMap Segment.chars

/-! ## Letters, where a `long` has 64 bits -/

def Modifier.signedLetter : Modifier → Char
  | none => 'd'
  | hh => 'b'
  | h => 'w'
  | l | ll | j | t | z | q | L => 'q'

def Modifier.unsignedLetter : Modifier → Char
  | none => 'D'
  | hh => 'B'
  | h => 'W'
  | l | ll | j | t | z | q | L => 'Q'

def Modifier.charLetter : Modifier → Char
  | l => 'W'
  | none | hh | h | ll | j | t | z | q | L => 'B'

def Modifier.floatLetter : Modifier → Char
  | none | hh | h | l => 'F'
  | ll | j | t | z | q | L => 'G'

def Directive.letter (d : Directive) : Char :=
  match d.conversion with
  | .d | .i | .o => d.modifier.signedLetter
  | .u | .x | .X => d.modifier.unsignedLetter
  | .c => d.modifier.charLetter
  | .f | .F | .e | .E => d.modifier.floatLetter
  | .s => 's'

def Segment.letters : Segment → List Char
  | text _ => []
  | escape => []
  | directive d => [d.letter]

def letters (segments : List Segment) : List Char := segments.flatMap Segment.letters

/-! ## One directive -/

theorem Directive.amounts_neutral (d : Directive) : ∀ c ∈ d.amounts, c ∈ neutralCharacters := by
  intro c hc
  simp only [Directive.amounts, List.mem_append] at hc
  rcases hc with (hflag | hwidth) | hprecision
  · exact Flag.neutral _ c hflag
  · exact Amount.neutral _ c hwidth
  · cases hd : d.precision with
    | none => simp [hd] at hprecision
    | some precision =>
        rw [hd, Option.elim_some, List.mem_cons] at hprecision
        cases hprecision with
        | inl hpoint =>
            rw [hpoint]
            decide
        | inr hdigit => exact Amount.neutral _ c hdigit

def Modifier.shorts : Modifier → UInt32
  | hh => 2
  | h => 1
  | none | l | ll | j | t | z | q | L => 0

def Modifier.longs : Modifier → UInt32
  | none | hh | h => 0
  | l => 1
  | ll | j | t | z | q | L => 2

private theorem written_waiting_modifier (modifier : Modifier) (cs : List Char) :
    written (.waiting 0 0) (modifier.chars ++ cs) =
      written (.waiting modifier.shorts modifier.longs) cs := by
  cases modifier <;> rfl

private theorem step_directive (d : Directive) :
    fmtParser.step (.waiting d.modifier.shorts d.modifier.longs) d.conversion.char =
      (⟨false, d.modifier.shorts, d.modifier.longs⟩, [d.letter]) := by
  obtain ⟨flags, width, precision, modifier, conversion⟩ := d
  cases conversion
  case s => rfl
  all_goals cases modifier <;> rfl

theorem written_start_directive (d : Directive) (cs : List Char) :
    written .start (d.chars ++ cs) = d.letter :: written .start cs := by
  have hchars : d.chars ++ cs =
      '%' :: (d.amounts ++ (d.modifier.chars ++ d.conversion.char :: cs)) := by
    simp [Directive.chars]
  calc written .start (d.chars ++ cs)
      = written (.waiting 0 0) (d.amounts ++ (d.modifier.chars ++ d.conversion.char :: cs)) := by
        rw [hchars]
        rfl
    _ = written (.waiting 0 0) (d.modifier.chars ++ d.conversion.char :: cs) :=
        written_waiting_neutral d.amounts_neutral _
    _ = written (.waiting d.modifier.shorts d.modifier.longs) (d.conversion.char :: cs) :=
        written_waiting_modifier d.modifier _
    _ = d.letter :: written ⟨false, d.modifier.shorts, d.modifier.longs⟩ cs := by
        rw [written, fmtParser.output_cons, step_directive, List.singleton_append]
    _ = d.letter :: written .start cs := by rw [written_idle rfl]

/-! ## Every format -/

private theorem written_start_segment (segment : Segment) (cs : List Char) :
    written .start (segment.chars ++ cs) = segment.letters ++ written .start cs := by
  cases segment with
  | text t => exact written_start_text t.2.1 cs
  | escape => exact written_start_escape cs
  | directive d => exact written_start_directive d cs

private theorem written_start_format (segments : List Segment) (cs : List Char) :
    written .start (format segments ++ cs) = letters segments ++ written .start cs := by
  induction segments with
  | nil => rfl
  | cons segment segments ih =>
      rw [format, List.flatMap_cons, List.append_assoc, written_start_segment, ← format, ih,
        letters, letters, List.flatMap_cons, List.append_assoc]

/--
A supported format is parsed to its letters, also where the counters are
indeterminate at the start, and what stands behind it is parsed as if it stood
alone.
-/
theorem tvnpFmtParse_format (segments : List Segment) :
    tvnpFmtParse (format segments) = (letters segments, 0) ∧
      ∀ h l cs, fmtParser.output ⟨false, h, l⟩ (format segments ++ cs) =
        letters segments ++ fmtParser.output .start cs := by
  constructor
  · have hletters : fmtParser.output .start (format segments) = letters segments := by
      simpa using written_start_format segments []
    rw [tvnpFmtParse, hletters]
  · intro h l cs
    exact (written_idle rfl _).trans (written_start_format segments cs)

example : tvnpFmtParse "%hhd%d %-08.3llx%%li%s%Lf".toList = ("bdQsG".toList, 0) := by decide

end Libtvnet.Supported
