import Libtvnet.PicklePrint

/-!
# The formats of `printf`

The formats of C99, and the arguments that `vprintf` takes for each of them.
An argument has the class in which it is passed: `char` and `short` are
promoted to `int`, and `long`, `long long`, `intmax_t`, `size_t` and
`ptrdiff_t` all have 64 bits.
-/

namespace Libtvnet

open Libtvnet.Foundation

inductive ArgClass where
  | int32
  | int64
  | double
  | longDouble
  | charPointer
  | otherPointer
  deriving DecidableEq, Repr

/-! ## Syntax -/

inductive Flag where
  | minus
  | plus
  | space
  | number
  | zero
  deriving DecidableEq, Repr

def Flag.char : Flag → Char
  | minus => '-'
  | plus => '+'
  | space => ' '
  | number => '#'
  | zero => '0'

inductive Amount where
  | digits (ds : List (Fin 10))
  | star
  deriving DecidableEq, Repr

def Amount.chars : Amount → List Char
  | digits ds => ds.map fun d : Fin 10 => Nat.digitChar d.val
  | star => ['*']

inductive Modifier where
  | none
  | hh
  | h
  | l
  | ll
  | j
  | z
  | t
  | L
  deriving DecidableEq, Repr

def Modifier.chars : Modifier → List Char
  | none => []
  | hh => ['h', 'h']
  | h => ['h']
  | l => ['l']
  | ll => ['l', 'l']
  | j => ['j']
  | z => ['z']
  | t => ['t']
  | L => ['L']

inductive Conversion where
  | d
  | i
  | o
  | u
  | x
  | X
  | c
  | s
  | f
  | F
  | e
  | E
  | g
  | G
  | a
  | A
  | p
  | n
  deriving DecidableEq, Repr

def Conversion.char : Conversion → Char
  | d => 'd'
  | i => 'i'
  | o => 'o'
  | u => 'u'
  | x => 'x'
  | X => 'X'
  | c => 'c'
  | s => 's'
  | f => 'f'
  | F => 'F'
  | e => 'e'
  | E => 'E'
  | g => 'g'
  | G => 'G'
  | a => 'a'
  | A => 'A'
  | p => 'p'
  | n => 'n'

structure Directive where
  flags : List Flag
  width : Option Amount
  precision : Option (Option Amount)
  modifier : Modifier
  conversion : Conversion
  deriving DecidableEq, Repr

/-- What stands between the percent sign and the modifier. -/
def Directive.amounts (d : Directive) : List Char :=
  d.flags.map Flag.char ++ d.width.elim [] Amount.chars ++
    d.precision.elim [] fun precision => '.' :: precision.elim [] Amount.chars

def Directive.chars (d : Directive) : List Char :=
  '%' :: d.amounts ++ d.modifier.chars ++ [d.conversion.char]

abbrev Text := { chars : List Char // '%' ∉ chars ∧ Char.ofNat 0 ∉ chars }

inductive Segment where
  | text (t : Text)
  | escape
  | directive (d : Directive)

def Segment.chars : Segment → List Char
  | text t => t.1
  | escape => ['%', '%']
  | directive d => d.chars

def format (segments : List Segment) : List Char := segments.flatMap Segment.chars

theorem format_cons (segment : Segment) (segments : List Segment) :
    format (segment :: segments) = segment.chars ++ format segments :=
  rfl

/-! ## Arguments -/

/-- The class of the converted argument; the pairs that C99 leaves undefined have none. -/
def argClass (modifier : Modifier) (conversion : Conversion) : Option ArgClass :=
  match conversion with
  | .d | .i | .o | .u | .x | .X =>
      match modifier with
      | .none | .hh | .h => some .int32
      | .l | .ll | .j | .z | .t => some .int64
      | .L => none
  | .c =>
      match modifier with
      | .none | .l => some .int32
      | _ => none
  | .s =>
      match modifier with
      | .none => some .charPointer
      | .l => some .otherPointer
      | _ => none
  | .f | .F | .e | .E | .g | .G | .a | .A =>
      match modifier with
      | .none | .l => some .double
      | .L => some .longDouble
      | _ => none
  | .p =>
      match modifier with
      | .none => some .otherPointer
      | _ => none
  | .n =>
      match modifier with
      | .L => none
      | _ => some .otherPointer

def Directive.stars (d : Directive) : List ArgClass :=
  (if d.width = some .star then [.int32] else []) ++
    if d.precision = some (some .star) then [.int32] else []

/-- The arguments that `vprintf` takes, or `none` where its behaviour is undefined. -/
def vprintfArgs : List Segment → Option (List ArgClass)
  | [] => some []
  | .directive d :: segments => do
      let converted ← argClass d.modifier d.conversion
      let rest ← vprintfArgs segments
      some (d.stars ++ converted :: rest)
  | _ :: segments => vprintfArgs segments

/-! ## What the parser promises -/

/-- The class of the promoted argument, which 8, 16 and 32 bit letters share. -/
def letterClass : Char → Option ArgClass
  | 'b' | 'B' | 'w' | 'W' | 'd' | 'D' => some .int32
  | 'q' | 'Q' => some .int64
  | 'f' | 'F' => some .double
  | 'G' => some .longDouble
  | 's' => some .charPointer
  | _ => none

def VaSlot.argClass : VaSlot → ArgClass
  | gp type _ => if type.bits = 64 then .int64 else .int32
  | float64 _ => .double
  | float80 _ => .longDouble
  | data _ | null => .charPointer

def ListsArgs (types : List Char) (segments : List Segment) : Prop :=
  ∃ classes, vprintfArgs segments = some classes ∧
    types.map letterClass = classes.map some

/--
A format is parsed to the arguments that `vprintf` takes for it or it is
rejected, and what is built from a received format has these arguments.
-/
structure FormatSound (segments : List Segment) : Prop where
  parsed : ((tvnpFmtParse (format segments)).2 = 0 ∧
      ListsArgs (tvnpFmtParse (format segments)).1 segments) ∨
    (tvnpFmtParse (format segments)).2 = -1
  received : ∀ undefined indeterminate buffer final p fmt ap,
    buffer.offset ≤ buffer.size →
    tvnpPickleToVa undefined indeterminate buffer = some (some (p, ap), final) →
    cString buffer.data p = some fmt → fmt.map Char.ofUInt8 = format segments →
    ∃ classes, vprintfArgs segments = some classes ∧ classes <+: ap.map VaSlot.argClass

/-! ## Formats that the parser understands -/

def parserConversions : List Char := ['s', 'i', 'd', 'o', 'u', 'x', 'X', 'c', 'f', 'F', 'e', 'E']

def floatConversions : List Char := ['f', 'F', 'e', 'E']

def longModifiers : List Char := ['j', 't', 'z', 'q', 'L']

def countLength (l : UInt32) (c : Char) : UInt32 :=
  if c = 'l' then l + 1 else if c ∈ longModifiers then 2 else l

def Modifier.length (modifier : Modifier) : UInt32 := modifier.chars.foldl countLength 0

def findConversion (l : UInt32) : List Char → UInt32 × Option Char
  | [] => (l, none)
  | c :: text =>
      if c ∈ parserConversions then (l, some c) else findConversion (countLength l c) text

/--
The text in front of the next directive has a conversion of the parser, and
the first one is that of a `double` or of a `long double`.
-/
def Rescued (long : Prop) : UInt32 → List Segment → Prop
  | _, [] => False
  | _, .directive _ :: _ => False
  | _, .escape :: segments => Rescued long 0 segments
  | l, .text t :: segments =>
      match findConversion l t.1 with
      | (l, none) => Rescued long l segments
      | (l, some c) => c ∈ floatConversions ∧ (l = 2 ↔ long)

def Directive.Known (d : Directive) : Prop :=
  match d.conversion with
  | .d | .i | .o | .u | .x | .X => d.modifier ≠ .L
  | .c => d.modifier = .none ∨ d.modifier = .l
  | .s => d.modifier = .none
  | .f | .F | .e | .E => d.modifier = .none ∨ d.modifier = .l ∨ d.modifier = .L
  | _ => False

def Directive.UnknownFloat (d : Directive) : Prop :=
  (d.conversion = .g ∨ d.conversion = .G ∨ d.conversion = .a ∨ d.conversion = .A) ∧
    (d.modifier = .none ∨ d.modifier = .l ∨ d.modifier = .L)

def Directive.Served (d : Directive) (following : List Segment) : Prop :=
  d.Known ∨ (d.UnknownFloat ∧ Rescued (d.modifier = .L) d.modifier.length following)

/--
No directive has a star, and each of them is known or is a `g`, `G`, `a` or
`A` that the text behind it makes up for.
-/
def Listable : List Segment → Prop
  | [] => True
  | .directive d :: segments => d.stars = [] ∧ d.Served segments ∧ Listable segments
  | _ :: segments => Listable segments

end Libtvnet
