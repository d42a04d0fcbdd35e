import Libtvnet.PickleLength
import Libtvnet.PickleEncoder

/-!
# `pickle_stdarg_encoder.c`

A type string names the arguments by letters.  An argument list is what the
caller has passed, each argument with the bits of its promoted type; an
argument that is read as another type than it was passed as, or that is not
there, has no defined value (`none`).
-/

namespace Libtvnet

open Libtvnet.Foundation

abbrev CString := { s : List UInt8 // 0 ∉ s }

theorem nul_notMem_letter : (0 : UInt8) ∉ [0x41] := by decide

/-- The C string at index `p`, if its NUL is one of the bytes. -/
def cString (data : List UInt8) (p : Nat) : Option (List UInt8) :=
  if 0 ∈ data.drop p then some ((data.drop p).takeWhile (· != 0)) else none

theorem cString_of_prefix {data : List UInt8} {p : Nat} {s : CString}
    (h : s.1 ++ [0] <+: data.drop p) : cString data p = some s.1 := by
  obtain ⟨suffix, hsuffix⟩ := h
  have hbytes : ∀ c ∈ s.1, (c != 0) = true := by
    intro c hc
    rw [bne_iff_ne]
    rintro rfl
    exact s.2 hc
  rw [cString, ← hsuffix, if_pos (by simp), List.append_assoc, List.takeWhile_append_of_pos hbytes]
  simp

/-- A variable argument: an `int`, a `long`, a `double`, a `long double` or a string. -/
inductive VaArg where
  | gp32 (bits : BitVec 32)
  | gp64 (bits : BitVec 64)
  | float64 (x : Binary64)
  | float80 (x : Binary80)
  | string (s : CString)

/-! ## Reading the arguments -/

def VaArg.int32 : VaArg → Option Int
  | .gp32 bits => some bits.toInt
  | _ => none

def VaArg.uint32 : VaArg → Option Int
  | .gp32 bits => some bits.toNat
  | _ => none

def VaArg.int64 : VaArg → Option Int
  | .gp64 bits => some bits.toInt
  | _ => none

def VaArg.uint64 : VaArg → Option Int
  | .gp64 bits => some bits.toNat
  | _ => none

def VaArg.float64? : VaArg → Option Binary64
  | .float64 x => some x
  | _ => none

def VaArg.float80? : VaArg → Option Binary80
  | .float80 x => some x
  | _ => none

def VaArg.string? : VaArg → Option CString
  | .string s => some s
  | _ => none

def vaArg {α : Type} (get : VaArg → Option α) : List VaArg → Option (α × List VaArg)
  | [] => none
  | arg :: ap => (get arg).map fun x => (x, ap)

/-- The integer cases, which `tvnp_vlength` and `tvnp_vencode` have alike. -/
def vaInteger : Char → Option (VaArg → Option Int)
  | 'b' => some VaArg.int32
  | 'B' => some VaArg.uint32
  | 'w' => some VaArg.int32
  | 'W' => some VaArg.uint32
  | 'd' => some VaArg.int32
  | 'D' => some VaArg.uint32
  | 'q' => some VaArg.int64
  | 'Q' => some VaArg.uint64
  | _ => none

/-! ## The two passes -/

section Passes

variable (undefined : Binary64 → Int)

/-- The loop of `tvnp_vlength`; a `size_t` is added to the `ssize_t` modulo `2 ^ 64`. -/
def tvnpVlengthLoop : List Char → List VaArg → Int64 → Option Int64
  | [], _, size => some size
  | c :: fmt, ap, size =>
      match vaInteger c with
      | some get => do
          let (x, ap) ← vaArg get ap
          tvnpVlengthLoop fmt ap (size + Int64.ofNat (tvnpLengthInteger (Int64.ofInt x)))
      | none =>
          match c with
          | 'f' | 'F' => do
              let (x, ap) ← vaArg VaArg.float64? ap
              tvnpVlengthLoop fmt ap (size + Int64.ofNat (tvnpLengthFloat undefined x))
          | 'G' => do
              let (x, ap) ← vaArg VaArg.float80? ap
              tvnpVlengthLoop fmt ap
                (size + Int64.ofNat (tvnpLengthFloat undefined x.convert))
          | 's' => do
              let (s, ap) ← vaArg VaArg.string? ap
              tvnpVlengthLoop fmt ap (size + Int64.ofNat (tvnpLengthUtf8String s.1.length))
          | _ => some (-1)

def tvnpVlength (fmt : List Char) (ap : List VaArg) : Option Int64 :=
  tvnpVlengthLoop undefined fmt ap 0

/-- The return value, 0 or -1, and the buffer. -/
def tvnpVencode (buffer : TvuBuffer) : List Char → List VaArg → Option (Int × TvuBuffer)
  | [], _ => some (0, buffer)
  | c :: fmt, ap =>
      match vaInteger c with
      | some get => do
          let (x, ap) ← vaArg get ap
          let buffer ← tvnpEncodeInteger buffer (Int64.ofInt x)
          tvnpVencode buffer fmt ap
      | none =>
          match c with
          | 'f' | 'F' => do
              let (x, ap) ← vaArg VaArg.float64? ap
              let buffer ← tvnpEncodeFloat undefined buffer x
              tvnpVencode buffer fmt ap
          | 's' => do
              let (s, ap) ← vaArg VaArg.string? ap
              let buffer ← tvnpEncodeUtf8String buffer s.1
              tvnpVencode buffer fmt ap
          | _ => some (-1, buffer)

end Passes

/-! ## Matching arguments -/

def VaArg.Matches (c : Char) : VaArg → Prop
  | .gp32 _ => c = 'b' ∨ c = 'B' ∨ c = 'w' ∨ c = 'W' ∨ c = 'd' ∨ c = 'D'
  | .gp64 _ => c = 'q' ∨ c = 'Q'
  | .float64 _ => c = 'f' ∨ c = 'F'
  | .float80 _ => c = 'G'
  | .string s => c = 's' ∧ s.1.length < 2 ^ 32

/-- The arguments are those of the type string, and every string is below `2 ^ 32` bytes. -/
def Matching (types : List Char) (args : List VaArg) : Prop :=
  List.Forall₂ VaArg.Matches types args

section Tokens

variable (undefined : Binary64 → Int)

def VaArg.token (c : Char) : VaArg → Token
  | .gp32 bits =>
      if c = 'b' ∨ c = 'w' ∨ c = 'd' then .integer (Int64.ofInt bits.toInt)
      else .integer (Int64.ofNat bits.toNat)
  | .gp64 bits => .integer (Int64.ofBitVec bits)
  | .float64 x => Token.ofDouble undefined x
  | .float80 x => Token.ofDouble undefined x.convert
  | .string s => .utf8 s.1

def vaTokens (types : List Char) (args : List VaArg) : List Token :=
  List.zipWith (VaArg.token undefined) types args

inductive VaCase (c : Char) (arg : VaArg) : Prop
  | integer {get : VaArg → Option Int} {x : Int} : vaInteger c = some get →
      get arg = some x → arg.token undefined c = .integer (Int64.ofInt x) → VaCase c arg
  | float64 {x : Binary64} : c = 'f' ∨ c = 'F' → arg = .float64 x → VaCase c arg
  | float80 {x : Binary80} : c = 'G' → arg = .float80 x → VaCase c arg
  | string {s : CString} : c = 's' → arg = .string s → s.1.length < 2 ^ 32 → VaCase c arg

@[simp] theorem vaTokens_cons (c : Char) (types : List Char) (arg : VaArg) (args : List VaArg) :
    vaTokens undefined (c :: types) (arg :: args) =
      arg.token undefined c :: vaTokens undefined types args :=
  rfl

theorem VaArg.Matches.vaCase {c : Char} {arg : VaArg} (h : arg.Matches c) :
    VaCase undefined c arg := by
  cases arg with
  | gp32 bits =>
      have hnat : Int64.ofNat bits.toNat = Int64.ofInt bits.toNat := Int64.ofInt_eq_ofNat.symm
      rcases h with rfl | rfl | rfl | rfl | rfl | rfl
      · exact .integer rfl rfl rfl
      · exact .integer rfl rfl (congrArg Token.integer hnat)
      · exact .integer rfl rfl rfl
      · exact .integer rfl rfl (congrArg Token.integer hnat)
      · exact .integer rfl rfl rfl
      · exact .integer rfl rfl (congrArg Token.integer hnat)
  | gp64 bits =>
      have hint : Int64.ofBitVec bits = Int64.ofInt bits.toInt := by simp
      have hnat : Int64.ofBitVec bits = Int64.ofInt bits.toNat := by
        rw [Int64.ofInt_eq_ofNat, ← Int64.ofBitVec_ofNat, BitVec.ofNat_toNat, BitVec.setWidth_eq]
      rcases h with rfl | rfl
      · exact .integer rfl rfl (congrArg Token.integer hint)
      · exact .integer rfl rfl (congrArg Token.integer hnat)
  | float64 x => exact .float64 h rfl
  | float80 x => exact .float80 h rfl
  | string s => exact .string h.1 rfl h.2

/-! ## What the passes compute -/

variable {undefined}

theorem tvnpVlengthLoop_cons {c : Char} {arg : VaArg} (hmatch : arg.Matches c)
    (types : List Char) (args : List VaArg) (size : Int64) :
    tvnpVlengthLoop undefined (c :: types) (arg :: args) size =
      tvnpVlengthLoop undefined types args
        (size + Int64.ofNat (arg.token undefined c).bytes.length) := by
  conv_lhs => unfold tvnpVlengthLoop
  cases hmatch.vaCase undefined with
  | integer hget hx htoken =>
      rw [htoken, ← tvnpLengthInteger_eq]
      simp [hget, vaArg, hx]
  | float64 hc harg =>
      subst harg
      rw [VaArg.token, ← tvnpLengthFloat_eq]
      rcases hc with rfl | rfl <;> rfl
  | float80 hc harg =>
      subst hc harg
      rw [VaArg.token, ← tvnpLengthFloat_eq]
      rfl
  | string hc harg =>
      subst hc harg
      rw [VaArg.token, ← tvnpLengthUtf8String_eq]
      rfl

theorem tvnpVlengthLoop_eq {types : List Char} {args : List VaArg} (h : Matching types args)
    (size : Int64) :
    tvnpVlengthLoop undefined types args size =
      some (size + Int64.ofNat (wire (vaTokens undefined types args)).length) := by
  induction h generalizing size with
  | nil => simp [tvnpVlengthLoop, vaTokens]
  | cons hmatch _ ih =>
      rw [tvnpVlengthLoop_cons hmatch, ih, vaTokens_cons, wire_cons, List.length_append,
        Int64.ofNat_add, Int64.add_assoc]

theorem tvnpVlength_eq {types : List Char} {args : List VaArg} (h : Matching types args) :
    tvnpVlength undefined types args =
      some (Int64.ofNat (wire (vaTokens undefined types args)).length) := by
  rw [tvnpVlength, tvnpVlengthLoop_eq h, Int64.zero_add]

private theorem tvnpVencode_cons {c : Char} {arg : VaArg} (hmatch : arg.Matches c) (hc : c ≠ 'G')
    (types : List Char) (args : List VaArg) (buffer : TvuBuffer) :
    tvnpVencode undefined buffer (c :: types) (arg :: args) =
      (buffer.append (arg.token undefined c).bytes).bind
        (tvnpVencode undefined · types args) := by
  conv_lhs => unfold tvnpVencode
  cases hmatch.vaCase undefined with
  | integer hget hx htoken =>
      rw [htoken, ← tvnpEncodeInteger_eq]
      simp [hget, vaArg, hx]
  | float64 hc harg =>
      subst harg
      rw [VaArg.token, ← tvnpEncodeFloat_eq]
      rcases hc with rfl | rfl <;> rfl
  | float80 hlong => exact absurd hlong hc
  | string hc harg hlength =>
      subst hc harg
      rw [VaArg.token, ← tvnpEncodeUtf8String_eq buffer hlength]
      rfl

theorem tvnpVencode_eq {types : List Char} {args : List VaArg} (buffer : TvuBuffer)
    (h : Matching types args) (hlong : 'G' ∉ types) :
    tvnpVencode undefined buffer types args =
      (buffer.append (wire (vaTokens undefined types args))).map fun c => (0, c) := by
  induction h generalizing buffer with
  | nil => simp [tvnpVencode, vaTokens]
  | cons hmatch _ ih =>
      rw [List.mem_cons, not_or] at hlong
      rw [tvnpVencode_cons hmatch (Ne.symm hlong.1), vaTokens_cons, wire_cons,
        ← TvuBuffer.append_append, Option.map_bind]
      exact Option.bind_congr fun buffer _ => ih buffer hlong.2

theorem tvnpVencode_longDouble {types : List Char} {args : List VaArg} {buffer c : TvuBuffer}
    {ret : Int} (h : Matching types args) (hlong : 'G' ∈ types)
    (hrun : tvnpVencode undefined buffer types args = some (ret, c)) : ret = -1 := by
  induction h generalizing buffer with
  | nil => simp at hlong
  | @cons letter _ types args hmatch _ ih =>
      by_cases hletter : letter = 'G'
      · -- The switch has no case for the letter.
        subst hletter
        have hret : some ((-1 : Int), buffer) = some (ret, c) := hrun
        exact (congrArg Prod.fst (Option.some.inj hret)).symm
      · rw [tvnpVencode_cons hmatch hletter] at hrun
        obtain ⟨next, -, hrest⟩ := Option.bind_eq_some_iff.mp hrun
        exact ih (by simpa [Ne.symm hletter] using hlong) hrest

/-! ## Any arguments -/

/-- As many bytes of a string as the 32-bit length of its token counts. -/
def CString.narrow (s : CString) : CString :=
  ⟨Token.narrowString s.1, fun h => s.2 (List.mem_of_mem_take h)⟩

def VaArg.narrow : VaArg → VaArg
  | .string s => .string s.narrow
  | arg => arg

private theorem vaInteger_narrow {c : Char} {get : VaArg → Option Int} (h : vaInteger c = some get)
    (arg : VaArg) : get arg.narrow = get arg := by
  unfold vaInteger at h
  split at h
  all_goals
    cases h
    try cases arg <;> rfl

private theorem tvnpEncodeUtf8String_narrowString (buffer : TvuBuffer) (string : List UInt8) :
    tvnpEncodeUtf8String buffer (Token.narrowString string) =
      tvnpEncodeUtf8String buffer string := by
  rw [tvnpEncodeUtf8String_eq buffer (Token.length_narrowString_lt string),
    tvnpEncodeUtf8String_narrow]
  rfl

private theorem vaArg_narrow {α : Type} {get : VaArg → Option α} {f : α → α}
    (h : ∀ arg : VaArg, get arg.narrow = (get arg).map f) (args : List VaArg) :
    vaArg get (args.map VaArg.narrow) =
      (vaArg get args).map fun (x, ap) => (f x, ap.map VaArg.narrow) := by
  cases args with
  | nil => rfl
  | cons arg args =>
      simp only [List.map_cons, vaArg, h, Option.map_map]
      rfl

theorem tvnpVencode_narrow (types : List Char) (args : List VaArg) (buffer : TvuBuffer) :
    tvnpVencode undefined buffer types (args.map VaArg.narrow) =
      tvnpVencode undefined buffer types args := by
  induction types generalizing args buffer with
  | nil => rfl
  | cons c types ih =>
      unfold tvnpVencode
      cases hinteger : vaInteger c with
      | some get =>
          have hget : ∀ arg : VaArg, get arg.narrow = (get arg).map id := fun arg => by
            rw [vaInteger_narrow hinteger, Option.map_id, id]
          simp only [vaArg_narrow hget, Option.bind_eq_bind, Option.bind_map, Function.comp_def,
            ih, id]
      | none =>
          have hfloat : ∀ arg : VaArg, arg.narrow.float64? = arg.float64?.map id := fun arg => by
            cases arg <;> rfl
          have hstring : ∀ arg : VaArg, arg.narrow.string? = arg.string?.map CString.narrow :=
            fun arg => by cases arg <;> rfl
          simp only [vaArg_narrow hfloat, vaArg_narrow hstring, Option.bind_eq_bind,
            Option.bind_map, Function.comp_def, ih, id]
          simp only [CString.narrow, tvnpEncodeUtf8String_narrowString]

theorem VaArg.token_narrow (arg : VaArg) (c : Char) :
    arg.narrow.token undefined c = (arg.token undefined c).narrow := by
  cases arg with
  | gp32 bits =>
      simp only [VaArg.narrow, VaArg.token]
      split <;> rfl
  | gp64 bits => rfl
  | float64 x => exact (Token.narrow_ofDouble undefined x).symm
  | float80 x => exact (Token.narrow_ofDouble undefined x.convert).symm
  | string s => rfl

theorem VaArg.matches_of_vaInteger {c : Char} {get : VaArg → Option Int} {arg : VaArg} {x : Int}
    (hget : vaInteger c = some get) (hx : get arg = some x) : arg.Matches c := by
  unfold vaInteger at hget
  split at hget
  all_goals
    cases hget
    try cases arg <;> first | contradiction | simp [VaArg.Matches]

private theorem vaArg_eq_some {α : Type} {get : VaArg → Option α} {args ap : List VaArg} {x : α}
    (h : vaArg get args = some (x, ap)) : ∃ arg, args = arg :: ap ∧ get arg = some x := by
  cases args with
  | nil => contradiction
  | cons arg args =>
      obtain ⟨y, hy, hpair⟩ := Option.map_eq_some_iff.mp h
      cases hpair
      exact ⟨arg, rfl, hy⟩

private theorem tvnpVencode_float_step {letter : Char} {types : List Char} {args : List VaArg}
    {buffer c : TvuBuffer} {ret : Int} (hletter : letter = 'f' ∨ letter = 'F')
    (h : ((vaArg VaArg.float64? args).bind fun (x, ap) =>
      (tvnpEncodeFloat undefined buffer x).bind (tvnpVencode undefined · types ap)) =
        some (ret, c)) :
    ∃ arg ap next, args = arg :: ap ∧ arg.narrow.Matches letter ∧
      buffer.append (arg.token undefined letter).narrow.bytes = some next ∧
      tvnpVencode undefined next types ap = some (ret, c) := by
  obtain ⟨⟨x, ap⟩, hread, h⟩ := Option.bind_eq_some_iff.mp h
  obtain ⟨next, hnext, hrest⟩ := Option.bind_eq_some_iff.mp h
  obtain ⟨arg, rfl, hx⟩ := vaArg_eq_some hread
  cases arg <;> cases hx
  refine ⟨_, ap, next, rfl, hletter, ?_, hrest⟩
  rw [VaArg.token, Token.narrow_ofDouble, ← tvnpEncodeFloat_eq, hnext]

theorem tvnpVencode_step {letter : Char} {types : List Char} {args : List VaArg}
    {buffer c : TvuBuffer} {ret : Int}
    (h : tvnpVencode undefined buffer (letter :: types) args = some (ret, c)) :
    (ret = -1 ∧ c = buffer) ∨ ∃ arg ap next, args = arg :: ap ∧ arg.narrow.Matches letter ∧
      buffer.append (arg.token undefined letter).narrow.bytes = some next ∧
      tvnpVencode undefined next types ap = some (ret, c) := by
  unfold tvnpVencode at h
  cases hinteger : vaInteger letter with
  | some get =>
      simp only [hinteger, Option.bind_eq_bind, Option.bind_eq_some_iff] at h
      obtain ⟨⟨x, ap⟩, hread, next, hnext, hrest⟩ := h
      obtain ⟨arg, rfl, hx⟩ := vaArg_eq_some hread
      have hmatch := VaArg.matches_of_vaInteger hinteger ((vaInteger_narrow hinteger arg).trans hx)
      refine .inr ⟨arg, ap, next, rfl, hmatch, ?_, hrest⟩
      cases hmatch.vaCase undefined with
      | integer hget' hx' htoken =>
          cases hinteger.symm.trans hget'
          cases ((vaInteger_narrow hinteger arg).trans hx).symm.trans hx'
          rw [← VaArg.token_narrow, htoken, ← tvnpEncodeInteger_eq, hnext]
      | float64 hc => rcases hc with rfl | rfl <;> contradiction
      | float80 hc => subst hc; contradiction
      | string hc => subst hc; contradiction
  | none =>
      simp only [hinteger, Option.bind_eq_bind] at h
      split at h
      · exact .inr (tvnpVencode_float_step (.inl rfl) h)
      · exact .inr (tvnpVencode_float_step (.inr rfl) h)
      · obtain ⟨⟨s, ap⟩, hread, h⟩ := Option.bind_eq_some_iff.mp h
        obtain ⟨next, hnext, hrest⟩ := Option.bind_eq_some_iff.mp h
        obtain ⟨arg, rfl, hx⟩ := vaArg_eq_some hread
        cases arg <;> cases hx
        refine .inr ⟨_, ap, next, rfl, ⟨rfl, Token.length_narrowString_lt _⟩, ?_, hrest⟩
        rw [VaArg.token, ← tvnpEncodeUtf8String_narrow, hnext]
      · cases h
        exact .inl ⟨rfl, rfl⟩

theorem exists_append_of_tvnpVencode {types : List Char} {args : List VaArg}
    {buffer c : TvuBuffer} {ret : Int}
    (h : tvnpVencode undefined buffer types args = some (ret, c)) :
    ∃ bytes, buffer.append bytes = some c := by
  induction types generalizing args buffer with
  | nil =>
      cases h
      exact ⟨[], TvuBuffer.append_nil _⟩
  | cons letter types ih =>
      rcases tvnpVencode_step h with ⟨-, rfl⟩ | ⟨arg, ap, next, -, -, hnext, hrest⟩
      · exact ⟨[], TvuBuffer.append_nil _⟩
      · obtain ⟨bytes, hbytes⟩ := ih hrest
        exact ⟨_, by rw [← TvuBuffer.append_append, hnext, Option.bind_some, hbytes]⟩

end Tokens

end Libtvnet
