import Libtvnet.Stdarg
import Libtvnet.TokenCodec

/-!
# `pickle_stdarg_decoder.c`

The caller passes one pointer for each letter of the type string.  What is
stored through these pointers is listed in the order of the letters, each
value with the type of the object that its letter stands for.
-/

namespace Libtvnet

open Libtvnet.Foundation

/-- What is stored through a pointer; a string is an index into the buffer. -/
inductive VaOutput where
  | integer (type : IntegerType) (value : Int)
  | float32 (x : Binary32)
  | float64 (x : Binary64)
  | string (data : Nat)

def integerLetter : Char → Option IntegerType
  | 'b' => some .int8
  | 'B' => some .uint8
  | 'w' => some .int16
  | 'W' => some .uint16
  | 'd' => some .int32
  | 'D' => some .uint32
  | 'q' => some .int64
  | 'Q' => some .uint64
  | _ => none

section Decoder

variable (undefined : Binary64 → Int) (indeterminate : TvnpToken)

def TvnpToken.toInteger (type : IntegerType) (token : TvnpToken) : Option Int :=
  match token.type with
  | .tokenInteger => some (type.wrap token.i.toInt)
  | .tokenFloat => some (type.ofBinary undefined token.f)
  | _ => none

def vaStore (c : Char) (token : TvnpToken) : Option VaOutput :=
  match integerLetter c with
  | some type => (token.toInteger undefined type).map (.integer type)
  | none =>
      match c, token.type with
      | 'f', .tokenInteger => some (.float32 (Binary.ofInt token.i.toInt))
      | 'f', .tokenFloat => some (.float32 token.f.convert)
      | 'F', .tokenInteger => some (.float64 (Binary.ofInt token.i.toInt))
      | 'F', .tokenFloat => some (.float64 token.f)
      | 's', .tokenUtf8String => some (.string token.data)
      | _, _ => none

/-- The return value, 0 or -1, what was stored, and the buffer. -/
def tvnpVdecode : List Char → TvuBuffer → Option (Int × List VaOutput × TvuBuffer)
  | [], buffer => some (0, [], buffer)
  | c :: fmt, buffer => do
      let (token, buffer) ← tvnpDecodeToken indeterminate buffer
      match vaStore undefined c token with
      | some output =>
          let (ret, outputs, buffer) ← tvnpVdecode fmt buffer
          some (ret, output :: outputs, buffer)
      | none => some (-1, [], buffer)

end Decoder

/-! ## Letters that can be exchanged -/

/-- A letter of the encoder, and a letter of the decoder whose type holds all of its values. -/
inductive LetterPair : Char → Char → Prop
  | string : LetterPair 's' 's'
  | integer {e d : Char} {encoded decoded : IntegerType} :
      integerLetter e = some encoded → integerLetter d = some decoded →
      (∀ i, encoded.Holds i → decoded.Holds i) → LetterPair e d

def VaArg.value (c : Char) (arg : VaArg) : Option Int := (vaInteger c).bind (· arg)

/-- An argument of the promoted type whose value is one of the letter's own type. -/
def VaArg.InRange (c : Char) (arg : VaArg) : Prop :=
  arg.Matches c ∧ ∀ type x, integerLetter c = some type → arg.value c = some x → type.Holds x

def VaOutput.Agrees (data : List UInt8) (c : Char) (arg : VaArg) : VaOutput → Prop
  | .integer _ value => arg.value c = some value
  | .string p => ∃ s, arg = .string s ∧ cString data p = some s.1
  | _ => False

/-! ## Doubles -/

/-- A letter to read a value with: one that holds it, or `f` or `F` for a double. -/
inductive ValuePair : Char → Char → Prop
  | same {e d : Char} : LetterPair e d → ValuePair e d
  | double {e d : Char} : e = 'f' ∨ e = 'F' → d = 'f' ∨ d = 'F' → ValuePair e d

/-- The double that the receiver builds: an integral one has travelled as an integer. -/
def receivedDouble (undefined : Binary64 → Int) (x : Binary64) : Binary64 :=
  if x.integral then
    Binary.ofInt (Int64.ofInt (IntegerType.int64.ofBinary undefined x)).toInt
  else x

def receivedFloat (undefined : Binary64 → Int) (x : Binary64) : Binary32 :=
  if x.integral then
    Binary.ofInt (Int64.ofInt (IntegerType.int64.ofBinary undefined x)).toInt
  else x.convert

def VaOutput.Received (undefined : Binary64 → Int) (data : List UInt8) (c : Char) (arg : VaArg) :
    VaOutput → Prop
  | .integer _ value => arg.value c = some value
  | .float32 y => ∃ x, arg = .float64 x ∧ y = receivedFloat undefined x
  | .float64 y => ∃ x, arg = .float64 x ∧ y = receivedDouble undefined x
  | .string p => ∃ s, arg = .string s ∧ cString data p = some s.1

theorem LetterPair.not_double {e d : Char} (h : LetterPair e d) : ¬ (e = 'f' ∨ e = 'F') := by
  rintro (rfl | rfl) <;>
    · cases h
      contradiction

theorem VaOutput.Received.agrees {undefined : Binary64 → Int} {data : List UInt8} {e d : Char}
    {arg : VaArg} {output : VaOutput} (h : output.Received undefined data e arg)
    (hpair : LetterPair e d) (harg : arg.Matches e) : output.Agrees data e arg := by
  cases output with
  | integer type value => exact h
  | string p => exact h
  | float32 y =>
      obtain ⟨x, rfl, -⟩ := h
      exact absurd harg hpair.not_double
  | float64 y =>
      obtain ⟨x, rfl, -⟩ := h
      exact absurd harg hpair.not_double

private theorem integerLetter_bits {c : Char} {type : IntegerType}
    (h : integerLetter c = some type) :
    0 < type.bits ∧ type.bits ≤ 64 := by
  unfold integerLetter at h
  split at h
  all_goals
    cases h
    try decide

theorem toInteger_of_denotes (undefined : Binary64 → Int) {type : IntegerType} {x : Int}
    {token : TvnpToken} {data : List UInt8} (hbits : 0 < type.bits) (hword : type.bits ≤ 64)
    (hholds : type.Holds x) (htoken : token.Denotes data (.integer (Int64.ofInt x))) :
    token.toInteger undefined type = some x := by
  obtain ⟨htype, hi⟩ := htoken
  have hwrap : type.wrap token.i.toInt = x := by
    rw [hi, Int64.toInt_ofInt]
    exact (IntegerType.wrap_bmod x hword).trans (IntegerType.wrap_of_holds hbits hholds)
  simp only [TvnpToken.toInteger, htype, hwrap]

/-! ## The round trip -/

section RoundTrip

variable {undefined : Binary64 → Int} (indeterminate : TvnpToken)

theorem VaArg.Matches.token_valid {c : Char} {arg : VaArg} (h : arg.Matches c) :
    (arg.token undefined c).Valid := by
  cases h.vaCase undefined with
  | integer _ _ htoken =>
      rw [htoken]
      trivial
  | float64 _ harg =>
      subst harg
      exact Token.ofDouble_valid _ _
  | float80 _ harg =>
      subst harg
      exact Token.ofDouble_valid _ _
  | string _ harg hlength =>
      subst harg
      exact hlength

private theorem vaStore_same {e d : Char} {arg : VaArg} {token : TvnpToken} {data : List UInt8}
    (hpair : LetterPair e d) (harg : arg.InRange e)
    (htoken : token.Denotes data (arg.token undefined e)) :
    ∃ output, vaStore undefined d token = some output ∧ output.Received undefined data e arg := by
  have hcase := harg.1.vaCase undefined
  cases hpair with
  | string =>
      cases hcase with
      | integer hget => contradiction
      | float64 hc => simp at hc
      | float80 hc => simp at hc
      | @string s _ hs _ =>
          subst hs
          obtain ⟨htype, -, hdata⟩ := htoken
          exact ⟨.string token.data, by simp [vaStore, integerLetter, htype],
            s, rfl, cString_of_prefix hdata⟩
  | @integer _ _ encoded decoded he hd hincludes =>
      cases hcase with
      | @integer get x hget hx hx' =>
          have hvalue : arg.value e = some x := by rw [VaArg.value, hget, Option.bind_some, hx]
          have hholds := hincludes x (harg.2 encoded x he hvalue)
          have hbits := integerLetter_bits hd
          rw [hx'] at htoken
          have hinteger := toInteger_of_denotes undefined hbits.1 hbits.2 hholds htoken
          refine ⟨.integer decoded x, ?_, hvalue⟩
          simp only [vaStore, hd, hinteger, Option.map_some]
      | float64 hc =>
          rcases hc with rfl | rfl <;> contradiction
      | float80 hc =>
          subst hc
          contradiction
      | string hc =>
          subst hc
          contradiction

private theorem vaStore_double {e d : Char} {x : Binary64} {token : TvnpToken} {data : List UInt8}
    (hd : d = 'f' ∨ d = 'F') (htoken : token.Denotes data (Token.ofDouble undefined x)) :
    ∃ output, vaStore undefined d token = some output ∧
      output.Received undefined data e (.float64 x) := by
  have hstore : vaStore undefined 'f' token = some (.float32 (receivedFloat undefined x)) ∧
      vaStore undefined 'F' token = some (.float64 (receivedDouble undefined x)) := by
    unfold receivedFloat receivedDouble
    rcases token.cases_of_denotes_ofDouble htoken with
      ⟨hintegral, htype, hi⟩ | ⟨hintegral, htype, hf⟩
    · simp [vaStore, integerLetter, htype, hi, hintegral]
    · simp [vaStore, integerLetter, htype, hf, hintegral]
  rcases hd with rfl | rfl
  · exact ⟨_, hstore.1, x, rfl, rfl⟩
  · exact ⟨_, hstore.2, x, rfl, rfl⟩

theorem vaStore_token {e d : Char} {arg : VaArg} {token : TvnpToken} {data : List UInt8}
    (hpair : ValuePair e d) (harg : arg.InRange e)
    (htoken : token.Denotes data (arg.token undefined e)) :
    ∃ output, vaStore undefined d token = some output ∧ output.Received undefined data e arg := by
  cases hpair with
  | same hpair => exact vaStore_same hpair harg htoken
  | double he hd =>
      cases harg.1.vaCase undefined with
      | integer hget => rcases he with rfl | rfl <;> contradiction
      | float64 _ hx =>
          subst hx
          exact vaStore_double hd htoken
      | float80 hc => rcases he with rfl | rfl <;> contradiction
      | string hc => rcases he with rfl | rfl <;> contradiction

theorem tvnpVdecode_wire {e d : List Char} {args : List VaArg} {b : TvuBuffer}
    {suffix : List UInt8} (hpairs : List.Forall₂ ValuePair e d)
    (hargs : List.Forall₂ VaArg.InRange e args)
    (h : b.rest = wire (vaTokens undefined e args) ++ suffix) :
    ∃ outputs, tvnpVdecode undefined indeterminate d b =
        some (0, outputs, b.skip (wire (vaTokens undefined e args)).length) ∧
      List.Forall₂ (fun (c, arg) output => output.Received undefined b.data c arg) (e.zip args)
        outputs := by
  induction hpairs generalizing args b with
  | nil =>
      cases hargs
      exact ⟨[], by simp [tvnpVdecode, vaTokens], .nil⟩
  | @cons c c' e d hpair _ ih =>
      cases hargs with
      | @cons _ arg _ args harg hargs =>
          rw [vaTokens_cons, wire_cons, List.append_assoc] at h
          obtain ⟨token, htoken, hdenotes⟩ :=
            tvnpDecodeToken_bytes indeterminate harg.1.token_valid h
          obtain ⟨output, hstore, hagrees⟩ := vaStore_token hpair harg hdenotes
          obtain ⟨outputs, hrun, hall⟩ := ih hargs (TvuBuffer.rest_skip h)
          refine ⟨output :: outputs, ?_, .cons hagrees hall⟩
          rw [tvnpVdecode, htoken]
          simp only [Option.bind_eq_bind, Option.bind_some, hstore, hrun, TvuBuffer.skip_skip,
            vaTokens_cons, wire_cons, List.length_append]

private theorem forall₂_agrees {e d : List Char} {args : List VaArg} {data : List UInt8}
    {outputs : List VaOutput} (hpairs : List.Forall₂ LetterPair e d)
    (hargs : List.Forall₂ VaArg.InRange e args)
    (h : List.Forall₂ (fun (c, arg) output => output.Received undefined data c arg)
      (e.zip args) outputs) :
    List.Forall₂ (fun (c, arg) output => output.Agrees data c arg) (e.zip args) outputs := by
  induction hpairs generalizing args outputs with
  | nil => cases h; exact .nil
  | cons hpair _ ih =>
      cases hargs with
      | cons harg hargs =>
          rw [List.zip_cons_cons] at h ⊢
          cases h with
          | cons hreceived hrest => exact .cons (hreceived.agrees hpair harg.1) (ih hargs hrest)

theorem tvnpVdecode_wire_agrees {e d : List Char} {args : List VaArg} {b : TvuBuffer}
    {suffix : List UInt8} (hpairs : List.Forall₂ LetterPair e d)
    (hargs : List.Forall₂ VaArg.InRange e args)
    (h : b.rest = wire (vaTokens undefined e args) ++ suffix) :
    ∃ outputs, tvnpVdecode undefined indeterminate d b =
        some (0, outputs, b.skip (wire (vaTokens undefined e args)).length) ∧
      List.Forall₂ (fun (c, arg) output => output.Agrees b.data c arg) (e.zip args) outputs := by
  obtain ⟨outputs, hrun, hreceived⟩ :=
    tvnpVdecode_wire indeterminate (hpairs.imp fun _ _ => .same) hargs h
  exact ⟨outputs, hrun, forall₂_agrees hpairs hargs hreceived⟩

theorem ValuePair.not_longDouble {e d : List Char} (h : List.Forall₂ ValuePair e d) :
    'G' ∉ e := by
  induction h with
  | nil => simp
  | @cons c _ _ _ hpair _ ih =>
      have hc : 'G' ≠ c := by
        rintro rfl
        cases hpair with
        | same hpair =>
            cases hpair
            contradiction
        | double he => simp at he
      simp [hc, ih]

/--
What was encoded with one type string is decoded with another one, with
anything behind it, to the same numbers and strings.
-/
theorem tvnpVdecode_tvnpVencode {e d : List Char} {args : List VaArg} {b : TvuBuffer}
    (hpairs : List.Forall₂ LetterPair e d) (hargs : List.Forall₂ VaArg.InRange e args)
    (hroom : b.offset + (wire (vaTokens undefined e args)).length ≤ b.size) :
    ∃ c, tvnpVencode undefined b e args = some (0, c) ∧
      ∀ received : TvuBuffer, received.offset = b.offset →
        received.data.take c.offset = c.data.take c.offset →
        ∃ outputs final, tvnpVdecode undefined indeterminate d received =
            some (0, outputs, final) ∧
          List.Forall₂ (fun (c, arg) output => output.Agrees received.data c arg)
            (e.zip args) outputs ∧
          final.offset = c.offset := by
  obtain ⟨c, hc, hoffset, -⟩ := TvuBuffer.append_eq_some hroom
  have hmatch : Matching e args := hargs.imp fun _ _ harg => harg.1
  refine ⟨c, ?_, ?_⟩
  · rw [tvnpVencode_eq b hmatch (ValuePair.not_longDouble (hpairs.imp fun _ _ => .same)), hc,
      Option.map_some]
  · intro received hstart hdata
    have hrest := TvuBuffer.rest_of_append hc hstart hdata
    obtain ⟨outputs, hrun, hall⟩ :=
      tvnpVdecode_wire_agrees indeterminate hpairs hargs hrest
    refine ⟨outputs, _, hrun, hall, ?_⟩
    have hlength := congrArg List.length hrest
    rw [TvuBuffer.length_rest, List.length_append, List.length_drop] at hlength
    have hsize : received.size = received.data.length := rfl
    by_cases hempty : (wire (vaTokens undefined e args)).length = 0
    · rw [hempty, TvuBuffer.skip_zero, hoffset, hempty, hstart, Nat.add_zero]
    · rw [TvuBuffer.offset_skip_of_le (by omega), hoffset, hstart]

end RoundTrip

def byteAndString : List VaArg := [.gp32 200, .string ⟨[0x41], nul_notMem_letter⟩]

private theorem letterPair_byte : LetterPair 'B' 'q' := by
  refine .integer rfl rfl fun i hi => ?_
  have hbyte := IntegerType.holds_unsigned.mp hi
  exact IntegerType.holds_signed.mpr (by omega)

theorem tvnpVdecode_byteAndString :
    ∃ c, tvnpVencode (fun _ => 0) ⟨List.replicate 9 0xff, 0, by decide, by decide⟩ ['B', 's']
        byteAndString = some (0, c) ∧
      ∀ received : TvuBuffer, received.offset = 0 →
        received.data.take c.offset = c.data.take c.offset →
        ∃ outputs final, tvnpVdecode (fun _ => 0) .zeroFilled ['q', 's'] received =
            some (0, outputs, final) ∧
          List.Forall₂ (fun (c, arg) output => output.Agrees received.data c arg)
            (List.zip ['B', 's'] byteAndString) outputs ∧
          final.offset = c.offset := by
  refine tvnpVdecode_tvnpVencode .zeroFilled (.cons letterPair_byte (.cons .string .nil))
    (.cons ⟨?_, ?_⟩ (.cons ⟨?_, ?_⟩ .nil)) ?_
  · exact .inr (.inl rfl)
  · intro type x htype hx
    cases htype
    cases hx
    decide
  · exact ⟨rfl, by decide⟩
  · intro type x htype
    contradiction
  · decide

def oneHalf : Binary64 := ⟨false, 0x3fe0000000000000, by decide⟩

def mixedArgs : List VaArg := [.gp32 200, .float64 oneHalf, .string ⟨[0x41], nul_notMem_letter⟩]

theorem valuePairs_mixed : List.Forall₂ ValuePair ['B', 'F', 's'] ['q', 'f', 's'] :=
  .cons (.same letterPair_byte)
    (.cons (.double (.inr rfl) (.inl rfl)) (.cons (.same .string) .nil))

theorem mixedArgs_inRange : List.Forall₂ VaArg.InRange ['B', 'F', 's'] mixedArgs := by
  refine .cons ⟨.inr (.inl rfl), fun type x htype hx => ?_⟩
    (.cons ⟨.inr rfl, fun type x htype => ?_⟩
      (.cons ⟨⟨rfl, by decide⟩, fun type x htype => ?_⟩ .nil))
  · cases htype
    cases hx
    decide
  · cases htype
  · cases htype

end Libtvnet
