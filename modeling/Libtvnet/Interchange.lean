import Libtvnet.PythonCalls
import Libtvnet.StdargDecode

/-!
# Messages between C and Python

A C program writes the arguments of a type string with `tvnp_vencode`, a Python
program writes objects with `pytvn_encode`.  For arguments and objects that
stand for each other they write the same bytes, so each reads what the other
has written.
-/

namespace Libtvnet

open Libtvnet.Foundation

variable {Unicode : Type}

inductive SameArg (python : CPython Unicode) : Char → VaArg → PyObject Unicode → Prop
  | integer {c : Char} {arg : VaArg} {type : IntegerType} {x : Int} :
      integerLetter c = some type → arg.value c = some x → type.Holds x →
      IntegerType.int64.Holds x → SameArg python c arg (.int (Int64.ofInt x))
  | double {c : Char} {x : Binary64} :
      c = 'f' ∨ c = 'F' → SameArg python c (.float64 x) (.float x)
  | string {s : CString} {u : Unicode} :
      s.1.length < 2 ^ 32 → python.asUTF8String u = some s.1 → python.decodeUTF8 s.1 = some u →
      SameArg python 's' (.string s) (.unicode u)

inductive SameArgs (python : CPython Unicode) :
    List Char → List VaArg → List (PyObject Unicode) → Prop
  | nil : SameArgs python [] [] []
  | cons {c : Char} {arg : VaArg} {o : PyObject Unicode} {types : List Char}
      {args : List VaArg} {objects : List (PyObject Unicode)} :
      SameArg python c arg o → SameArgs python types args objects →
      SameArgs python (c :: types) (arg :: args) (o :: objects)

section Bytes

variable {python : CPython Unicode} (undefined : Binary64 → Int)

theorem SameArg.matches {c : Char} {arg : VaArg} {o : PyObject Unicode}
    (h : SameArg python c arg o) : arg.Matches c := by
  cases h with
  | integer hletter hvalue =>
      obtain ⟨get, hget, hx⟩ := Option.bind_eq_some_iff.mp hvalue
      exact VaArg.matches_of_vaInteger hget hx
  | double hc => exact hc
  | string hlength hutf8 => exact ⟨rfl, hlength⟩

theorem SameArg.tokens {c : Char} {arg : VaArg} {o : PyObject Unicode}
    (h : SameArg python c arg o) : o.tokens python undefined = some [arg.token undefined c] := by
  cases h with
  | @integer _ _ type x hletter hvalue =>
      obtain ⟨get, hget, hx⟩ := Option.bind_eq_some_iff.mp hvalue
      cases (VaArg.matches_of_vaInteger hget hx).vaCase undefined with
      | integer hget' hx' htoken =>
          obtain rfl := Option.some.inj (hget.symm.trans hget')
          obtain rfl := Option.some.inj (hx.symm.trans hx')
          rw [htoken]
          rfl
      | float64 hc => rcases hc with rfl | rfl <;> cases hget
      | float80 hc =>
          obtain rfl := hc
          cases hget
      | string hc =>
          obtain rfl := hc
          cases hget
  | double hc => rfl
  | string hlength hutf8 =>
      rw [PyObject.tokens, hutf8]
      rfl

theorem SameArg.sized {c : Char} {arg : VaArg} {o : PyObject Unicode}
    (h : SameArg python c arg o) : o.Sized python := by
  cases h with
  | integer => trivial
  | double => trivial
  | @string s u hlength hutf8 =>
      intro bytes hbytes
      obtain rfl := Option.some.inj (hutf8.symm.trans hbytes)
      exact hlength

variable {types : List Char} {args : List VaArg} {objects : List (PyObject Unicode)}

theorem SameArgs.matching (h : SameArgs python types args objects) : Matching types args := by
  induction h with
  | nil => exact .nil
  | cons hsame _ ih => exact .cons hsame.matches ih

theorem SameArgs.tokens (h : SameArgs python types args objects) :
    PyObject.tokensOfItems python undefined objects = some (vaTokens undefined types args) := by
  induction h with
  | nil => rfl
  | cons hsame _ ih => simp [PyObject.tokensOfItems, hsame.tokens undefined, ih]

theorem SameArgs.sized (h : SameArgs python types args objects) :
    PyObject.SizedItems python objects := by
  induction h with
  | nil => trivial
  | cons hsame _ ih => exact ⟨hsame.sized, ih⟩

theorem SameArgs.not_longDouble (h : SameArgs python types args objects) : 'G' ∉ types := by
  induction h with
  | nil => simp
  | @cons c _ _ _ _ _ hsame _ ih =>
      have hc : 'G' ≠ c := by
        rintro rfl
        cases hsame with
        | integer hletter => cases hletter
        | double hc => simp at hc
      simp [hc, ih]

theorem SameArg.inRange {c : Char} {arg : VaArg} {o : PyObject Unicode}
    (h : SameArg python c arg o) : arg.InRange c := by
  refine ⟨h.matches, fun type x hletter hvalue => ?_⟩
  cases h with
  | integer hletter' hvalue' hholds =>
      obtain rfl := Option.some.inj (hletter'.symm.trans hletter)
      obtain rfl := Option.some.inj (hvalue'.symm.trans hvalue)
      exact hholds
  | double hc => rcases hc with rfl | rfl <;> cases hletter
  | string => cases hletter

theorem SameArgs.inRange (h : SameArgs python types args objects) :
    List.Forall₂ VaArg.InRange types args := by
  induction h with
  | nil => exact .nil
  | cons hsame _ ih => exact .cons hsame.inRange ih

/-- An object of Python comes back, but for an integral float, which comes back as an integer. -/
theorem SameArg.decoded {c : Char} {arg : VaArg} {o : PyObject Unicode}
    (h : SameArg python c arg o) (hfloat : ∀ x, arg = .float64 x → x.integral = false) :
    o.decoded python undefined = some o := by
  cases h with
  | integer => rfl
  | @double c x hc => rw [PyObject.decoded, hfloat x rfl, if_neg Bool.false_ne_true]
  | string hlength hutf8 hdecode =>
      rw [PyObject.decoded, hutf8]
      simp only [Option.bind_eq_bind, Option.bind_some, Token.narrowString_of_lt hlength, hdecode]

theorem SameArgs.decoded (h : SameArgs python types args objects)
    (hfloat : ∀ x, .float64 x ∈ args → x.integral = false) :
    PyObject.decodedItems python undefined objects = some objects := by
  induction h with
  | nil => rfl
  | cons hsame _ ih =>
      have hfirst := hsame.decoded undefined fun x hx => hfloat x (hx ▸ List.mem_cons_self)
      have hrest := ih fun x hx => hfloat x (List.mem_cons_of_mem _ hx)
      rw [PyObject.decodedItems, hfirst, hrest]
      rfl

end Bytes

/-! ## One message -/

section Message

variable {python : CPython Unicode} {undefined : Binary64 → Int}
  {types : List Char} {args : List VaArg} {objects : List (PyObject Unicode)}

/--
Into a block of the size that Python has counted, C and Python write the same
bytes.  Python gets its objects from them, and C its arguments, with any letters
that hold their values; a double is read with `f` or `F`.
-/
theorem SameArgs.interchange (h : SameArgs python types args objects) (indeterminate : TvnpToken)
    {block : TvuBuffer} (hoffset : block.offset = 0)
    (hlength : pytvnLengthTuple python undefined objects = some (block.size : Int)) :
    tvnpVlength undefined types args = some (Int64.ofNat block.size) ∧
      ∃ c, tvnpVencode undefined block types args = some (0, c) ∧
        pytvnEncodeTuple python undefined ⟨block, false⟩ objects = some ⟨c, false⟩ ∧
        decodedString python indeterminate c.data =
          (PyObject.decodedItems python undefined objects).map decodeResult ∧
        ((∀ x, .float64 x ∈ args → x.integral = false) →
          decodedString python indeterminate c.data = some (decodeResult objects)) ∧
        ∀ letters, List.Forall₂ ValuePair types letters →
          ∃ outputs, tvnpVdecode undefined indeterminate letters c.rewind = some (0, outputs, c) ∧
            List.Forall₂ (fun (letter, arg) output =>
              output.Received undefined c.data letter arg) (types.zip args) outputs := by
  have hts := h.tokens undefined
  obtain ⟨ts, hts', hwire⟩ := pytvnLengthItems_eq_wire hlength (by omega)
  obtain rfl := Option.some.inj (hts.symm.trans hts')
  have hsize : block.size = (wire (vaTokens undefined types args)).length := by omega
  refine ⟨by rw [tvnpVlength_eq h.matching, hsize], ?_⟩
  obtain ⟨c, hc, hend, hdata⟩ := TvuBuffer.append_eq_some
    (show block.offset + (wire (vaTokens undefined types args)).length ≤ block.size by omega)
  have hencode : pytvnEncodeTuple python undefined ⟨block, false⟩ objects = some ⟨c, false⟩ := by
    rw [pytvnEncodeTuple, pytvnEncodeItems_eq_append _ h.sized hts]
    simp only [EncodeState.append, EncodeState.encode, hc, Option.bind_eq_bind, Option.bind_some]
  have hdecode := decodedString_of_encodedAs indeterminate
    ⟨block, _, hlength, hoffset, hencode, rfl, rfl⟩ h.sized
  have hwhole : c.data = wire (vaTokens undefined types args) := by
    have hdrop : block.data.drop (wire (vaTokens undefined types args)).length = [] :=
      List.drop_eq_nil_of_le hsize.le
    rw [hdata, hoffset, Nat.zero_add, hdrop, List.take_zero, List.nil_append, List.append_nil]
  refine ⟨c, ?_, hencode, hdecode, fun hfloat => ?_, fun letters hletters => ?_⟩
  · rw [tvnpVencode_eq block h.matching h.not_longDouble, hc, Option.map_some]
  · rw [hdecode, h.decoded undefined hfloat, Option.map_some]
  · have hrest : c.rewind.rest = wire (vaTokens undefined types args) ++ [] := by
      rw [List.append_nil]
      exact hwhole
    obtain ⟨outputs, hrun, hagrees⟩ :=
      tvnpVdecode_wire indeterminate hletters h.inRange hrest
    have hfinal : c.rewind.skip (wire (vaTokens undefined types args)).length = c := by
      refine TvuBuffer.ext' rfl ?_
      rw [TvuBuffer.offset_skip_of_le (by rw [← hwhole]; exact (Nat.zero_add _).le), hend, hoffset]
      rfl
    rw [hfinal] at hrun
    exact ⟨outputs, hrun, hagrees⟩

end Message

/-! ## A number, a double and a string -/

def mixedObjects : List (PyObject (List UInt8)) := [.int 200, .float oneHalf, .unicode [0x41]]

private theorem sameArgs_mixed : SameArgs CPython.ofBytes ['B', 'F', 's'] mixedArgs mixedObjects :=
  have hint : SameArg CPython.ofBytes 'B' (.gp32 200) (.int 200) :=
    @SameArg.integer _ _ _ _ .uint8 200 rfl rfl (by decide) (by decide)
  .cons hint (.cons (.double (.inr rfl)) (.cons (.string (by decide) rfl rfl) .nil))

theorem SameArgs.interchange_mixed :
    ∃ c, tvnpVencode (fun _ => 0) ⟨List.replicate 11 0xff, 0, by decide, TvuBuffer.start_lt⟩
        ['B', 'F', 's'] mixedArgs = some (0, c) ∧
      decodedString CPython.ofBytes .zeroFilled c.data = some (.tuple mixedObjects) ∧
      ∃ outputs, tvnpVdecode (fun _ => 0) .zeroFilled ['q', 'f', 's'] c.rewind =
          some (0, outputs, c) ∧
        List.Forall₂ (fun (letter, arg) output =>
          output.Received (fun _ => 0) c.data letter arg)
          (['B', 'F', 's'].zip mixedArgs) outputs := by
  have hintegral : ∀ x, .float64 x ∈ mixedArgs → x.integral = false := by
    intro x hx
    obtain rfl : x = oneHalf := by simpa [mixedArgs] using hx
    decide +kernel
  obtain ⟨-, c, hc, -, -, hdecode, hletters⟩ :=
    @SameArgs.interchange _ CPython.ofBytes (fun _ => 0) _ _ _ sameArgs_mixed .zeroFilled
      ⟨List.replicate 11 0xff, 0, by decide, TvuBuffer.start_lt⟩ rfl (by decide +kernel)
  exact ⟨c, hc, hdecode hintegral, hletters ['q', 'f', 's'] valuePairs_mixed⟩

end Libtvnet
