import Libtvnet.PickleLength
import Libtvnet.PickleEncoder
import Libtvnet.PythonObject

/-!
# `tvnetmodule.c`: the length pass and the encoding pass

The length pass has no outcome (`none`) where a `Py_ssize_t` overflows or an
object is used that is none, and answers `-1` where the source does.  The
encoding pass has no outcome where it stores outside the block that was
allocated.
-/

namespace Libtvnet

open Libtvnet.Foundation

variable {Unicode : Type} (python : CPython Unicode) (undefined : Binary64 → Int)

/-! ## The length pass -/

def pySsizeAdd (length recLength : Int) : Option Int :=
  if IntegerType.int64.Holds (length + recLength) then some (length + recLength) else none

mutual

def pytvnLengthRecurse : PyObject Unicode → Option Int
  | .byteArray bytes => some (tvnpLengthBinaryString bytes.length)
  | .string bytes => some (tvnpLengthBinaryString bytes.length)
  | .unicode u =>
      match python.asUTF8String u with
      | none => some (-1)
      | some utf8String => some (tvnpLengthUtf8String utf8String.length)
  | .int x => some (tvnpLengthInteger x)
  | .float x => some (tvnpLengthFloat undefined x)
  | .none => some tvnpLengthNull
  | .dict items => pytvnLengthPairs (tvnpLengthDictionary items.length) items
  | .list items => pytvnLengthItems (tvnpLengthList items.length) items
  | .tuple items => pytvnLengthItems (tvnpLengthList items.length) items
  | .set items => pytvnLengthItems (tvnpLengthList items.length) items
  | .other => some (-1)
  | .endOfData => none

def pytvnLengthItems (length : Int) : List (PyObject Unicode) → Option Int
  | [] => some length
  | item :: items => do
      let recLength ← pytvnLengthRecurse item
      if recLength = -1 then some (-1)
      else
        let length ← pySsizeAdd length recLength
        pytvnLengthItems length items

def pytvnLengthPairs (length : Int) :
    List (PyObject Unicode × PyObject Unicode) → Option Int
  | [] => some length
  | (key, value) :: items => do
      let recLength ← pytvnLengthRecurse key
      if recLength = -1 then some (-1)
      else
        let length ← pySsizeAdd length recLength
        let recLength ← pytvnLengthRecurse value
        if recLength = -1 then some (-1)
        else
          let length ← pySsizeAdd length recLength
          pytvnLengthPairs length items

end

def pytvnLengthTuple (args : List (PyObject Unicode)) : Option Int :=
  pytvnLengthItems python undefined 0 args

/-! ## The encoding pass -/

/-- The buffer, and whether the `Unexpected type.` error has been set. -/
structure EncodeState where
  buffer : TvuBuffer
  unexpectedType : Bool

namespace EncodeState

def encode (state : EncodeState) (encoder : TvuBuffer → Option TvuBuffer) :
    Option EncodeState := do
  let buffer ← encoder state.buffer
  some { state with buffer := buffer }

end EncodeState

mutual

/-- Sizes are passed on as 32-bit numbers. -/
def pytvnEncodeRecurse (state : EncodeState) : PyObject Unicode → Option EncodeState
  | .byteArray bytes =>
      state.encode (tvnpEncodeBinaryString · bytes (UInt32.ofNat bytes.length))
  | .string bytes =>
      state.encode (tvnpEncodeBinaryString · bytes (UInt32.ofNat bytes.length))
  | .unicode u => do
      let utf8String ← python.asUTF8String u
      state.encode
        (tvnpEncodeUtf8StringAndSize · utf8String (UInt32.ofNat utf8String.length))
  | .int x => state.encode (tvnpEncodeInteger · x)
  | .float x => state.encode (tvnpEncodeFloat undefined · x)
  | .none => state.encode tvnpEncodeNull
  | .dict items => do
      let state ← state.encode (tvnpEncodeDictionary · (UInt32.ofNat items.length))
      pytvnEncodePairs state items
  | .list items => do
      let state ← state.encode (tvnpEncodeList · (UInt32.ofNat items.length))
      pytvnEncodeItems state items
  | .tuple items => do
      let state ← state.encode (tvnpEncodeList · (UInt32.ofNat items.length))
      pytvnEncodeItems state items
  | .set items => do
      let state ← state.encode (tvnpEncodeList · (UInt32.ofNat items.length))
      pytvnEncodeItems state items
  | .other => some { state with unexpectedType := true }
  | .endOfData => none

def pytvnEncodeItems (state : EncodeState) : List (PyObject Unicode) → Option EncodeState
  | [] => some state
  | item :: items => do
      let state ← pytvnEncodeRecurse state item
      pytvnEncodeItems state items

def pytvnEncodePairs (state : EncodeState) :
    List (PyObject Unicode × PyObject Unicode) → Option EncodeState
  | [] => some state
  | (key, value) :: items => do
      let state ← pytvnEncodeRecurse state key
      let state ← pytvnEncodeRecurse state value
      pytvnEncodePairs state items

end

def pytvnEncodeTuple (state : EncodeState) (args : List (PyObject Unicode)) :
    Option EncodeState :=
  pytvnEncodeItems python undefined state args

/-! ## What the length pass computes -/

private theorem pySsizeAdd_eq_some {x y z : Int} (h : pySsizeAdd x y = some z) : z = x + y := by
  unfold pySsizeAdd at h
  split at h
  · exact (Option.some.inj h).symm
  · contradiction

section Length

variable {python undefined}

private theorem length_step {recLength length n : Int} {next : Int → Option Int}
    (h : (if recLength = -1 then some (-1) else (pySsizeAdd length recLength).bind next) =
      some n) : n = -1 ∨ (recLength ≠ -1 ∧ next (length + recLength) = some n) := by
  split at h
  · exact .inl (Option.some.inj h).symm
  · next hrec =>
      obtain ⟨sum, hsum, hnext⟩ := Option.bind_eq_some_iff.mp h
      rw [pySsizeAdd_eq_some hsum] at hnext
      exact .inr ⟨hrec, hnext⟩

mutual

private theorem pytvnLengthRecurse_eq_wire {n : Int} : ∀ {o : PyObject Unicode},
    pytvnLengthRecurse python undefined o = some n → n ≠ -1 →
    ∃ ts, o.tokens python undefined = some ts ∧ n = (wire ts).length
  | .endOfData, h, _ => by simp [pytvnLengthRecurse] at h
  | .other, h, hn => absurd (Option.some.inj h).symm hn
  | .none, h, _ => ⟨_, rfl, (Option.some.inj h).symm⟩
  | .int x, h, _ => by
      refine ⟨_, rfl, ?_⟩
      rw [pytvnLengthRecurse, tvnpLengthInteger_eq] at h
      simpa using (Option.some.inj h).symm
  | .float x, h, _ => by
      refine ⟨_, rfl, ?_⟩
      rw [pytvnLengthRecurse, tvnpLengthFloat_eq] at h
      simpa using (Option.some.inj h).symm
  | .string bytes, h, _ => by
      refine ⟨_, rfl, ?_⟩
      rw [pytvnLengthRecurse, tvnpLengthBinaryString_eq] at h
      simpa using (Option.some.inj h).symm
  | .byteArray bytes, h, _ => by
      refine ⟨_, rfl, ?_⟩
      rw [pytvnLengthRecurse, tvnpLengthBinaryString_eq] at h
      simpa using (Option.some.inj h).symm
  | .unicode u, h, hn => by
      rw [pytvnLengthRecurse] at h
      cases hutf8 : python.asUTF8String u with
      | none =>
          rw [hutf8] at h
          exact absurd (Option.some.inj h).symm hn
      | some utf8String =>
          rw [hutf8] at h
          refine ⟨_, by rw [PyObject.tokens, hutf8]; rfl, ?_⟩
          simp only [tvnpLengthUtf8String_eq] at h
          simpa using (Option.some.inj h).symm
  | .dict items, h, hn => by
      rw [pytvnLengthRecurse, tvnpLengthDictionary_eq] at h
      obtain ⟨ts, hts, hlength⟩ := pytvnLengthPairs_eq_wire h hn
      refine ⟨_, by rw [PyObject.tokens, hts]; rfl, ?_⟩
      simpa using hlength
  | .list items, h, hn | .tuple items, h, hn | .set items, h, hn => by
      rw [pytvnLengthRecurse, tvnpLengthList_eq] at h
      obtain ⟨ts, hts, hlength⟩ := pytvnLengthItems_eq_wire h hn
      refine ⟨_, by rw [PyObject.tokens, hts]; rfl, ?_⟩
      simpa using hlength

theorem pytvnLengthItems_eq_wire {length n : Int} : ∀ {items : List (PyObject Unicode)},
    pytvnLengthItems python undefined length items = some n → n ≠ -1 →
    ∃ ts, PyObject.tokensOfItems python undefined items = some ts ∧
      n = length + (wire ts).length
  | [], h, _ => ⟨[], rfl, by simpa using (Option.some.inj h).symm⟩
  | item :: items, h, hn => by
      rw [pytvnLengthItems] at h
      obtain ⟨recLength, hrec, h⟩ := Option.bind_eq_some_iff.mp h
      obtain ⟨hne, h⟩ := (length_step h).resolve_left hn
      obtain ⟨ts, hts, hfirst⟩ := pytvnLengthRecurse_eq_wire hrec hne
      obtain ⟨us, hus, hrest⟩ := pytvnLengthItems_eq_wire h hn
      refine ⟨ts ++ us, by rw [PyObject.tokensOfItems, hts, hus]; rfl, ?_⟩
      rw [hrest, hfirst, wire_append, List.length_append]
      omega

private theorem pytvnLengthPairs_eq_wire {length n : Int} :
    ∀ {items : List (PyObject Unicode × PyObject Unicode)},
    pytvnLengthPairs python undefined length items = some n → n ≠ -1 →
    ∃ ts, PyObject.tokensOfPairs python undefined items = some ts ∧
      n = length + (wire ts).length
  | [], h, _ => ⟨[], rfl, by simpa using (Option.some.inj h).symm⟩
  | (key, value) :: items, h, hn => by
      rw [pytvnLengthPairs] at h
      obtain ⟨keyLength, hkeyRec, h⟩ := Option.bind_eq_some_iff.mp h
      obtain ⟨hkeyNe, h⟩ := (length_step h).resolve_left hn
      obtain ⟨valueLength, hvalueRec, h⟩ := Option.bind_eq_some_iff.mp h
      obtain ⟨hvalueNe, h⟩ := (length_step h).resolve_left hn
      obtain ⟨ts, hts, hkey⟩ := pytvnLengthRecurse_eq_wire hkeyRec hkeyNe
      obtain ⟨us, hus, hvalue⟩ := pytvnLengthRecurse_eq_wire hvalueRec hvalueNe
      obtain ⟨vs, hvs, hrest⟩ := pytvnLengthPairs_eq_wire h hn
      refine ⟨ts ++ us ++ vs, by rw [PyObject.tokensOfPairs, hts, hus, hvs]; rfl, ?_⟩
      rw [hrest, hkey, hvalue, wire_append, wire_append, List.length_append, List.length_append]
      omega

end

end Length

/-! ## What the encoding pass appends -/

namespace EncodeState

def append (state : EncodeState) (bytes : List UInt8) : Option EncodeState :=
  state.encode (·.append bytes)

@[simp] theorem append_nil (state : EncodeState) : state.append [] = some state := by
  simp [append, encode]

theorem append_append (state : EncodeState) (xs ys : List UInt8) :
    (state.append xs).bind (·.append ys) = state.append (xs ++ ys) := by
  have hbuffer := state.buffer.append_append xs ys
  simp only [append, encode]
  rw [← hbuffer]
  cases state.buffer.append xs <;> rfl

end EncodeState

section Encode

variable {python undefined}

mutual

private theorem pytvnEncodeRecurse_narrow {ts : List Token} (state : EncodeState) :
    ∀ {o : PyObject Unicode}, o.tokens python undefined = some ts →
    pytvnEncodeRecurse python undefined state o = state.append (wire (ts.map Token.narrow))
  | .endOfData, h => by simp [PyObject.tokens] at h
  | .other, h => by simp [PyObject.tokens] at h
  | .none, h => by
      obtain rfl := Option.some.inj h
      simp only [pytvnEncodeRecurse, EncodeState.append, List.map_cons, List.map_nil, wire_cons,
        wire_nil, List.append_nil]
      rw [funext tvnpEncodeNull_eq]
      rfl
  | .int x, h => by
      obtain rfl := Option.some.inj h
      simp only [pytvnEncodeRecurse, EncodeState.append, tvnpEncodeInteger_eq, List.map_cons,
        List.map_nil, wire_cons, wire_nil, List.append_nil]
      rfl
  | .float x, h => by
      obtain rfl := Option.some.inj h
      have hnarrow := Token.narrow_ofDouble undefined x
      simp only [pytvnEncodeRecurse, EncodeState.append, tvnpEncodeFloat_eq, List.map_cons,
        List.map_nil, wire_cons, wire_nil, List.append_nil, hnarrow]
  | .string bytes, h | .byteArray bytes, h => by
      obtain rfl := Option.some.inj h
      simp only [pytvnEncodeRecurse, EncodeState.append, tvnpEncodeBinaryString_narrow,
        List.map_cons, List.map_nil, wire_cons, wire_nil, List.append_nil]
  | .unicode u, h => by
      rw [PyObject.tokens] at h
      obtain ⟨utf8String, hutf8, rfl⟩ := Option.map_eq_some_iff.mp h
      simp only [pytvnEncodeRecurse, EncodeState.append, hutf8, Option.bind_eq_bind,
        Option.bind_some, tvnpEncodeUtf8StringAndSize_narrow, List.map_cons, List.map_nil,
        wire_cons, wire_nil, List.append_nil]
  | .dict items, h => by
      rw [PyObject.tokens] at h
      obtain ⟨us, hus, rfl⟩ := Option.map_eq_some_iff.mp h
      rw [List.map_cons, wire_cons, ← EncodeState.append_append]
      simp only [pytvnEncodeRecurse, tvnpEncodeDictionary_narrow]
      exact Option.bind_congr fun state _ => pytvnEncodePairs_narrow state hus
  | .list items, h | .tuple items, h | .set items, h => by
      rw [PyObject.tokens] at h
      obtain ⟨us, hus, rfl⟩ := Option.map_eq_some_iff.mp h
      rw [List.map_cons, wire_cons, ← EncodeState.append_append]
      simp only [pytvnEncodeRecurse, tvnpEncodeList_narrow]
      exact Option.bind_congr fun state _ => pytvnEncodeItems_narrow state hus

theorem pytvnEncodeItems_narrow {ts : List Token} (state : EncodeState) :
    ∀ {items : List (PyObject Unicode)},
    PyObject.tokensOfItems python undefined items = some ts →
    pytvnEncodeItems python undefined state items = state.append (wire (ts.map Token.narrow))
  | [], h => by
      obtain rfl := Option.some.inj h
      rw [pytvnEncodeItems, List.map_nil, wire_nil, EncodeState.append_nil]
  | item :: items, h => by
      rw [PyObject.tokensOfItems] at h
      obtain ⟨us, hus, h⟩ := Option.bind_eq_some_iff.mp h
      obtain ⟨vs, hvs, h⟩ := Option.bind_eq_some_iff.mp h
      obtain rfl := Option.some.inj h
      rw [pytvnEncodeItems, List.map_append, wire_append, ← EncodeState.append_append,
        pytvnEncodeRecurse_narrow state hus]
      exact Option.bind_congr fun state _ => pytvnEncodeItems_narrow state hvs

private theorem pytvnEncodePairs_narrow {ts : List Token} (state : EncodeState) :
    ∀ {items : List (PyObject Unicode × PyObject Unicode)},
    PyObject.tokensOfPairs python undefined items = some ts →
    pytvnEncodePairs python undefined state items = state.append (wire (ts.map Token.narrow))
  | [], h => by
      obtain rfl := Option.some.inj h
      rw [pytvnEncodePairs, List.map_nil, wire_nil, EncodeState.append_nil]
  | (key, value) :: items, h => by
      rw [PyObject.tokensOfPairs] at h
      obtain ⟨us, hus, h⟩ := Option.bind_eq_some_iff.mp h
      obtain ⟨vs, hvs, h⟩ := Option.bind_eq_some_iff.mp h
      obtain ⟨ws, hws, h⟩ := Option.bind_eq_some_iff.mp h
      obtain rfl := Option.some.inj h
      rw [pytvnEncodePairs, List.append_assoc, List.map_append, wire_append,
        ← EncodeState.append_append, pytvnEncodeRecurse_narrow state hus]
      refine Option.bind_congr fun state _ => ?_
      rw [List.map_append, wire_append, ← EncodeState.append_append,
        pytvnEncodeRecurse_narrow state hvs]
      exact Option.bind_congr fun state _ => pytvnEncodePairs_narrow state hws

end

mutual

theorem PyObject.Sized.valid_tokens {ts : List Token} : ∀ {o : PyObject Unicode},
    o.Sized python → o.tokens python undefined = some ts → ∀ t ∈ ts, t.Valid
  | .endOfData, _, h => by simp [PyObject.tokens] at h
  | .other, _, h => by simp [PyObject.tokens] at h
  | .none, _, h | .int x, _, h => by
      obtain rfl := Option.some.inj h
      exact List.forall_mem_singleton.mpr trivial
  | .float x, _, h => by
      obtain rfl := Option.some.inj h
      exact List.forall_mem_singleton.mpr (Token.ofDouble_valid undefined x)
  | .string bytes, hsized, h | .byteArray bytes, hsized, h => by
      obtain rfl := Option.some.inj h
      exact List.forall_mem_singleton.mpr hsized
  | .unicode u, hsized, h => by
      rw [PyObject.tokens] at h
      obtain ⟨utf8String, hutf8, rfl⟩ := Option.map_eq_some_iff.mp h
      exact List.forall_mem_singleton.mpr (hsized _ hutf8)
  | .dict items, hsized, h => by
      rw [PyObject.tokens] at h
      obtain ⟨us, hus, rfl⟩ := Option.map_eq_some_iff.mp h
      exact List.forall_mem_cons.mpr ⟨hsized.1, PyObject.SizedPairs.valid_tokens hsized.2 hus⟩
  | .list items, hsized, h | .tuple items, hsized, h | .set items, hsized, h => by
      rw [PyObject.tokens] at h
      obtain ⟨us, hus, rfl⟩ := Option.map_eq_some_iff.mp h
      exact List.forall_mem_cons.mpr ⟨hsized.1, PyObject.SizedItems.valid_tokens hsized.2 hus⟩

theorem PyObject.SizedItems.valid_tokens {ts : List Token} :
    ∀ {items : List (PyObject Unicode)}, PyObject.SizedItems python items →
    PyObject.tokensOfItems python undefined items = some ts → ∀ t ∈ ts, t.Valid
  | [], _, h => by
      obtain rfl := Option.some.inj h
      simp
  | item :: items, hsized, h => by
      rw [PyObject.tokensOfItems] at h
      obtain ⟨us, hus, h⟩ := Option.bind_eq_some_iff.mp h
      obtain ⟨vs, hvs, h⟩ := Option.bind_eq_some_iff.mp h
      obtain rfl := Option.some.inj h
      exact List.forall_mem_append.mpr ⟨PyObject.Sized.valid_tokens hsized.1 hus,
        PyObject.SizedItems.valid_tokens hsized.2 hvs⟩

theorem PyObject.SizedPairs.valid_tokens {ts : List Token} :
    ∀ {items : List (PyObject Unicode × PyObject Unicode)},
    PyObject.SizedPairs python items →
    PyObject.tokensOfPairs python undefined items = some ts → ∀ t ∈ ts, t.Valid
  | [], _, h => by
      obtain rfl := Option.some.inj h
      simp
  | (key, value) :: items, hsized, h => by
      rw [PyObject.tokensOfPairs] at h
      obtain ⟨us, hus, h⟩ := Option.bind_eq_some_iff.mp h
      obtain ⟨vs, hvs, h⟩ := Option.bind_eq_some_iff.mp h
      obtain ⟨ws, hws, h⟩ := Option.bind_eq_some_iff.mp h
      obtain rfl := Option.some.inj h
      exact List.forall_mem_append.mpr ⟨List.forall_mem_append.mpr
        ⟨PyObject.Sized.valid_tokens hsized.1 hus, PyObject.Sized.valid_tokens hsized.2.1 hvs⟩,
        PyObject.SizedPairs.valid_tokens hsized.2.2 hws⟩

end

theorem map_narrow_of_valid {ts : List Token} (h : ∀ t ∈ ts, t.Valid) :
    ts.map Token.narrow = ts :=
  (List.map_congr_left fun t ht => Token.narrow_of_valid (h t ht)).trans (List.map_id ts)

theorem pytvnEncodeRecurse_eq_append {ts : List Token} (state : EncodeState)
    {o : PyObject Unicode} (hsized : o.Sized python) (h : o.tokens python undefined = some ts) :
    pytvnEncodeRecurse python undefined state o = state.append (wire ts) := by
  rw [pytvnEncodeRecurse_narrow state h, map_narrow_of_valid (hsized.valid_tokens h)]

theorem pytvnEncodeItems_eq_append {ts : List Token} (state : EncodeState)
    {items : List (PyObject Unicode)} (hsized : PyObject.SizedItems python items)
    (h : PyObject.tokensOfItems python undefined items = some ts) :
    pytvnEncodeItems python undefined state items = state.append (wire ts) := by
  rw [pytvnEncodeItems_narrow state h, map_narrow_of_valid (hsized.valid_tokens h)]

end Encode

/-! ## Agreement of the passes -/

def Advances (encoder : TvuBuffer → Option TvuBuffer) (n : Nat) : Prop :=
  ∀ b : TvuBuffer, b.offset + n ≤ b.size → ∃ c, encoder b = some c ∧ c.offset = b.offset + n

private theorem advances_of_eq_append {encoder : TvuBuffer → Option TvuBuffer} {bytes : List UInt8}
    {n : Nat} (hencoder : ∀ b, encoder b = b.append bytes) (hn : n = bytes.length) :
    Advances encoder n := by
  intro b hroom
  rw [hn] at hroom ⊢
  obtain ⟨c, hc, hoffset, -⟩ := TvuBuffer.append_eq_some hroom
  exact ⟨c, by rw [hencoder, hc], hoffset⟩

/--
A block of the length that the length pass answers is filled to its last byte,
without a store outside it and without an unexpected type.
-/
theorem pytvnEncodeTuple_fills_pytvnLengthTuple {args : List (PyObject Unicode)} {n : Int}
    {block : TvuBuffer} (hsized : PyObject.SizedItems python args)
    (hlength : pytvnLengthTuple python undefined args = some n) (hn : n ≠ -1)
    (hblock : (block.size : Int) = n) (hoffset : block.offset = 0) :
    (∃ state, pytvnEncodeTuple python undefined ⟨block, false⟩ args = some state ∧
      state.unexpectedType = false ∧ (state.buffer.offset : Int) = n) ∧
    (∀ x, Advances (tvnpEncodeInteger · x) (tvnpLengthInteger x)) ∧
    (∀ x, Advances (tvnpEncodeFloat undefined · x) (tvnpLengthFloat undefined x)) ∧
    (∀ c x, Advances (tvnpEncodeCompound · c x) (tvnpLengthCompound x.toNat)) ∧
    (∀ string : List UInt8, string.length < 2 ^ 32 →
      Advances (tvnpEncodeUtf8StringAndSize · string (UInt32.ofNat string.length))
        (tvnpLengthUtf8String string.length)) ∧
    (∀ string : List UInt8, string.length < 2 ^ 32 →
      Advances (tvnpEncodeBinaryString · string (UInt32.ofNat string.length))
        (tvnpLengthBinaryString string.length)) := by
  refine ⟨?_, ?_, ?_, ?_, ?_, ?_⟩
  · obtain ⟨ts, hts, hwire⟩ := pytvnLengthItems_eq_wire hlength hn
    have hroom : block.offset + (wire ts).length ≤ block.size := by omega
    obtain ⟨c, hc, hend, -⟩ := TvuBuffer.append_eq_some hroom
    refine ⟨⟨c, false⟩, ?_, rfl, ?_⟩
    · rw [pytvnEncodeTuple, pytvnEncodeItems_eq_append _ hsized hts]
      simp [EncodeState.append, EncodeState.encode, hc]
    · change (c.offset : Int) = n
      omega
  · exact fun x => advances_of_eq_append (tvnpEncodeInteger_eq · x) (tvnpLengthInteger_eq x)
  · exact fun x =>
      advances_of_eq_append (tvnpEncodeFloat_eq undefined · x) (tvnpLengthFloat_eq undefined x)
  · exact fun c x =>
      advances_of_eq_append (tvnpEncodeCompound_eq · c x) (tvnpLengthCompound_eq c x.toNat)
  · exact fun string h =>
      advances_of_eq_append (tvnpEncodeUtf8StringAndSize_eq · h) (tvnpLengthUtf8String_eq string)
  · exact fun string h =>
      advances_of_eq_append (tvnpEncodeBinaryString_eq · h) (tvnpLengthBinaryString_eq string)

def sampleDict : PyObject (List UInt8) :=
  .dict [(.unicode [0x41], .list [.none, .int (-1)])]

theorem pytvnEncodeTuple_fills_sampleDict :
    ∃ state, pytvnEncodeTuple CPython.ofBytes (fun _ => 0)
        ⟨⟨List.replicate 7 0, 0, by decide, by decide⟩, false⟩ [sampleDict] = some state ∧
      state.unexpectedType = false ∧ (state.buffer.offset : Int) = 7 := by
  have hsized : PyObject.SizedItems CPython.ofBytes [sampleDict] := by
    simp [sampleDict, PyObject.SizedItems, PyObject.SizedPairs, PyObject.Sized,
      CPython.ofBytes]
  exact (pytvnEncodeTuple_fills_pytvnLengthTuple CPython.ofBytes (fun _ => 0) hsized
    (n := 7) (by decide) (by decide) rfl rfl).1

end Libtvnet
