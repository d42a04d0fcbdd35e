import Libtvnet.PythonKeys

/-!
# Whether what is encoded can be decoded

The bytes of `pytvn_encode` are handed to `pytvn_decode`.  The block that is
not written to its end, the sizes that were cut and the keys that are lost all
show in the numbers of entries that come back.
-/

namespace Libtvnet

open Libtvnet.Foundation

variable {Unicode : Type}

/-! ## The property -/

namespace PyObject

def SameResult : List (PyObject Unicode) → PyObject Unicode → Prop
  | [o], object => SameShape o object
  | args, object => ∃ objects, object = tuple objects ∧ SameItems args objects

end PyObject

section Property

variable (python : CPython Unicode) (undefined : Binary64 → Int) (indeterminate : TvnpToken)

def DecodesAlike (block : TvuBuffer) (args : List (PyObject Unicode)) : Prop :=
  ∃ state run object, pytvnEncodeTuple python undefined ⟨block, false⟩ args = some state ∧
    state.unexpectedType = false ∧
    pytvnDecode python indeterminate state.buffer.rewind = some run ∧
    run.result = some object ∧ PyObject.SameResult args object

end Property

/-! ## The block -/

section Block

variable {python : CPython Unicode} {undefined : Binary64 → Int} {indeterminate : TvnpToken}

theorem pytvnEncodeTuple_block {block : TvuBuffer} {args : List (PyObject Unicode)}
    {ts : List Token} (hts : PyObject.tokensOfItems python undefined args = some ts)
    (hsize : block.size = (wire ts).length) (hoffset : block.offset = 0) :
    ∃ c : TvuBuffer, pytvnEncodeTuple python undefined ⟨block, false⟩ args = some ⟨c, false⟩ ∧
      c.size = block.size ∧
      c.rewind.rest = wire (ts.map Token.narrow) ++
        block.data.drop (wire (ts.map Token.narrow)).length := by
  have hle := (length_wire_narrow_le ts).1
  obtain ⟨c, hc, -, hdata⟩ := TvuBuffer.append_eq_some
    (show block.offset + (wire (ts.map Token.narrow)).length ≤ block.size by omega)
  rw [hoffset, Nat.zero_add, List.take_zero, List.nil_append] at hdata
  refine ⟨c, ?_, ?_, ?_⟩
  · rw [pytvnEncodeTuple, pytvnEncodeItems_narrow _ hts]
    simp only [EncodeState.append, EncodeState.encode, hc, Option.bind_eq_bind,
      Option.bind_some]
  · rw [TvuBuffer.size, hdata, List.length_append, List.length_drop]
    unfold TvuBuffer.size at hsize ⊢
    omega
  · rw [TvuBuffer.rest, TvuBuffer.offset_rewind, List.drop_zero]
    exact hdata

theorem PyObject.length_decodedItems {items objects : List (PyObject Unicode)}
    (h : PyObject.decodedItems python undefined items = some objects) :
    objects.length = items.length := by
  induction items generalizing objects with
  | nil =>
      obtain rfl := Option.some.inj h
      rfl
  | cons item items ih =>
      obtain ⟨object, -, h⟩ := Option.bind_eq_some_iff.mp h
      obtain ⟨others, hothers, h⟩ := Option.bind_eq_some_iff.mp h
      obtain rfl := Option.some.inj h
      rw [List.length_cons, List.length_cons, ih hothers]

theorem pytvnDecodeTuple_block (indeterminate : TvnpToken) {block c : TvuBuffer}
    {args : List (PyObject Unicode)} {ts : List Token} (hcounted : PyObject.CountedItems args)
    (hts : PyObject.tokensOfItems python undefined args = some ts)
    (hsize : block.size = (wire ts).length) (hc : c.size = block.size)
    (hrest : c.rewind.rest = wire (ts.map Token.narrow) ++
      block.data.drop (wire (ts.map Token.narrow)).length) :
    ∃ run, pytvnDecodeTuple python indeterminate c.rewind = some run ∧
      ((wire (ts.map Token.narrow)).length = (wire ts).length →
        run.result = PyObject.decodedItems python undefined args) ∧
      ((wire (ts.map Token.narrow)).length < (wire ts).length →
        ∀ objects, run.result = some objects → args.length < objects.length) := by
  have hfueled : Fueled (c.rewind.size + 2) c.rewind := ⟨Nat.zero_le _, by simp⟩
  obtain ⟨run, hrun, -⟩ := @pytvnDecodeLoop_outcome Unicode python indeterminate
    (c.rewind.size + 2) (c.rewind.size + 2) c.rewind hfueled hfueled
  have hwhole : c.rewind.size = (wire ts).length := hc.trans hsize
  have hend : (c.rewind.skip (wire (ts.map Token.narrow)).length).offset =
      (wire (ts.map Token.narrow)).length := by
    have hle := (length_wire_narrow_le ts).1
    rw [TvuBuffer.offset_skip_of_le, TvuBuffer.offset_rewind, Nat.zero_add]
    rw [TvuBuffer.offset_rewind, hwhole]
    omega
  have hloop := decodeLoop_of_wire hcounted hts hrest hrun
  refine ⟨run, hrun, ?_⟩
  cases hobjects : PyObject.decodedItems python undefined args with
  | none =>
      rw [hobjects] at hloop
      exact ⟨fun _ => hloop, fun _ objects h => by simp [hloop] at h⟩
  | some objects =>
      rw [hobjects] at hloop
      obtain ⟨m, tail, htail, hresult⟩ := hloop
      obtain ⟨hstop, hmore⟩ := pytvnDecodeLoop_tail htail
      rw [hend, TvuBuffer.size_skip, hwhole] at hstop hmore
      constructor
      · intro heq
        rw [hresult, hstop heq.ge, Option.map_some, List.append_nil]
      · intro hlt all hall
        obtain ⟨rest, hrestResult, rfl⟩ := Option.map_eq_some_iff.mp (hresult.symm.trans hall)
        have hne : rest ≠ [] := by
          rintro rfl
          exact hmore hlt hrestResult
        have hpos := List.length_pos_iff.mpr hne
        rw [List.length_append, PyObject.length_decodedItems hobjects]
        omega

/-! ## What the objects of the decoder are -/

private theorem pytvnDecodeLoop_results {fuel n : Nat} {b : TvuBuffer}
    {run : DecodeRun Unicode (List (PyObject Unicode))} {objects : List (PyObject Unicode)}
    (hgrow : python.GrowsByOne)
    (hrun : pytvnDecodeLoop (pytvnDecodeRecurse python indeterminate fuel) n b = some run)
    (hresult : run.result = some objects) :
    PyObject.CountedItems objects ∧ ∀ object ∈ objects, ∀ items, object ≠ .tuple items := by
  induction n generalizing b run objects with
  | zero => simp [pytvnDecodeLoop] at hrun
  | succ n ih =>
      obtain ⟨first, hfirst, -⟩ := pytvnDecodeLoop_succ hrun
      cases hobject : first.result with
      | none =>
          simp only [pytvnDecodeLoop, hfirst, hobject, Option.bind_eq_bind,
            Option.bind_some] at hrun
          obtain rfl := Option.some.inj hrun
          contradiction
      | some object =>
          by_cases hend : object = .endOfData
          · obtain rfl := hend
            simp only [pytvnDecodeLoop, hfirst, hobject, Option.bind_eq_bind,
              Option.bind_some] at hrun
            obtain rfl := Option.some.inj hrun
            obtain rfl := Option.some.inj hresult
            exact ⟨trivial, List.forall_mem_nil _⟩
          · rw [pytvnDecodeLoop_object hfirst hobject hend] at hrun
            obtain ⟨rest, hrest, rfl⟩ := Option.map_eq_some_iff.mp hrun
            obtain ⟨others, hothers, rfl⟩ := Option.map_eq_some_iff.mp hresult
            obtain ⟨hcounted, hplain⟩ := ih hrest hothers
            refine ⟨⟨pytvnDecodeRecurse_counted hgrow hfirst hobject, hcounted⟩,
              List.forall_mem_cons.mpr ⟨fun items htuple => ?_, hplain⟩⟩
            rw [htuple] at hobject
            rcases pytvnDecodeRecurse_kind hfirst hobject with ⟨heq, -⟩ | hscalar | hcontainer
            · cases heq
            · exact hscalar
            · exact hcontainer

/-! ## The condition -/

theorem PyObject.SameShape.ne_tuple {o : PyObject Unicode} {items : List (PyObject Unicode)} :
    ¬ PyObject.SameShape o (.tuple items) := by
  intro h
  cases o with
  | dict =>
      obtain ⟨items', pairs, heq, -⟩ := h
      cases heq
  | list | tuple | set =>
      obtain ⟨items', heq, -⟩ := h
      cases heq
  | _ => exact h

theorem PyObject.sameResult_iff {args objects : List (PyObject Unicode)}
    (hplain : ∀ object ∈ objects, ∀ items, object ≠ .tuple items) :
    PyObject.SameResult args (decodeResult objects) ↔ PyObject.SameItems args objects := by
  by_cases hsame : objects.length = args.length
  · match args, objects with
    | [], [] => exact ⟨fun ⟨_, heq, hitems⟩ => PyObject.tuple.inj heq ▸ hitems,
        fun hitems => ⟨[], rfl, hitems⟩⟩
    | [o], [o'] =>
        constructor
        · exact fun h => ⟨o', [], rfl, h, rfl⟩
        · rintro ⟨item', others, heq, hshape, -⟩
          obtain ⟨rfl, -⟩ := List.cons.inj heq
          exact hshape
    | o₁ :: o₂ :: args, o₁' :: o₂' :: objects =>
        exact ⟨fun ⟨_, heq, hitems⟩ => PyObject.tuple.inj heq ▸ hitems,
          fun hitems => ⟨_, rfl, hitems⟩⟩
  · refine ⟨fun h => absurd ?_ hsame, fun h => absurd h.length_eq hsame⟩
    match args, objects with
    | [], [] | [_], [_] => rfl
    | [o], [] | [o], o₁' :: o₂' :: objects => exact absurd h PyObject.SameShape.ne_tuple
    | [], o₁' :: o₂' :: objects | o₁ :: o₂ :: args, []
    | o₁ :: o₂ :: args, o₁' :: o₂' :: objects =>
        obtain ⟨_, heq, hitems⟩ := h
        exact PyObject.tuple.inj heq ▸ hitems.length_eq
    | [], [o'] | o₁ :: o₂ :: args, [o'] =>
        obtain ⟨items, heq, -⟩ := h
        exact absurd heq (hplain o' List.mem_cons_self items)

variable {same : PyObject Unicode → PyObject Unicode → Bool}

private theorem keysSent_of_decodesAlike {block : TvuBuffer} {args : List (PyObject Unicode)}
    {ts : List Token} (hset : python.SetsItems same)
    (hts : PyObject.tokensOfItems python undefined args = some ts)
    (hsize : block.size = (wire ts).length) (hoffset : block.offset = 0)
    (h : DecodesAlike python undefined indeterminate block args) :
    PyObject.SizedItems python args ∧ PyObject.KeysSentItems python undefined same args := by
  obtain ⟨state, run, object, hencode, -, hdecode, hresult, hsame⟩ := h
  obtain ⟨c, hc, hcsize, hrest⟩ := pytvnEncodeTuple_block hts hsize hoffset
  obtain rfl := Option.some.inj (hc.symm.trans hencode)
  rw [pytvnDecode_eq] at hdecode
  obtain ⟨tupleRun, htuple, rfl⟩ := Option.map_eq_some_iff.mp hdecode
  obtain ⟨objects, hobjects, rfl⟩ := Option.map_eq_some_iff.mp hresult
  obtain ⟨hcountedObjects, hplain⟩ := pytvnDecodeLoop_results hset.growsByOne htuple hobjects
  have hitems := (PyObject.sameResult_iff hplain).mp hsame
  have hcounted := hitems.counted hcountedObjects
  obtain ⟨tupleRun', htuple', hwhole, hcut⟩ :=
    pytvnDecodeTuple_block indeterminate hcounted hts hsize hcsize hrest
  obtain rfl := Option.some.inj (htuple.symm.trans htuple')
  obtain ⟨hle, hfits⟩ := length_wire_narrow_le ts
  have heq : (wire (ts.map Token.narrow)).length = (wire ts).length := by
    by_contra hne
    have hmore := hcut (by omega) objects hobjects
    rw [hitems.length_eq] at hmore
    omega
  have hsized := hcounted.sized hts (hfits heq)
  have hdecoded := (hwhole heq).symm.trans hobjects
  exact ⟨hsized, (PyObject.entryCountItems_decoded hset hsized hdecoded).2
    hitems.entryCountItems_eq⟩

private theorem decodesAlike_of_keysSent {block : TvuBuffer} {args : List (PyObject Unicode)}
    {ts : List Token} (hset : python.SetsItems same) (hstrings : python.DecodesStrings)
    (hts : PyObject.tokensOfItems python undefined args = some ts)
    (hsize : block.size = (wire ts).length) (hoffset : block.offset = 0)
    (hsized : PyObject.SizedItems python args)
    (hsent : PyObject.KeysSentItems python undefined same args) :
    DecodesAlike python undefined indeterminate block args := by
  obtain ⟨c, hc, hcsize, hrest⟩ := pytvnEncodeTuple_block hts hsize hoffset
  obtain ⟨objects, hdecoded, hitems⟩ :=
    PyObject.KeysSentItems.decodedItems hset hstrings hsized hts hsent
  obtain ⟨run, hrun, hwhole, -⟩ := pytvnDecodeTuple_block indeterminate
    hsized.counted hts hsize hcsize hrest
  have hresult : run.result = some objects := by
    rw [hwhole (by rw [map_narrow_of_valid (hsized.valid_tokens hts)]), hdecoded]
  have hplain := (pytvnDecodeLoop_results hset.growsByOne hrun hresult).2
  refine ⟨⟨c, false⟩, run.map decodeResult, decodeResult objects, hc, rfl, ?_, ?_,
    (PyObject.sameResult_iff hplain).mpr hitems⟩
  · rw [pytvnDecode_eq, hrun, Option.map_some]
  · rw [DecodeRun.map, hresult, Option.map_some]

/--
What `pytvn_encode` accepts is decoded to as many entries exactly if all sizes
fit their headers and the keys of each dictionary stay apart.
-/
theorem decodesAlike_iff {block : TvuBuffer} {args : List (PyObject Unicode)} {n : Int}
    (hset : python.SetsItems same) (hstrings : python.DecodesStrings)
    (hlength : pytvnLengthTuple python undefined args = some n) (hn : n ≠ -1)
    (hblock : (block.size : Int) = n) (hoffset : block.offset = 0) :
    DecodesAlike python undefined indeterminate block args ↔
      PyObject.SizedItems python args ∧ PyObject.KeysSentItems python undefined same args := by
  obtain ⟨ts, hts, hwire⟩ := pytvnLengthItems_eq_wire hlength hn
  have hsize : block.size = (wire ts).length := by omega
  exact ⟨keysSent_of_decodesAlike hset hts hsize hoffset, fun ⟨hsized, hsent⟩ =>
    decodesAlike_of_keysSent hset hstrings hts hsize hoffset hsized hsent⟩

end Block

/-! ## An interpreter -/

/-- Keys are compared by value, byte and Unicode strings with each other where they are ASCII. -/
def PyObject.sameKey : PyObject (List UInt8) → PyObject (List UInt8) → Bool
  | .none, .none => true
  | .int x, .int y => x = y
  | .float x, .float y => x.eq y
  | .int x, .float y | .float y, .int x => y.integral && decide (y.toInt = x.toInt)
  | .string s, .string t | .unicode s, .unicode t => s = t
  | .string s, .unicode t | .unicode s, .string t => s = t ∧ s.all (· < 0x80)
  | _, _ => false

/-- Strings are kept in UTF-8; the keys are those that the decoder can have. -/
def CPython.hashing : CPython (List UInt8) where
  asUTF8String := some
  decodeUTF8 := some
  dictSetItem items key value :=
    match key with
    | .none | .int _ | .float _ | .string _ | .unicode _ =>
        some (setEntry PyObject.sameKey items key value)
    | _ => none
  dictSetItem_mem := by
    intro items key value items' h item hitem
    cases key
    case none | int | float | string | unicode =>
      obtain rfl := Option.some.inj h
      exact mem_setEntry hitem
    all_goals cases h

theorem CPython.hashing_setsItems : CPython.hashing.SetsItems PyObject.sameKey where
  fails items key value h := by
    cases key
    case list | dict => rfl
    all_goals cases h
  succeeds items key value h := by
    cases key
    case none | int | float | string | unicode => exact ⟨_, rfl⟩
    all_goals cases h
  sets items key value items' h := by
    cases key
    case none | int | float | string | unicode =>
      obtain rfl := Option.some.inj h
      exact .refl _
    all_goals cases h

theorem CPython.hashing_decodesStrings : CPython.hashing.DecodesStrings :=
  fun _ bytes _ => ⟨bytes, rfl⟩

def keyedDict : PyObject (List UInt8) :=
  .dict [(.unicode [0x41], .tuple [.int 1, .int 2]), (.int 1, .none)]

theorem decodesAlike_keyedDict :
    DecodesAlike CPython.hashing (fun _ => 0) .zeroFilled
      ⟨List.replicate 9 0, 0, by decide, by decide⟩ [keyedDict] := by
  have hsized : PyObject.SizedItems CPython.hashing [keyedDict] := by
    simp [keyedDict, PyObject.SizedItems, PyObject.SizedPairs, PyObject.Sized, CPython.hashing]
  have hsent : PyObject.KeysSentItems CPython.hashing (fun _ => 0) PyObject.sameKey
      [keyedDict] := by
    refine ⟨⟨⟨[.unicode [0x41], .int 1], rfl, ?_⟩, ⟨trivial, trivial, trivial⟩, trivial,
      trivial⟩, trivial⟩
    simp [PyObject.sameKey]
  exact (decodesAlike_iff CPython.hashing_setsItems CPython.hashing_decodesStrings
    (n := 9) (by decide) (by decide) rfl rfl).mpr ⟨hsized, hsent⟩

def tupleKeyDict : PyObject (List UInt8) := .dict [(.tuple [.int 1, .int 2], .none)]

theorem not_decodesAlike_tupleKeyDict :
    pytvnLengthTuple CPython.hashing (fun _ => 0) [tupleKeyDict] = some 5 ∧
      ¬ DecodesAlike CPython.hashing (fun _ => 0) .zeroFilled
        ⟨List.replicate 5 0, 0, by decide, by decide⟩ [tupleKeyDict] := by
  refine ⟨by decide, fun h => ?_⟩
  obtain ⟨-, ⟨⟨sent, hkeys, -⟩, -⟩, -⟩ :=
    keysSent_of_decodesAlike CPython.hashing_setsItems rfl rfl rfl h
  cases sent with
  | nil => cases hkeys
  | cons key sent => cases hkeys

end Libtvnet
