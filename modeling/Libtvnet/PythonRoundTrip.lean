import Libtvnet.PythonEncode
import Libtvnet.PythonRun
import Libtvnet.TokenCodec

/-!
# Pickling and unpickling Python objects

The objects that the format has a token for come back as they were, one call
of `pytvn_decode_recurse` for each of them, whatever follows them.
-/

namespace Libtvnet

open Libtvnet.Foundation

variable {Unicode : Type}

/-- Dictionaries are taken as the lists of their items: setting an item adds it. -/
def CPython.OrderedDicts (python : CPython Unicode) : Prop :=
  ∀ items key value, python.dictSetItem items key value = some (items ++ [(key, value)])

namespace PyObject

variable (python : CPython Unicode)

mutual

/--
A tree of null, integers, floats that are no integers, UTF-8 strings, binary
strings, lists and dictionaries.
-/
def IsTree : PyObject Unicode → Prop
  | none | int _ | string _ => True
  | float x => x.integral = false
  | unicode u => ∃ bytes, python.asUTF8String u = some bytes ∧ python.decodeUTF8 bytes = some u
  | dict items => TreePairs items
  | list items => TreeItems items
  | _ => False

def TreeItems : List (PyObject Unicode) → Prop
  | [] => True
  | item :: items => IsTree item ∧ TreeItems items

def TreePairs : List (PyObject Unicode × PyObject Unicode) → Prop
  | [] => True
  | (key, value) :: items => IsTree key ∧ IsTree value ∧ TreePairs items

end

end PyObject

section Tokens

variable {python : CPython Unicode} (undefined : Binary64 → Int)

mutual

theorem PyObject.IsTree.tokens_eq_some : ∀ {o : PyObject Unicode}, o.IsTree python →
    ∃ ts, o.tokens python undefined = some ts
  | .none, _ | .int _, _ | .string _, _ | .float _, _ => ⟨_, rfl⟩
  | .unicode u, ⟨bytes, hutf8, _⟩ => ⟨[.utf8 bytes], by rw [PyObject.tokens, hutf8]; rfl⟩
  | .dict items, h => by
      obtain ⟨ts, hts⟩ := PyObject.TreePairs.tokens_eq_some h
      exact ⟨_, by rw [PyObject.tokens, hts]; rfl⟩
  | .list items, h => by
      obtain ⟨ts, hts⟩ := PyObject.TreeItems.tokens_eq_some h
      exact ⟨_, by rw [PyObject.tokens, hts]; rfl⟩

theorem PyObject.TreeItems.tokens_eq_some : ∀ {items : List (PyObject Unicode)},
    PyObject.TreeItems python items →
    ∃ ts, PyObject.tokensOfItems python undefined items = some ts
  | [], _ => ⟨[], rfl⟩
  | item :: items, h => by
      obtain ⟨ts, hts⟩ := PyObject.IsTree.tokens_eq_some h.1
      obtain ⟨us, hus⟩ := PyObject.TreeItems.tokens_eq_some h.2
      exact ⟨ts ++ us, by rw [PyObject.tokensOfItems, hts, hus]; rfl⟩

theorem PyObject.TreePairs.tokens_eq_some :
    ∀ {items : List (PyObject Unicode × PyObject Unicode)}, PyObject.TreePairs python items →
    ∃ ts, PyObject.tokensOfPairs python undefined items = some ts
  | [], _ => ⟨[], rfl⟩
  | (key, value) :: items, h => by
      obtain ⟨ts, hts⟩ := PyObject.IsTree.tokens_eq_some h.1
      obtain ⟨us, hus⟩ := PyObject.IsTree.tokens_eq_some h.2.1
      obtain ⟨vs, hvs⟩ := PyObject.TreePairs.tokens_eq_some h.2.2
      exact ⟨ts ++ us ++ vs, by rw [PyObject.tokensOfPairs, hts, hus, hvs]; rfl⟩

end

end Tokens

/-! ## A pickled object lies in the buffer -/

section Lies

variable {python : CPython Unicode} {undefined : Binary64 → Int}
  (indeterminate : TvnpToken)

theorem span_of_prefix {token : TvnpToken} {data string : List UInt8}
    (hu : token.u = string.length) (h : string <+: data.drop token.data) :
    token.span data = string := by
  obtain ⟨suffix, hsuffix⟩ := h
  rw [TvnpToken.span, ← hsuffix, hu, List.take_left]

private theorem lies_leaf {b : TvuBuffer} {t : Token} {suffix : List UInt8}
    {o : PyObject Unicode} (hvalid : t.Valid) (h : b.rest = wire [t] ++ suffix)
    (hleaf : ∀ token : TvnpToken, token.Denotes b.data t → token.leaf python b.data = some o) :
    Lies python indeterminate b o (b.skip (wire [t]).length) := by
  rw [wire_cons, wire_nil, List.append_nil] at h ⊢
  obtain ⟨token, htoken, hdenotes⟩ := tvnpDecodeToken_bytes indeterminate hvalid h
  exact .leaf htoken (hleaf token hdenotes)

mutual

theorem lies_of_wire (hdicts : python.OrderedDicts) :
    ∀ {o : PyObject Unicode} {ts : List Token} {b : TvuBuffer} {suffix : List UInt8},
    o.IsTree python → o.Sized python → o.tokens python undefined = some ts →
    b.rest = wire ts ++ suffix → Lies python indeterminate b o (b.skip (wire ts).length)
  | .none, _, b, suffix, _, _, hts, h => by
      obtain rfl := Option.some.inj hts
      refine lies_leaf indeterminate trivial h fun token htype => ?_
      simp only [TvnpToken.Denotes] at htype
      simp only [TvnpToken.leaf, htype]
  | .int x, _, b, suffix, _, _, hts, h => by
      obtain rfl := Option.some.inj hts
      refine lies_leaf indeterminate trivial h fun token ⟨htype, hi⟩ => ?_
      simp only [TvnpToken.leaf, htype, hi]
  | .float x, _, b, suffix, htree, _, hts, h => by
      have hintegral : x.integral = false := htree
      have hfloat : Token.ofDouble undefined x = .float x := by
        rw [Token.ofDouble, if_neg (by simp [hintegral])]
      obtain rfl := Option.some.inj hts
      rw [hfloat] at h ⊢
      refine lies_leaf indeterminate hintegral h fun token ⟨htype, hf⟩ => ?_
      simp only [TvnpToken.leaf, htype, hf]
  | .string bytes, _, b, suffix, _, hsized, hts, h => by
      obtain rfl := Option.some.inj hts
      refine lies_leaf indeterminate hsized h fun token ⟨htype, hu, hprefix⟩ => ?_
      simp only [TvnpToken.leaf, htype, span_of_prefix hu hprefix]
  | .unicode u, _, b, suffix, ⟨bytes, hutf8, hdecode⟩, hsized, hts, h => by
      rw [PyObject.tokens, hutf8] at hts
      obtain rfl := Option.some.inj hts
      refine lies_leaf indeterminate (hsized bytes hutf8) h
        fun token ⟨htype, hu, hprefix⟩ => ?_
      have hspan := span_of_prefix hu ((List.prefix_append bytes [0]).trans hprefix)
      simp only [TvnpToken.leaf, htype, hspan, hdecode, Option.map_some]
  | .list items, _, b, suffix, htree, hsized, hts, h => by
      rw [PyObject.tokens] at hts
      obtain ⟨us, hus, rfl⟩ := Option.map_eq_some_iff.mp hts
      rw [wire_cons, List.append_assoc] at h
      obtain ⟨token, htoken, htype, hu⟩ :=
        tvnpDecodeToken_bytes indeterminate (t := .list items.length) hsized.1 h
      have hitems := lie_of_wire hdicts htree hsized.2 hus (TvuBuffer.rest_skip h)
      rw [wire_cons, List.length_append, ← TvuBuffer.skip_skip]
      exact .list htoken htype (by rw [hu]; exact hitems)
  | .dict items, _, b, suffix, htree, hsized, hts, h => by
      rw [PyObject.tokens] at hts
      obtain ⟨us, hus, rfl⟩ := Option.map_eq_some_iff.mp hts
      rw [wire_cons, List.append_assoc] at h
      obtain ⟨token, htoken, htype, hu⟩ :=
        tvnpDecodeToken_bytes indeterminate (t := .dictionary items.length) hsized.1 h
      have hpairs := liePairs_of_wire hdicts [] htree hsized.2 hus (TvuBuffer.rest_skip h)
      rw [wire_cons, List.length_append, ← TvuBuffer.skip_skip]
      exact .dict htoken htype (by rw [hu]; exact hpairs)

private theorem lie_of_wire (hdicts : python.OrderedDicts) :
    ∀ {items : List (PyObject Unicode)} {ts : List Token} {b : TvuBuffer}
    {suffix : List UInt8},
    PyObject.TreeItems python items → PyObject.SizedItems python items →
    PyObject.tokensOfItems python undefined items = some ts → b.rest = wire ts ++ suffix →
    LieItems python indeterminate items.length b items (b.skip (wire ts).length)
  | [], _, b, suffix, _, _, hts, _ => by
      obtain rfl := Option.some.inj hts
      simp only [wire_nil, List.length_nil, TvuBuffer.skip_zero]
      exact .nil
  | item :: items, _, b, suffix, htree, hsized, hts, h => by
      rw [PyObject.tokensOfItems] at hts
      obtain ⟨us, hus, hts⟩ := Option.bind_eq_some_iff.mp hts
      obtain ⟨vs, hvs, hts⟩ := Option.bind_eq_some_iff.mp hts
      obtain rfl := Option.some.inj hts
      rw [wire_append, List.append_assoc] at h
      have hfirst := lies_of_wire hdicts htree.1 hsized.1 hus h
      have hrest := lie_of_wire hdicts htree.2 hsized.2 hvs (TvuBuffer.rest_skip h)
      rw [wire_append, List.length_append, ← TvuBuffer.skip_skip]
      exact .cons hfirst hrest

private theorem liePairs_of_wire (hdicts : python.OrderedDicts) :
    ∀ {items : List (PyObject Unicode × PyObject Unicode)}
    (done : List (PyObject Unicode × PyObject Unicode)) {ts : List Token}
    {b : TvuBuffer} {suffix : List UInt8},
    PyObject.TreePairs python items → PyObject.SizedPairs python items →
    PyObject.tokensOfPairs python undefined items = some ts → b.rest = wire ts ++ suffix →
    LiePairs python indeterminate items.length done b (done ++ items)
      (b.skip (wire ts).length)
  | [], done, _, b, suffix, _, _, hts, _ => by
      obtain rfl := Option.some.inj hts
      simp only [wire_nil, List.length_nil, TvuBuffer.skip_zero, List.append_nil]
      exact .nil
  | (key, value) :: items, done, _, b, suffix, htree, hsized, hts, h => by
      rw [PyObject.tokensOfPairs] at hts
      obtain ⟨us, hus, hts⟩ := Option.bind_eq_some_iff.mp hts
      obtain ⟨vs, hvs, hts⟩ := Option.bind_eq_some_iff.mp hts
      obtain ⟨ws, hws, hts⟩ := Option.bind_eq_some_iff.mp hts
      obtain rfl := Option.some.inj hts
      rw [wire_append, wire_append, List.append_assoc, List.append_assoc] at h
      have hkey := lies_of_wire hdicts htree.1 hsized.1 hus h
      have hnext := TvuBuffer.rest_skip h
      have hvalue := lies_of_wire hdicts htree.2.1 hsized.2.1 hvs hnext
      have hrest := liePairs_of_wire hdicts (done ++ [(key, value)]) htree.2.2 hsized.2.2 hws
        (TvuBuffer.rest_skip hnext)
      rw [wire_append, wire_append, List.length_append, List.length_append,
        ← TvuBuffer.skip_skip, ← TvuBuffer.skip_skip]
      rw [List.append_assoc] at hrest
      exact .cons hkey hvalue (hdicts done key value) hrest

end

end Lies

/-! ## The round trip -/

/-- `n` calls of `pytvn_decode_recurse`, none of which answers NULL. -/
def pytvnDecodeEach (python : CPython Unicode) (indeterminate : TvnpToken) (fuel : Nat) :
    Nat → TvuBuffer → Option (List (PyObject Unicode) × TvuBuffer)
  | 0, buffer => some ([], buffer)
  | n + 1, buffer => do
      let run ← pytvnDecodeRecurse python indeterminate fuel buffer
      let object ← run.result
      let (objects, buffer) ← pytvnDecodeEach python indeterminate fuel n run.buffer
      some (object :: objects, buffer)

private theorem pytvnDecodeEach_of_lie {python : CPython Unicode} {indeterminate : TvnpToken}
    {fuel : Nat} : ∀ {n : Nat} {b b' : TvuBuffer} {items : List (PyObject Unicode)},
    LieItems python indeterminate n b items b' → Fueled fuel b →
    pytvnDecodeEach python indeterminate fuel n b = some (items, b')
  | _, _, _, _, .nil, _ => rfl
  | _, _, _, _, .cons hfirst hrest, hfueled => by
      obtain ⟨run, hrun, hadvance, -, -⟩ :=
        pytvnDecodeRecurse_outcome python indeterminate fuel hfueled
      obtain ⟨hresult, rfl⟩ := pytvnDecodeRecurse_of_lies hfirst hrun
      have hothers := pytvnDecodeEach_of_lie hrest (hfueled.advance (hadvance _ hresult))
      simp only [pytvnDecodeEach, hrun, hresult, hothers, Option.bind_eq_bind, Option.bind_some]

/--
Trees are encoded to bytes from which, whatever follows them, the same trees
are decoded, up to the last of these bytes.
-/
theorem pytvnDecodeEach_pytvnEncodeTuple {python : CPython Unicode}
    (undefined : Binary64 → Int) (indeterminate : TvnpToken)
    {objects : List (PyObject Unicode)} (hdicts : python.OrderedDicts)
    (htree : PyObject.TreeItems python objects) (hsized : PyObject.SizedItems python objects) :
    ∃ encoding : List UInt8,
      (∀ state : EncodeState,
        state.buffer.offset + encoding.length ≤ state.buffer.size →
        ∃ c, pytvnEncodeTuple python undefined state objects =
            some { state with buffer := c } ∧
          c.offset = state.buffer.offset + encoding.length ∧
          c.data = state.buffer.data.take state.buffer.offset ++ encoding ++
            state.buffer.data.drop (state.buffer.offset + encoding.length)) ∧
      ∀ (b : TvuBuffer) (suffix : List UInt8), b.offset ≤ b.size →
        b.rest = encoding ++ suffix →
        ∃ b', pytvnDecodeEach python indeterminate (b.size + 2) objects.length b =
            some (objects, b') ∧
          b'.data = b.data ∧ b'.offset = b.offset + encoding.length ∧
          (suffix = [] → ∃ token, tvnpDecodeToken indeterminate b' = some (token, b') ∧
            token.type = .tokenEnd) := by
  obtain ⟨ts, hts⟩ := htree.tokens_eq_some undefined
  refine ⟨wire ts, fun state hroom => ?_, fun b suffix hoffset hrest => ?_⟩
  · obtain ⟨c, hc, hend, hdata⟩ := TvuBuffer.append_eq_some hroom
    refine ⟨c, ?_, hend, hdata⟩
    rw [pytvnEncodeTuple, pytvnEncodeItems_eq_append state hsized hts]
    simp [EncodeState.append, EncodeState.encode, hc]
  · have hlie := lie_of_wire indeterminate hdicts htree hsized hts hrest
    have hend : (b.skip (wire ts).length).offset = b.offset + (wire ts).length := by
      apply TvuBuffer.offset_skip_of_le
      have hlength := congrArg List.length hrest
      rw [TvuBuffer.length_rest, List.length_append] at hlength
      omega
    refine ⟨b.skip (wire ts).length, pytvnDecodeEach_of_lie hlie ⟨by omega, by omega⟩, rfl,
      hend, ?_⟩
    rintro rfl
    have hlength := congrArg List.length hrest
    rw [TvuBuffer.length_rest, List.append_nil] at hlength
    refine ⟨_, tvnpDecodeToken_end indeterminate (TvuBuffer.rest_skip hrest) ?_, rfl⟩
    rw [hend, TvuBuffer.size_skip]
    omega

theorem pytvnDecodeEach_sampleDict :
    ∃ encoding : List UInt8, ∀ (b : TvuBuffer) (suffix : List UInt8), b.offset ≤ b.size →
      b.rest = encoding ++ suffix →
      ∃ b', pytvnDecodeEach CPython.ofBytes .zeroFilled (b.size + 2) 1 b =
        some ([sampleDict], b') := by
  have hdicts : CPython.ofBytes.OrderedDicts := fun _ _ _ => rfl
  have htree : PyObject.TreeItems CPython.ofBytes [sampleDict] := by
    simp [sampleDict, PyObject.TreeItems, PyObject.TreePairs, PyObject.IsTree, CPython.ofBytes]
  have hsized : PyObject.SizedItems CPython.ofBytes [sampleDict] := by
    simp [sampleDict, PyObject.SizedItems, PyObject.SizedPairs, PyObject.Sized,
      CPython.ofBytes]
  obtain ⟨encoding, -, hdecode⟩ := pytvnDecodeEach_pytvnEncodeTuple (fun _ => 0) .zeroFilled
    hdicts htree hsized
  refine ⟨encoding, fun b suffix hoffset hrest => ?_⟩
  obtain ⟨b', hrun, -⟩ := hdecode b suffix hoffset hrest
  exact ⟨b', hrun⟩

end Libtvnet
