import Libtvnet.EndOfData
import Libtvnet.PythonRoundTrip

/-!
# What comes back from Python objects

Encoding joins types: a tuple and a set become a list, a byte array becomes a
string, a whole float becomes an integer.  What the decoder makes of the bytes
of an object is computed here from the object, failures of the interpreter
included.
-/

namespace Libtvnet

open Libtvnet.Foundation

variable {Unicode : Type}

namespace PyObject

variable (python : CPython Unicode) (undefined : Binary64 → Int)

mutual

/-- The object that comes back, or `none` for NULL. -/
def decoded : PyObject Unicode → Option (PyObject Unicode)
  | none => some none
  | int x => some (int x)
  | float x =>
      some (if x.integral then int (Int64.ofInt (IntegerType.int64.ofBinary undefined x))
        else float x)
  | string bytes | byteArray bytes => some (string (Token.narrowString bytes))
  | unicode u => do
      let bytes ← python.asUTF8String u
      let u ← python.decodeUTF8 (Token.narrowString bytes)
      some (unicode u)
  | dict items => (decodedPairs [] items).map dict
  | list items | tuple items | set items => (decodedItems items).map list
  | endOfData | other => .none

def decodedItems : List (PyObject Unicode) → Option (List (PyObject Unicode))
  | [] => some []
  | item :: items => do
      let object ← decoded item
      let objects ← decodedItems items
      some (object :: objects)

def decodedPairs (entries : List (PyObject Unicode × PyObject Unicode)) :
    List (PyObject Unicode × PyObject Unicode) →
      Option (List (PyObject Unicode × PyObject Unicode))
  | [] => some entries
  | (key, value) :: items => do
      let key ← decoded key
      let value ← decoded value
      let entries ← python.dictSetItem entries key value
      decodedPairs entries items

end

mutual

def Counted : PyObject Unicode → Prop
  | dict items => items.length < 2 ^ 32 ∧ CountedPairs items
  | list items | tuple items | set items => items.length < 2 ^ 32 ∧ CountedItems items
  | _ => True

def CountedItems : List (PyObject Unicode) → Prop
  | [] => True
  | item :: items => Counted item ∧ CountedItems items

def CountedPairs : List (PyObject Unicode × PyObject Unicode) → Prop
  | [] => True
  | (key, value) :: items => Counted key ∧ Counted value ∧ CountedPairs items

end

def IsContainer : PyObject Unicode → Prop
  | list _ | dict _ => True
  | _ => False

end PyObject

/-! ## Decoding the bytes of an object -/

section Decode

variable {python : CPython Unicode} {undefined : Binary64 → Int} {indeterminate : TvnpToken}

def Returns {α : Type} (run : DecodeRun Unicode α) (result : Option α) (b : TvuBuffer)
    (ts : List Token) : Prop :=
  run.result = result ∧
    ∀ object, run.result = some object → run.buffer = b.skip (wire (ts.map Token.narrow)).length

private theorem returns_leaf {fuel : Nat} {b : TvuBuffer} {t : Token} {ts : List Token}
    {suffix : List UInt8} {run : DecodeRun Unicode (PyObject Unicode)}
    {result : Option (PyObject Unicode)} (hnarrow : ts.map Token.narrow = [t]) (hvalid : t.Valid)
    (ht : (∀ n, t ≠ .list n) ∧ ∀ n, t ≠ .dictionary n)
    (h : b.rest = wire (ts.map Token.narrow) ++ suffix)
    (hrun : pytvnDecodeRecurse python indeterminate fuel b = some run)
    (hleaf : ∀ token : TvnpToken, token.Denotes b.data t → token.leaf python b.data = result) :
    Returns run result b ts := by
  rw [Returns, hnarrow]
  rw [hnarrow, wire_cons, wire_nil, List.append_nil] at h
  obtain ⟨token, htoken, hdenotes⟩ := tvnpDecodeToken_bytes indeterminate hvalid h
  have htype : token.type ≠ .tokenEnd ∧ token.type ≠ .tokenList ∧
      token.type ≠ .tokenDictionary := by
    cases t with
    | list n => exact absurd rfl (ht.1 n)
    | dictionary n => exact absurd rfl (ht.2 n)
    | null => simp [show token.type = .tokenNull from hdenotes]
    | integer x => simp [hdenotes.1]
    | float x => simp [hdenotes.1]
    | utf8 string => simp [hdenotes.1]
    | binary string => simp [hdenotes.1]
  obtain ⟨hresult, hbuffer⟩ := pytvnDecodeRecurse_of_leaf htoken htype hrun
  refine ⟨hresult.trans (hleaf token hdenotes), fun _ _ => ?_⟩
  rw [hbuffer, wire_cons, wire_nil, List.append_nil]

private theorem skip_wire_append (b : TvuBuffer) (us vs : List Token) :
    (b.skip (wire (us.map Token.narrow)).length).skip (wire (vs.map Token.narrow)).length =
      b.skip (wire ((us ++ vs).map Token.narrow)).length := by
  rw [List.map_append, wire_append, List.length_append, TvuBuffer.skip_skip]

private theorem exists_header (indeterminate : TvnpToken) {b : TvuBuffer} {t : Token}
    {us : List Token} {suffix : List UInt8} (hvalid : t.Valid)
    (h : b.rest = wire ((t :: us).map Token.narrow) ++ suffix) :
    ∃ token, tvnpDecodeToken indeterminate b = some (token, b.skip t.bytes.length) ∧
      token.Denotes b.data t ∧
      (b.skip t.bytes.length).rest = wire (us.map Token.narrow) ++ suffix := by
  rw [List.map_cons, Token.narrow_of_valid hvalid, wire_cons, List.append_assoc] at h
  obtain ⟨token, htoken, hdenotes⟩ := tvnpDecodeToken_bytes indeterminate hvalid h
  exact ⟨token, htoken, hdenotes, TvuBuffer.rest_skip h⟩

private theorem Returns.container {α : Type} {run : DecodeRun Unicode α} {result : Option α}
    {b : TvuBuffer} {t : Token} {us : List Token} (hvalid : t.Valid)
    (h : Returns run result (b.skip t.bytes.length) us) (object : α → PyObject Unicode) :
    Returns (run.map object) (result.map object) b (t :: us) := by
  obtain ⟨hresult, hbuffer⟩ := h
  constructor
  · rw [DecodeRun.map, hresult]
  · intro container hcontainer
    obtain ⟨items, hitems, -⟩ := Option.map_eq_some_iff.mp hcontainer
    rw [List.map_cons, Token.narrow_of_valid hvalid, wire_cons, List.length_append,
      ← TvuBuffer.skip_skip]
    exact hbuffer items hitems

mutual

private theorem decodeRecurse_of_wire : ∀ {fuel : Nat} {o : PyObject Unicode} {ts : List Token}
    {b : TvuBuffer} {suffix : List UInt8} {run : DecodeRun Unicode (PyObject Unicode)},
    o.Counted → o.tokens python undefined = some ts →
    b.rest = wire (ts.map Token.narrow) ++ suffix →
    pytvnDecodeRecurse python indeterminate fuel b = some run →
    Returns run (o.decoded python undefined) b ts
  | _, .endOfData, _, _, _, _, _, hts, _, _ => by simp [PyObject.tokens] at hts
  | _, .other, _, _, _, _, _, hts, _, _ => by simp [PyObject.tokens] at hts
  | _, .none, _, b, _, run, _, hts, h, hrun => by
      obtain rfl := Option.some.inj hts
      refine returns_leaf (t := .null) rfl trivial (by simp) h hrun fun token htype => ?_
      simp only [TvnpToken.Denotes] at htype
      simp only [TvnpToken.leaf, htype, PyObject.decoded]
  | _, .int x, _, b, _, run, _, hts, h, hrun => by
      obtain rfl := Option.some.inj hts
      refine returns_leaf (t := .integer x) rfl trivial (by simp) h hrun
        fun token ⟨htype, hi⟩ => ?_
      simp only [TvnpToken.leaf, htype, hi, PyObject.decoded]
  | _, .float x, _, b, _, run, _, hts, h, hrun => by
      obtain rfl := Option.some.inj hts
      have hnarrow := congrArg (fun t => [t]) (Token.narrow_ofDouble undefined x)
      unfold Token.ofDouble at hnarrow h ⊢
      rw [PyObject.decoded]
      split_ifs at hnarrow h ⊢ with hintegral
      · refine returns_leaf hnarrow trivial (by simp) h hrun fun token ⟨htype, hi⟩ => ?_
        simp only [TvnpToken.leaf, htype, hi]
      · refine returns_leaf hnarrow (Bool.eq_false_iff.mpr hintegral) (by simp) h hrun
          fun token ⟨htype, hf⟩ => ?_
        simp only [TvnpToken.leaf, htype, hf]
  | _, .string bytes, _, b, _, run, _, hts, h, hrun
  | _, .byteArray bytes, _, b, _, run, _, hts, h, hrun => by
      obtain rfl := Option.some.inj hts
      refine returns_leaf (t := .binary (Token.narrowString bytes)) rfl
        (Token.length_narrowString_lt bytes) (by simp) h hrun
        fun token ⟨htype, hu, hprefix⟩ => ?_
      simp only [TvnpToken.leaf, htype, span_of_prefix hu hprefix, PyObject.decoded]
  | _, .unicode u, _, b, _, run, _, hts, h, hrun => by
      rw [PyObject.tokens] at hts
      obtain ⟨bytes, hutf8, rfl⟩ := Option.map_eq_some_iff.mp hts
      refine returns_leaf (t := .utf8 (Token.narrowString bytes)) rfl
        (Token.length_narrowString_lt bytes) (by simp) h hrun
        fun token ⟨htype, hu, hprefix⟩ => ?_
      have hspan := span_of_prefix hu ((List.prefix_append _ [0]).trans hprefix)
      simp only [TvnpToken.leaf, htype, hspan, PyObject.decoded, hutf8, Option.bind_eq_bind,
        Option.bind_some, Option.map_eq_bind]
      rfl
  | 0, .list _, _, _, _, _, _, _, _, hrun | 0, .tuple _, _, _, _, _, _, _, _, hrun
  | 0, .set _, _, _, _, _, _, _, _, hrun | 0, .dict _, _, _, _, _, _, _, _, hrun => by
      simp [pytvnDecodeRecurse] at hrun
  | fuel + 1, .list items, _, b, _, run, hcounted, hts, h, hrun
  | fuel + 1, .tuple items, _, b, _, run, hcounted, hts, h, hrun
  | fuel + 1, .set items, _, b, _, run, hcounted, hts, h, hrun => by
      rw [PyObject.tokens] at hts
      obtain ⟨us, hus, rfl⟩ := Option.map_eq_some_iff.mp hts
      have hvalid : (Token.list items.length).Valid := hcounted.1
      obtain ⟨token, htoken, ⟨htype, hu⟩, hrest⟩ :=
        exists_header indeterminate hvalid h
      simp only [pytvnDecodeRecurse, htoken, htype, hu, Option.bind_eq_bind,
        Option.bind_some] at hrun
      obtain ⟨itemsRun, hitemsRun, hrun⟩ := Option.bind_eq_some_iff.mp hrun
      have hitems := decodeItems_of_wire hcounted.2 hus hrest hitemsRun
      obtain rfl := Option.some.inj hrun
      rw [PyObject.decoded]
      exact hitems.container hvalid PyObject.list
  | fuel + 1, .dict items, _, b, _, run, hcounted, hts, h, hrun => by
      rw [PyObject.tokens] at hts
      obtain ⟨us, hus, rfl⟩ := Option.map_eq_some_iff.mp hts
      have hvalid : (Token.dictionary items.length).Valid := hcounted.1
      obtain ⟨token, htoken, ⟨htype, hu⟩, hrest⟩ :=
        exists_header indeterminate hvalid h
      simp only [pytvnDecodeRecurse, htoken, htype, hu, Option.bind_eq_bind,
        Option.bind_some] at hrun
      obtain ⟨pairsRun, hpairsRun, hrun⟩ := Option.bind_eq_some_iff.mp hrun
      have hpairs := decodePairs_of_wire hcounted.2 hus hrest hpairsRun
      obtain rfl := Option.some.inj hrun
      rw [PyObject.decoded]
      exact hpairs.container hvalid PyObject.dict

private theorem decodeItems_of_wire : ∀ {fuel : Nat} {items : List (PyObject Unicode)}
    {ts : List Token} {b : TvuBuffer} {suffix : List UInt8}
    {run : DecodeRun Unicode (List (PyObject Unicode))},
    PyObject.CountedItems items → PyObject.tokensOfItems python undefined items = some ts →
    b.rest = wire (ts.map Token.narrow) ++ suffix →
    pytvnDecodeItems (pytvnDecodeRecurse python indeterminate fuel) items.length b = some run →
    Returns run (PyObject.decodedItems python undefined items) b ts
  | _, [], _, _, _, _, _, hts, _, hrun => by
      obtain rfl := Option.some.inj hts
      obtain rfl := Option.some.inj hrun
      exact ⟨rfl, fun _ _ => (TvuBuffer.skip_zero _).symm⟩
  | _, item :: items, _, b, _, run, hcounted, hts, h, hrun => by
      rw [PyObject.tokensOfItems] at hts
      obtain ⟨us, hus, hts⟩ := Option.bind_eq_some_iff.mp hts
      obtain ⟨vs, hvs, hts⟩ := Option.bind_eq_some_iff.mp hts
      obtain rfl := Option.some.inj hts
      rw [List.map_append, wire_append, List.append_assoc] at h
      rw [List.length_cons, pytvnDecodeItems] at hrun
      obtain ⟨first, hfirst, hrun⟩ := Option.bind_eq_some_iff.mp hrun
      obtain ⟨hresult, hbuffer⟩ := decodeRecurse_of_wire hcounted.1 hus h hfirst
      rw [PyObject.decodedItems, ← hresult]
      cases hobject : first.result with
      | none =>
          simp only [hobject] at hrun
          obtain rfl := Option.some.inj hrun
          exact ⟨rfl, nofun⟩
      | some object =>
          simp only [hobject, hbuffer object hobject] at hrun
          obtain ⟨rest, hrest, hrun⟩ := Option.bind_eq_some_iff.mp hrun
          obtain ⟨hrestResult, hrestBuffer⟩ :=
            decodeItems_of_wire hcounted.2 hvs (TvuBuffer.rest_skip h) hrest
          obtain rfl := Option.some.inj hrun
          rw [← hrestResult]
          refine ⟨Option.map_eq_bind, fun objects hobjects => ?_⟩
          obtain ⟨others, hothers, -⟩ := Option.map_eq_some_iff.mp hobjects
          rw [← skip_wire_append]
          exact hrestBuffer others hothers

private theorem decodePairs_of_wire : ∀ {fuel : Nat}
    {items entries : List (PyObject Unicode × PyObject Unicode)}
    {ts : List Token} {b : TvuBuffer} {suffix : List UInt8}
    {run : DecodeRun Unicode (List (PyObject Unicode × PyObject Unicode))},
    PyObject.CountedPairs items → PyObject.tokensOfPairs python undefined items = some ts →
    b.rest = wire (ts.map Token.narrow) ++ suffix →
    pytvnDecodePairs python (pytvnDecodeRecurse python indeterminate fuel) items.length entries b =
      some run →
    Returns run (PyObject.decodedPairs python undefined entries items) b ts
  | _, [], _, _, _, _, _, _, hts, _, hrun => by
      obtain rfl := Option.some.inj hts
      obtain rfl := Option.some.inj hrun
      exact ⟨rfl, fun _ _ => (TvuBuffer.skip_zero _).symm⟩
  | _, (key, value) :: items, entries, _, b, _, run, hcounted, hts, h, hrun => by
      rw [PyObject.tokensOfPairs] at hts
      obtain ⟨us, hus, hts⟩ := Option.bind_eq_some_iff.mp hts
      obtain ⟨vs, hvs, hts⟩ := Option.bind_eq_some_iff.mp hts
      obtain ⟨ws, hws, hts⟩ := Option.bind_eq_some_iff.mp hts
      obtain rfl := Option.some.inj hts
      rw [List.map_append, List.map_append, wire_append, wire_append, List.append_assoc,
        List.append_assoc] at h
      rw [List.length_cons, pytvnDecodePairs] at hrun
      obtain ⟨keyRun, hkeyRun, hrun⟩ := Option.bind_eq_some_iff.mp hrun
      obtain ⟨hkeyResult, hkeyBuffer⟩ := decodeRecurse_of_wire hcounted.1 hus h hkeyRun
      rw [PyObject.decodedPairs, ← hkeyResult]
      cases hkey : keyRun.result with
      | none =>
          simp only [hkey] at hrun
          obtain rfl := Option.some.inj hrun
          exact ⟨rfl, nofun⟩
      | some key' =>
          have hnext := TvuBuffer.rest_skip h
          simp only [hkey, hkeyBuffer key' hkey] at hrun
          obtain ⟨valueRun, hvalueRun, hrun⟩ := Option.bind_eq_some_iff.mp hrun
          obtain ⟨hvalueResult, hvalueBuffer⟩ :=
            decodeRecurse_of_wire hcounted.2.1 hvs hnext hvalueRun
          simp only [Option.bind_eq_bind, Option.bind_some, ← hvalueResult]
          cases hvalue : valueRun.result with
          | none =>
              simp only [hvalue] at hrun
              obtain rfl := Option.some.inj hrun
              exact ⟨rfl, nofun⟩
          | some value' =>
              simp only [hvalue, hvalueBuffer value' hvalue] at hrun
              simp only [Option.bind_some]
              cases hset : python.dictSetItem entries key' value' with
              | none =>
                  simp only [hset] at hrun
                  obtain rfl := Option.some.inj hrun
                  exact ⟨rfl, nofun⟩
              | some entries' =>
                  simp only [hset] at hrun
                  obtain ⟨rest, hrest, hrun⟩ := Option.bind_eq_some_iff.mp hrun
                  obtain ⟨hrestResult, hrestBuffer⟩ :=
                    decodePairs_of_wire hcounted.2.2 hws (TvuBuffer.rest_skip hnext) hrest
                  obtain rfl := Option.some.inj hrun
                  refine ⟨hrestResult, fun objects hobjects => ?_⟩
                  rw [← skip_wire_append, ← skip_wire_append]
                  exact hrestBuffer objects hobjects

end

/-! ## The whole input -/

theorem PyObject.decoded_ne_endOfData {o : PyObject Unicode} :
    o.decoded python undefined ≠ some .endOfData := by
  intro h
  cases o with
  | float x =>
      rw [PyObject.decoded] at h
      split_ifs at h
      all_goals cases h
  | unicode u =>
      obtain ⟨bytes, -, h⟩ := Option.bind_eq_some_iff.mp h
      obtain ⟨u, -, h⟩ := Option.bind_eq_some_iff.mp h
      cases h
  | dict items | list items | tuple items | set items =>
      obtain ⟨_, -, h⟩ := Option.map_eq_some_iff.mp h
      cases h
  | _ => cases h

theorem decodeLoop_of_wire {fuel : Nat} : ∀ {items : List (PyObject Unicode)} {n : Nat}
    {ts : List Token} {b : TvuBuffer} {suffix : List UInt8}
    {run : DecodeRun Unicode (List (PyObject Unicode))},
    PyObject.CountedItems items → PyObject.tokensOfItems python undefined items = some ts →
    b.rest = wire (ts.map Token.narrow) ++ suffix →
    pytvnDecodeLoop (pytvnDecodeRecurse python indeterminate fuel) n b = some run →
    match PyObject.decodedItems python undefined items with
    | none => run.result = none
    | some objects => ∃ m rest,
        pytvnDecodeLoop (pytvnDecodeRecurse python indeterminate fuel) m
          (b.skip (wire (ts.map Token.narrow)).length) = some rest ∧
        run.result = rest.result.map (objects ++ ·)
  | [], n, _, b, _, run, _, hts, _, hrun => by
      obtain rfl := Option.some.inj hts
      refine ⟨n, run, ?_, ?_⟩
      · rw [List.map_nil, wire_nil, List.length_nil, TvuBuffer.skip_zero]
        exact hrun
      · cases run.result <;> rfl
  | item :: items, 0, _, _, _, _, _, _, _, hrun => by simp [pytvnDecodeLoop] at hrun
  | item :: items, n + 1, _, b, _, run, hcounted, hts, h, hrun => by
      rw [PyObject.tokensOfItems] at hts
      obtain ⟨us, hus, hts⟩ := Option.bind_eq_some_iff.mp hts
      obtain ⟨vs, hvs, hts⟩ := Option.bind_eq_some_iff.mp hts
      obtain rfl := Option.some.inj hts
      rw [List.map_append, wire_append, List.append_assoc] at h
      obtain ⟨first, hfirst, -⟩ := pytvnDecodeLoop_succ hrun
      obtain ⟨hresult, hbuffer⟩ := decodeRecurse_of_wire hcounted.1 hus h hfirst
      rw [PyObject.decodedItems, ← hresult]
      cases hobject : first.result with
      | none =>
          simp only [pytvnDecodeLoop, hfirst, hobject, Option.bind_eq_bind,
            Option.bind_some] at hrun
          obtain rfl := Option.some.inj hrun
          rfl
      | some object =>
          have hne : object ≠ .endOfData := by
            rintro rfl
            exact PyObject.decoded_ne_endOfData (hresult.symm.trans hobject)
          rw [pytvnDecodeLoop_object hfirst hobject hne, hbuffer object hobject] at hrun
          obtain ⟨rest, hrest, rfl⟩ := Option.map_eq_some_iff.mp hrun
          have hothers := decodeLoop_of_wire hcounted.2 hvs (TvuBuffer.rest_skip h) hrest
          simp only [Option.bind_eq_bind, Option.bind_some]
          cases hitems : PyObject.decodedItems python undefined items with
          | none =>
              rw [hitems] at hothers
              simp only [Option.bind_none]
              rw [DecodeRun.after, DecodeRun.map, hothers]
              rfl
          | some objects =>
              rw [hitems] at hothers
              obtain ⟨m, tail, htail, hothers⟩ := hothers
              refine ⟨m, tail, ?_, ?_⟩
              · rw [← skip_wire_append]
                exact htail
              · rw [DecodeRun.after, DecodeRun.map, hothers, Option.map_map]
                rfl

theorem pytvnDecodeRecurse_kind {fuel : Nat} {b : TvuBuffer}
    {run : DecodeRun Unicode (PyObject Unicode)} {object : PyObject Unicode}
    (hrun : pytvnDecodeRecurse python indeterminate fuel b = some run)
    (hresult : run.result = some object) :
    (object = .endOfData ∧ b.size ≤ b.offset) ∨ object.IsScalar ∨ object.IsContainer := by
  rcases Nat.lt_or_ge b.offset b.size with hlt | hend
  · cases fuel with
    | zero => simp [pytvnDecodeRecurse] at hrun
    | succ fuel =>
        obtain ⟨token, b', htoken, houtcome⟩ :=
          tvnpDecodeToken_outcome indeterminate (b := b) (by omega)
        have hnotEnd : token.type ≠ .tokenEnd := fun htype =>
          absurd (houtcome.tokenEnd_iff.mp htype) (Nat.not_le.mpr hlt)
        by_cases hleaf : token.type ≠ .tokenList ∧ token.type ≠ .tokenDictionary
        · obtain ⟨heq, -⟩ := pytvnDecodeRecurse_of_leaf htoken ⟨hnotEnd, hleaf⟩ hrun
          rw [hresult] at heq
          exact .inr (.inl (leaf_isScalar heq.symm))
        · simp only [pytvnDecodeRecurse, htoken, Option.bind_eq_bind, Option.bind_some] at hrun
          cases htype : token.type <;> simp only [htype, ne_eq, not_true_eq_false, false_and,
            and_false, not_false_eq_true, reduceCtorEq, and_self] at hleaf hrun
          all_goals
            obtain ⟨itemsRun, -, hrun⟩ := Option.bind_eq_some_iff.mp hrun
            obtain rfl := Option.some.inj hrun
            obtain ⟨_, -, rfl⟩ := Option.map_eq_some_iff.mp hresult
            exact .inr (.inr trivial)
  · obtain rfl := pytvnDecodeRecurse_exhausted hend hrun
    exact .inl ⟨(Option.some.inj hresult).symm, hend⟩

theorem pytvnDecodeLoop_tail {fuel n : Nat} {b : TvuBuffer}
    {run : DecodeRun Unicode (List (PyObject Unicode))}
    (hrun : pytvnDecodeLoop (pytvnDecodeRecurse python indeterminate fuel) n b = some run) :
    (b.size ≤ b.offset → run.result = some []) ∧
      (b.offset < b.size → run.result ≠ some []) := by
  cases n with
  | zero => simp [pytvnDecodeLoop] at hrun
  | succ n =>
      obtain ⟨first, hfirst, -⟩ := pytvnDecodeLoop_succ hrun
      constructor
      · intro hend
        obtain rfl := pytvnDecodeRecurse_exhausted hend hfirst
        simp only [pytvnDecodeLoop, hfirst, Option.bind_eq_bind, Option.bind_some] at hrun
        obtain rfl := Option.some.inj hrun
        rfl
      · intro hlt
        cases hobject : first.result with
        | none =>
            simp only [pytvnDecodeLoop, hfirst, hobject, Option.bind_eq_bind,
              Option.bind_some] at hrun
            obtain rfl := Option.some.inj hrun
            simp
        | some object =>
            have hne : object ≠ .endOfData := by
              rintro rfl
              rcases pytvnDecodeRecurse_kind hfirst hobject with ⟨-, hend⟩ | hscalar | hcontainer
              · exact absurd hlt (Nat.not_lt.mpr hend)
              · exact hscalar
              · exact hcontainer
            rw [pytvnDecodeLoop_object hfirst hobject hne] at hrun
            obtain ⟨rest, -, rfl⟩ := Option.map_eq_some_iff.mp hrun
            intro heq
            obtain ⟨_, -, h⟩ := Option.map_eq_some_iff.mp heq
            cases h

end Decode

end Libtvnet
