import Libtvnet.PythonDecode

/-!
# The objects that lie in a buffer

Which bytes stand for an object is said here without the recursion that
decodes them: an object lies between two positions, and a list or a dictionary
is cut where the input ends before all of its announced items.
-/

namespace Libtvnet

open Libtvnet.Foundation

variable {Unicode : Type} (python : CPython Unicode) (indeterminate : TvnpToken)

def TvnpToken.span (token : TvnpToken) (data : List UInt8) : List UInt8 :=
  (data.drop token.data).take token.u

def TvnpToken.leaf (token : TvnpToken) (data : List UInt8) : Option (PyObject Unicode) :=
  match token.type with
  | .tokenNull => some .none
  | .tokenInteger => some (.int token.i)
  | .tokenFloat => some (.float token.f)
  | .tokenUtf8String => (python.decodeUTF8 (token.span data)).map .unicode
  | .tokenBinString => some (.string (token.span data))
  | _ => none

mutual

inductive Lies : TvuBuffer → PyObject Unicode → TvuBuffer → Prop
  | leaf {b b' : TvuBuffer} {token : TvnpToken} {o : PyObject Unicode} :
      tvnpDecodeToken indeterminate b = some (token, b') →
      token.leaf python b'.data = some o → Lies b o b'
  | list {b b₁ b' : TvuBuffer} {token : TvnpToken} {items : List (PyObject Unicode)} :
      tvnpDecodeToken indeterminate b = some (token, b₁) → token.type = .tokenList →
      LieItems token.u b₁ items b' → Lies b (.list items) b'
  | dict {b b₁ b' : TvuBuffer} {token : TvnpToken}
      {items : List (PyObject Unicode × PyObject Unicode)} :
      tvnpDecodeToken indeterminate b = some (token, b₁) → token.type = .tokenDictionary →
      LiePairs token.u [] b₁ items b' → Lies b (.dict items) b'

inductive LieItems : Nat → TvuBuffer → List (PyObject Unicode) → TvuBuffer → Prop
  | nil {b : TvuBuffer} : LieItems 0 b [] b
  | cons {n : Nat} {b b₁ b' : TvuBuffer} {o : PyObject Unicode}
      {items : List (PyObject Unicode)} :
      Lies b o b₁ → LieItems n b₁ items b' → LieItems (n + 1) b (o :: items) b'

inductive LiePairs : Nat → List (PyObject Unicode × PyObject Unicode) → TvuBuffer →
    List (PyObject Unicode × PyObject Unicode) → TvuBuffer → Prop
  | nil {items : List (PyObject Unicode × PyObject Unicode)} {b : TvuBuffer} :
      LiePairs 0 items b items b
  | cons {n : Nat} {items items' items'' : List (PyObject Unicode × PyObject Unicode)}
      {b b₁ b₂ b' : TvuBuffer} {key value : PyObject Unicode} :
      Lies b key b₁ → Lies b₁ value b₂ →
      python.dictSetItem items key value = some items' →
      LiePairs n items' b₂ items'' b' → LiePairs (n + 1) items b items'' b'

end

mutual

/-- The list or dictionary at the buffer is cut: the input ends before its last item does. -/
inductive Cut : TvuBuffer → Prop
  | list {b b₁ : TvuBuffer} {token : TvnpToken} :
      tvnpDecodeToken indeterminate b = some (token, b₁) → token.type = .tokenList →
      CutItems token.u b₁ → Cut b
  | dict {b b₁ : TvuBuffer} {token : TvnpToken} :
      tvnpDecodeToken indeterminate b = some (token, b₁) → token.type = .tokenDictionary →
      CutPairs token.u [] b₁ → Cut b

inductive CutItems : Nat → TvuBuffer → Prop
  | here {n : Nat} {b : TvuBuffer} : b.size ≤ b.offset → CutItems (n + 1) b
  | inside {n : Nat} {b : TvuBuffer} : Cut b → CutItems (n + 1) b
  | later {n : Nat} {b b₁ : TvuBuffer} {o : PyObject Unicode} :
      Lies python indeterminate b o b₁ → CutItems n b₁ → CutItems (n + 1) b

inductive CutPairs : Nat → List (PyObject Unicode × PyObject Unicode) → TvuBuffer → Prop
  | key {n : Nat} {items : List (PyObject Unicode × PyObject Unicode)} {b : TvuBuffer} :
      b.size ≤ b.offset → CutPairs (n + 1) items b
  | insideKey {n : Nat} {items : List (PyObject Unicode × PyObject Unicode)}
      {b : TvuBuffer} : Cut b → CutPairs (n + 1) items b
  | value {n : Nat} {items : List (PyObject Unicode × PyObject Unicode)}
      {b b₁ : TvuBuffer} {key : PyObject Unicode} :
      Lies python indeterminate b key b₁ → b₁.size ≤ b₁.offset → CutPairs (n + 1) items b
  | insideValue {n : Nat} {items : List (PyObject Unicode × PyObject Unicode)}
      {b b₁ : TvuBuffer} {key : PyObject Unicode} :
      Lies python indeterminate b key b₁ → Cut b₁ → CutPairs (n + 1) items b
  | later {n : Nat} {items items' : List (PyObject Unicode × PyObject Unicode)}
      {b b₁ b₂ : TvuBuffer} {key value : PyObject Unicode} :
      Lies python indeterminate b key b₁ → Lies python indeterminate b₁ value b₂ →
      python.dictSetItem items key value = some items' →
      CutPairs n items' b₂ → CutPairs (n + 1) items b

end

inductive CutTuple : TvuBuffer → Prop
  | inside {b : TvuBuffer} : Cut python indeterminate b → CutTuple b
  | later {b b₁ : TvuBuffer} {o : PyObject Unicode} :
      Lies python indeterminate b o b₁ → CutTuple b₁ → CutTuple b

/-! ## Decoding what lies there -/

variable {python indeterminate}

theorem pytvnDecodeRecurse_of_leaf {b b' : TvuBuffer} {token : TvnpToken} {fuel : Nat}
    {run : DecodeRun Unicode (PyObject Unicode)}
    (htoken : tvnpDecodeToken indeterminate b = some (token, b'))
    (htype : token.type ≠ .tokenEnd ∧ token.type ≠ .tokenList ∧ token.type ≠ .tokenDictionary)
    (hrun : pytvnDecodeRecurse python indeterminate fuel b = some run) :
    run.result = token.leaf python b'.data ∧ run.buffer = b' := by
  cases fuel with
  | zero => simp [pytvnDecodeRecurse] at hrun
  | succ fuel =>
      simp only [pytvnDecodeRecurse, htoken, Option.bind_eq_bind, Option.bind_some] at hrun
      unfold TvnpToken.leaf
      obtain ⟨hend, hlist, hdict⟩ := htype
      cases hcase : token.type <;> simp only [hcase] at hend hlist hdict hrun ⊢
      case tokenEnd | tokenList | tokenDictionary => contradiction
      case tokenUtf8String | tokenBinString =>
        obtain ⟨bytes, hbytes, hrun⟩ := Option.bind_eq_some_iff.mp hrun
        unfold TvnpToken.bytes TvuBuffer.load at hbytes
        split at hbytes
        · obtain rfl := Option.some.inj hbytes
          obtain rfl := Option.some.inj hrun
          exact ⟨rfl, rfl⟩
        · contradiction
      all_goals
        obtain rfl := Option.some.inj hrun
        exact ⟨rfl, rfl⟩

private theorem pytvnDecodeRecurse_leaf {b b' : TvuBuffer} {token : TvnpToken}
    {o : PyObject Unicode} {fuel : Nat} {run : DecodeRun Unicode (PyObject Unicode)}
    (htoken : tvnpDecodeToken indeterminate b = some (token, b'))
    (hleaf : token.leaf python b'.data = some o)
    (hrun : pytvnDecodeRecurse python indeterminate fuel b = some run) :
    run.result = some o ∧ run.buffer = b' := by
  rw [← hleaf]
  refine pytvnDecodeRecurse_of_leaf htoken ⟨?_, ?_, ?_⟩ hrun
  all_goals
    intro htype
    simp [TvnpToken.leaf, htype] at hleaf

mutual

theorem pytvnDecodeRecurse_of_lies {fuel : Nat} : ∀ {b b' : TvuBuffer} {o : PyObject Unicode}
    {run : DecodeRun Unicode (PyObject Unicode)},
    Lies python indeterminate b o b' →
    pytvnDecodeRecurse python indeterminate fuel b = some run →
    run.result = some o ∧ run.buffer = b'
  | _, _, _, _, .leaf htoken hleaf, hrun => pytvnDecodeRecurse_leaf htoken hleaf hrun
  | _, _, _, _, .list htoken htype hitems, hrun => by
      cases fuel with
      | zero => simp [pytvnDecodeRecurse] at hrun
      | succ fuel =>
          simp only [pytvnDecodeRecurse, htoken, htype, Option.bind_eq_bind,
            Option.bind_some] at hrun
          obtain ⟨itemsRun, hitemsRun, hrun⟩ := Option.bind_eq_some_iff.mp hrun
          obtain ⟨hresult, hbuffer⟩ := pytvnDecodeItems_of_lie hitems hitemsRun
          obtain rfl := Option.some.inj hrun
          exact ⟨by rw [DecodeRun.map, hresult]; rfl, hbuffer⟩
  | _, _, _, _, .dict htoken htype hpairs, hrun => by
      cases fuel with
      | zero => simp [pytvnDecodeRecurse] at hrun
      | succ fuel =>
          simp only [pytvnDecodeRecurse, htoken, htype, Option.bind_eq_bind,
            Option.bind_some] at hrun
          obtain ⟨pairsRun, hpairsRun, hrun⟩ := Option.bind_eq_some_iff.mp hrun
          obtain ⟨hresult, hbuffer⟩ := pytvnDecodePairs_of_lie hpairs hpairsRun
          obtain rfl := Option.some.inj hrun
          exact ⟨by rw [DecodeRun.map, hresult]; rfl, hbuffer⟩

private theorem pytvnDecodeItems_of_lie {fuel : Nat} : ∀ {n : Nat} {b b' : TvuBuffer}
    {items : List (PyObject Unicode)} {run : DecodeRun Unicode (List (PyObject Unicode))},
    LieItems python indeterminate n b items b' →
    pytvnDecodeItems (pytvnDecodeRecurse python indeterminate fuel) n b =
      some run →
    run.result = some items ∧ run.buffer = b'
  | _, _, _, _, _, .nil, hrun => by
      obtain rfl := Option.some.inj hrun
      exact ⟨rfl, rfl⟩
  | _, _, _, _, _, .cons hfirst hrest, hrun => by
      rw [pytvnDecodeItems] at hrun
      obtain ⟨firstRun, hfirstRun, hrun⟩ := Option.bind_eq_some_iff.mp hrun
      obtain ⟨hresult, hbuffer⟩ := pytvnDecodeRecurse_of_lies hfirst hfirstRun
      simp only [hresult, hbuffer] at hrun
      obtain ⟨restRun, hrestRun, hrun⟩ := Option.bind_eq_some_iff.mp hrun
      obtain ⟨hrestResult, hrestBuffer⟩ := pytvnDecodeItems_of_lie hrest hrestRun
      obtain rfl := Option.some.inj hrun
      exact ⟨by simp [DecodeRun.after, DecodeRun.map, hrestResult], hrestBuffer⟩

private theorem pytvnDecodePairs_of_lie {fuel : Nat} : ∀ {n : Nat} {b b' : TvuBuffer}
    {items items' : List (PyObject Unicode × PyObject Unicode)}
    {run : DecodeRun Unicode (List (PyObject Unicode × PyObject Unicode))},
    LiePairs python indeterminate n items b items' b' →
    pytvnDecodePairs python (pytvnDecodeRecurse python indeterminate fuel) n
      items b = some run →
    run.result = some items' ∧ run.buffer = b'
  | _, _, _, _, _, _, .nil, hrun => by
      obtain rfl := Option.some.inj hrun
      exact ⟨rfl, rfl⟩
  | _, _, _, _, _, _, .cons hkey hvalue hset hrest, hrun => by
      rw [pytvnDecodePairs] at hrun
      obtain ⟨keyRun, hkeyRun, hrun⟩ := Option.bind_eq_some_iff.mp hrun
      obtain ⟨hkeyResult, hkeyBuffer⟩ := pytvnDecodeRecurse_of_lies hkey hkeyRun
      simp only [hkeyResult, hkeyBuffer] at hrun
      obtain ⟨valueRun, hvalueRun, hrun⟩ := Option.bind_eq_some_iff.mp hrun
      obtain ⟨hvalueResult, hvalueBuffer⟩ := pytvnDecodeRecurse_of_lies hvalue hvalueRun
      simp only [hvalueResult, hvalueBuffer, hset] at hrun
      obtain ⟨restRun, hrestRun, hrun⟩ := Option.bind_eq_some_iff.mp hrun
      obtain ⟨hrestResult, hrestBuffer⟩ := pytvnDecodePairs_of_lie hrest hrestRun
      obtain rfl := Option.some.inj hrun
      exact ⟨hrestResult, hrestBuffer⟩

end

end Libtvnet
