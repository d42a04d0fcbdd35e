import Libtvnet.PythonRun

/-!
# The end of the input inside a container

`(PyObject *)-1` is the answer of the recursion at the end of the input.  The
loops over lists and dictionaries test their items for NULL only, so a
container that is cut there is filled with the pointer.
-/

namespace Libtvnet

open Libtvnet.Foundation

variable {Unicode : Type} {python : CPython Unicode} {indeterminate : TvnpToken}

/-! ## Objects that lie in a buffer are real -/

def PyObject.IsScalar : PyObject Unicode → Prop
  | none | int _ | float _ | string _ | unicode _ => True
  | _ => False

theorem PyObject.IsScalar.isReal {o : PyObject Unicode} (h : o.IsScalar) : o.IsReal := by
  cases o <;> trivial

theorem leaf_isScalar {token : TvnpToken} {data : List UInt8} {o : PyObject Unicode}
    (h : token.leaf python data = some o) : o.IsScalar := by
  unfold TvnpToken.leaf at h
  split at h
  case h_4 =>
    obtain ⟨u, -, rfl⟩ := Option.map_eq_some_iff.mp h
    trivial
  all_goals
    first
    | contradiction
    | obtain rfl := Option.some.inj h
      trivial

mutual

theorem Lies.isReal : ∀ {b b' : TvuBuffer} {o : PyObject Unicode},
    Lies python indeterminate b o b' → o.IsReal
  | _, _, _, .leaf _ hleaf => (leaf_isScalar hleaf).isReal
  | _, _, _, .list _ _ hitems => hitems.realItems
  | _, _, _, .dict _ _ hpairs => hpairs.realPairs trivial

theorem LieItems.realItems : ∀ {n : Nat} {b b' : TvuBuffer} {items : List (PyObject Unicode)},
    LieItems python indeterminate n b items b' → PyObject.RealItems items
  | _, _, _, _, .nil => trivial
  | _, _, _, _, .cons hfirst hrest => ⟨hfirst.isReal, hrest.realItems⟩

theorem LiePairs.realPairs : ∀ {n : Nat} {b b' : TvuBuffer}
    {items items' : List (PyObject Unicode × PyObject Unicode)},
    LiePairs python indeterminate n items b items' b' →
    PyObject.RealPairs items → PyObject.RealPairs items'
  | _, _, _, _, _, .nil, h => h
  | _, _, _, _, _, .cons hkey hvalue hset hrest, h =>
      hrest.realPairs (python.realPairs_dictSetItem hset h hkey.isReal hvalue.isReal)

end

theorem Lies.ne_endOfData {b b' : TvuBuffer} {o : PyObject Unicode}
    (h : Lies python indeterminate b o b') : o ≠ .endOfData := by
  rintro rfl
  exact h.isReal

/-! ## A cut container is filled with the pointer -/

theorem pytvnDecodeRecurse_exhausted {fuel : Nat} {b : TvuBuffer}
    {run : DecodeRun Unicode (PyObject Unicode)} (hend : b.size ≤ b.offset)
    (hrun : pytvnDecodeRecurse python indeterminate fuel b = some run) :
    run = ⟨some .endOfData, b, []⟩ := by
  cases fuel with
  | zero => simp [pytvnDecodeRecurse] at hrun
  | succ fuel =>
      by_cases hover : b.overruns 1 = true
      · simp only [pytvnDecodeRecurse, tvnpDecodeToken, hover, if_true, Option.bind_eq_bind,
          Option.bind_some] at hrun
        exact (Option.some.inj hrun).symm
      · have hload : b.data[b.offset]? = none := List.getElem?_eq_none hend
        simp [pytvnDecodeRecurse, tvnpDecodeToken, hover, hload] at hrun

private theorem pytvnDecodeItems_succ {n : Nat} {b : TvuBuffer}
    {recurse : TvuBuffer → Option (DecodeRun Unicode (PyObject Unicode))}
    {run : DecodeRun Unicode (List (PyObject Unicode))}
    (h : pytvnDecodeItems recurse (n + 1) b = some run) :
    ∃ first, recurse b = some first ∧ first.events ⊆ run.events ∧
      ∀ object, first.result = some object → .setItem object ∈ run.events ∧
        ∃ rest, pytvnDecodeItems recurse n first.buffer = some rest ∧
          rest.events ⊆ run.events := by
  cases pytvnDecodeItems_succ_iff.mp h with
  | fails first hfirst hresult =>
      exact ⟨first, hfirst, List.subset_append_left _ _, by simp [hresult]⟩
  | sets first object rest hfirst hresult hrest =>
      refine ⟨first, hfirst,
        fun event hevent => List.mem_append_left _ (List.mem_append_left _ hevent), ?_⟩
      rw [hresult]
      rintro _ ⟨⟩
      exact ⟨by simp [DecodeRun.after], rest, hrest, List.subset_append_right _ _⟩

private theorem subset_pairEvents (keyRun valueRun : DecodeRun Unicode (PyObject Unicode))
    (key : PyObject Unicode) (events : List (DecodeEvent Unicode)) :
    keyRun.events ⊆ keyRun.events ++ .returned (some key) :: valueRun.events ++ events ∧
      valueRun.events ⊆ keyRun.events ++ .returned (some key) :: valueRun.events ++ events :=
  ⟨fun _ hevent => List.mem_append_left _ (List.mem_append_left _ hevent),
    fun _ hevent =>
      List.mem_append_left _ (List.mem_append_right _ (List.mem_cons_of_mem _ hevent))⟩

private theorem pytvnDecodePairs_succ {n : Nat} {items : List (PyObject Unicode × PyObject Unicode)}
    {b : TvuBuffer} {recurse : TvuBuffer → Option (DecodeRun Unicode (PyObject Unicode))}
    {run : DecodeRun Unicode (List (PyObject Unicode × PyObject Unicode))}
    (h : pytvnDecodePairs python recurse (n + 1) items b = some run) :
    ∃ keyRun, recurse b = some keyRun ∧ keyRun.events ⊆ run.events ∧
      ∀ key, keyRun.result = some key →
        ∃ valueRun, recurse keyRun.buffer = some valueRun ∧ valueRun.events ⊆ run.events ∧
          ∀ value, valueRun.result = some value → .dictSetItem key value ∈ run.events ∧
            ∀ items', python.dictSetItem items key value = some items' →
              ∃ rest, pytvnDecodePairs python recurse n items' valueRun.buffer = some rest ∧
                rest.events ⊆ run.events := by
  cases pytvnDecodePairs_succ_iff.mp h with
  | keyFails keyRun hkeyRun hkey =>
      exact ⟨keyRun, hkeyRun, List.subset_append_left _ _, by simp [hkey]⟩
  | valueFails keyRun valueRun key hkeyRun hkey hvalueRun hvalue =>
      obtain ⟨hkeySub, hvalueSub⟩ := subset_pairEvents keyRun valueRun key [.returned none]
      refine ⟨keyRun, hkeyRun, hkeySub, ?_⟩
      rw [hkey]
      rintro _ ⟨⟩
      exact ⟨valueRun, hvalueRun, hvalueSub, by simp [hvalue]⟩
  | setFails keyRun valueRun key value hkeyRun hkey hvalueRun hvalue hset =>
      obtain ⟨hkeySub, hvalueSub⟩ := subset_pairEvents keyRun valueRun key
        [.returned (some value), .dictSetItem key value]
      refine ⟨keyRun, hkeyRun, hkeySub, ?_⟩
      rw [hkey]
      rintro _ ⟨⟩
      refine ⟨valueRun, hvalueRun, hvalueSub, ?_⟩
      rw [hvalue]
      rintro _ ⟨⟩
      exact ⟨by simp, by simp [hset]⟩
  | sets keyRun valueRun key value items' rest hkeyRun hkey hvalueRun hvalue hset hrest =>
      obtain ⟨hkeySub, hvalueSub⟩ := subset_pairEvents keyRun valueRun key
        [.returned (some value), .dictSetItem key value]
      refine ⟨keyRun, hkeyRun, List.subset_append_of_subset_left _ hkeySub, ?_⟩
      rw [hkey]
      rintro _ ⟨⟩
      refine ⟨valueRun, hvalueRun, List.subset_append_of_subset_left _ hvalueSub, ?_⟩
      rw [hvalue]
      rintro _ ⟨⟩
      refine ⟨by simp [DecodeRun.after], ?_⟩
      rw [hset]
      rintro _ ⟨⟩
      exact ⟨rest, hrest, List.subset_append_right _ _⟩

def UsesEndOfData (events : List (DecodeEvent Unicode)) : Prop :=
  ∃ event ∈ events, event.UsesEndOfData

theorem UsesEndOfData.mono {xs ys : List (DecodeEvent Unicode)} (h : UsesEndOfData xs)
    (hsub : xs ⊆ ys) : UsesEndOfData ys := by
  obtain ⟨event, hevent, huse⟩ := h
  exact ⟨event, hsub hevent, huse⟩

mutual

theorem Cut.usesEndOfData {fuel : Nat} : ∀ {b : TvuBuffer}
    {run : DecodeRun Unicode (PyObject Unicode)}, Cut python indeterminate b →
    pytvnDecodeRecurse python indeterminate fuel b = some run → UsesEndOfData run.events
  | _, _, .list htoken htype hcut, hrun => by
      cases fuel with
      | zero => simp [pytvnDecodeRecurse] at hrun
      | succ fuel =>
          simp only [pytvnDecodeRecurse, htoken, htype, Option.bind_eq_bind,
            Option.bind_some] at hrun
          obtain ⟨itemsRun, hitemsRun, hrun⟩ := Option.bind_eq_some_iff.mp hrun
          have huse := hcut.usesEndOfData hitemsRun
          obtain rfl := Option.some.inj hrun
          exact huse
  | _, _, .dict htoken htype hcut, hrun => by
      cases fuel with
      | zero => simp [pytvnDecodeRecurse] at hrun
      | succ fuel =>
          simp only [pytvnDecodeRecurse, htoken, htype, Option.bind_eq_bind,
            Option.bind_some] at hrun
          obtain ⟨pairsRun, hpairsRun, hrun⟩ := Option.bind_eq_some_iff.mp hrun
          have huse := hcut.usesEndOfData hpairsRun
          obtain rfl := Option.some.inj hrun
          exact huse

theorem CutItems.usesEndOfData {fuel : Nat} : ∀ {n : Nat} {b : TvuBuffer}
    {run : DecodeRun Unicode (List (PyObject Unicode))},
    CutItems python indeterminate n b →
    pytvnDecodeItems (pytvnDecodeRecurse python indeterminate fuel) n b = some run →
    UsesEndOfData run.events
  | _, _, _, .here hend, hrun => by
      obtain ⟨first, hfirst, -, hnext⟩ := pytvnDecodeItems_succ hrun
      obtain rfl := pytvnDecodeRecurse_exhausted hend hfirst
      exact ⟨_, (hnext _ rfl).1, rfl⟩
  | _, _, _, .inside hcut, hrun => by
      obtain ⟨first, hfirst, hsub, -⟩ := pytvnDecodeItems_succ hrun
      exact (hcut.usesEndOfData hfirst).mono hsub
  | _, _, _, .later hlies hcut, hrun => by
      obtain ⟨first, hfirst, -, hnext⟩ := pytvnDecodeItems_succ hrun
      obtain ⟨hresult, hbuffer⟩ := pytvnDecodeRecurse_of_lies hlies hfirst
      obtain ⟨-, rest, hrest, hsub⟩ := hnext _ hresult
      rw [hbuffer] at hrest
      exact (hcut.usesEndOfData hrest).mono hsub

theorem CutPairs.usesEndOfData {fuel : Nat} : ∀ {n : Nat} {b : TvuBuffer}
    {items : List (PyObject Unicode × PyObject Unicode)}
    {run : DecodeRun Unicode (List (PyObject Unicode × PyObject Unicode))},
    CutPairs python indeterminate n items b →
    pytvnDecodePairs python (pytvnDecodeRecurse python indeterminate fuel) n items b =
      some run →
    UsesEndOfData run.events
  | _, _, _, _, .key hend, hrun => by
      -- The value is asked for behind the end too, and both go into the dictionary.
      obtain ⟨keyRun, hkeyRun, -, hnext⟩ := pytvnDecodePairs_succ hrun
      obtain rfl := pytvnDecodeRecurse_exhausted hend hkeyRun
      obtain ⟨valueRun, hvalueRun, -, hnext⟩ := hnext _ rfl
      obtain rfl := pytvnDecodeRecurse_exhausted hend hvalueRun
      exact ⟨_, (hnext _ rfl).1, .inl rfl⟩
  | _, _, _, _, .insideKey hcut, hrun => by
      obtain ⟨keyRun, hkeyRun, hsub, -⟩ := pytvnDecodePairs_succ hrun
      exact (hcut.usesEndOfData hkeyRun).mono hsub
  | _, _, _, _, .value hkey hend, hrun => by
      obtain ⟨keyRun, hkeyRun, -, hnext⟩ := pytvnDecodePairs_succ hrun
      obtain ⟨hresult, rfl⟩ := pytvnDecodeRecurse_of_lies hkey hkeyRun
      obtain ⟨valueRun, hvalueRun, -, hnext⟩ := hnext _ hresult
      obtain rfl := pytvnDecodeRecurse_exhausted hend hvalueRun
      exact ⟨_, (hnext _ rfl).1, .inr rfl⟩
  | _, _, _, _, .insideValue hkey hcut, hrun => by
      obtain ⟨keyRun, hkeyRun, -, hnext⟩ := pytvnDecodePairs_succ hrun
      obtain ⟨hresult, hbuffer⟩ := pytvnDecodeRecurse_of_lies hkey hkeyRun
      obtain ⟨valueRun, hvalueRun, hsub, -⟩ := hnext _ hresult
      rw [hbuffer] at hvalueRun
      exact (hcut.usesEndOfData hvalueRun).mono hsub
  | _, _, _, _, .later hkey hvalue hset hcut, hrun => by
      obtain ⟨keyRun, hkeyRun, -, hnext⟩ := pytvnDecodePairs_succ hrun
      obtain ⟨hkeyResult, rfl⟩ := pytvnDecodeRecurse_of_lies hkey hkeyRun
      obtain ⟨valueRun, hvalueRun, -, hnext⟩ := hnext _ hkeyResult
      obtain ⟨hvalueResult, hbuffer⟩ := pytvnDecodeRecurse_of_lies hvalue hvalueRun
      obtain ⟨rest, hrest, hsub⟩ := (hnext _ hvalueResult).2 _ hset
      rw [hbuffer] at hrest
      exact (hcut.usesEndOfData hrest).mono hsub

end

/-! ## When the decoder is guarded against it -/

/-- No container has got the end-of-data pointer, and the end inside one is a failure. -/
structure DecodeRun.Guarded (run : DecodeRun Unicode (PyObject Unicode)) : Prop where
  not_used : ¬ UsesEndOfData run.events
  stops : ∀ before after, run.events = before ++ .returned (some .endOfData) :: after →
    after = [] ∧ run.result = none
  isReal : ∀ object, run.result = some object → object.IsReal

def GuardsEndOfData (python : CPython Unicode) (indeterminate : TvnpToken) (b : TvuBuffer) :
    Prop :=
  ∃ run, pytvnDecode python indeterminate b = some run ∧ run.Guarded

theorem pytvnDecodeLoop_object {n : Nat} {b : TvuBuffer} {object : PyObject Unicode}
    {recurse : TvuBuffer → Option (DecodeRun Unicode (PyObject Unicode))}
    {run : DecodeRun Unicode (PyObject Unicode)} (hrun : recurse b = some run)
    (hresult : run.result = some object) (hne : object ≠ .endOfData) :
    pytvnDecodeLoop recurse (n + 1) b =
      (pytvnDecodeLoop recurse n run.buffer).map fun rest =>
        (rest.map (object :: ·)).after run.events := by
  rw [Option.map_eq_bind]
  simp only [pytvnDecodeLoop, hrun, Option.bind_eq_bind, Option.bind_some, hresult]
  cases object with
  | endOfData => exact absurd rfl hne
  | _ => rfl

theorem pytvnDecodeLoop_outcome {fuel : Nat} (n : Nat) {b : TvuBuffer}
    (h : Fueled fuel b) (hn : Fueled n b) :
    ∃ run, pytvnDecodeLoop (pytvnDecodeRecurse python indeterminate fuel) n b = some run ∧
      (CutTuple python indeterminate b ∨ (Clean run.events ∧
        ∀ items, run.result = some items → PyObject.RealItems items)) := by
  induction n generalizing b with
  | zero =>
      have hlo := hn.offset_le
      have hlt := hn.lt_add
      omega
  | succ n ih =>
      obtain ⟨run, hrun, hadvance, hlt, hlies⟩ :=
        pytvnDecodeRecurse_outcome python indeterminate fuel h
      cases hresult : run.result with
      | none =>
          refine ⟨⟨none, run.buffer, run.events⟩, by simp [pytvnDecodeLoop, hrun, hresult], ?_⟩
          rcases hlies with hcut | ⟨hclean, -⟩
          · exact .inl (.inside hcut)
          · exact .inr ⟨hclean, by simp⟩
      | some object =>
          by_cases hend : object = .endOfData
          · obtain rfl := hend
            refine ⟨⟨some [], run.buffer, run.events⟩,
              by simp [pytvnDecodeLoop, hrun, hresult], ?_⟩
            rcases hlies with hcut | ⟨hclean, -⟩
            · exact .inl (.inside hcut)
            · refine .inr ⟨hclean, ?_⟩
              rintro _ ⟨⟩
              trivial
          · have hnext := hadvance object hresult
            have hfewer : Fueled n run.buffer := by
              have hfueled := hn.advance hnext
              have hprogress := hlt object hresult hend
              have hsum := hn.lt_add
              exact ⟨hfueled.offset_le, by rw [hnext.size_eq]; omega⟩
            obtain ⟨rest, hrest, hrestOutcome⟩ := ih (h.advance hnext) hfewer
            refine ⟨_, by rw [pytvnDecodeLoop_object hrun hresult hend, hrest]; rfl, ?_⟩
            rcases hlies with hcut | ⟨hclean, hlies⟩
            · exact .inl (.inside hcut)
            obtain ⟨-, hfirst⟩ := (hlies object hresult).resolve_left fun hleft => hend hleft.1
            rcases hrestOutcome with hcut | ⟨hrestClean, hreal⟩
            · exact .inl (.later hfirst hcut)
            refine .inr ⟨by simp [DecodeRun.after, DecodeRun.map, hclean, hrestClean], ?_⟩
            intro items hitems
            obtain ⟨rest, hrestItems, rfl⟩ := Option.map_eq_some_iff.mp hitems
            exact ⟨hfirst.isReal, hreal rest hrestItems⟩

theorem pytvnDecodeLoop_succ {n : Nat} {b : TvuBuffer}
    {recurse : TvuBuffer → Option (DecodeRun Unicode (PyObject Unicode))}
    {run : DecodeRun Unicode (List (PyObject Unicode))}
    (h : pytvnDecodeLoop recurse (n + 1) b = some run) :
    ∃ first, recurse b = some first ∧ first.events ⊆ run.events ∧
      ∀ object, first.result = some object → object ≠ .endOfData →
        ∃ rest, pytvnDecodeLoop recurse n first.buffer = some rest ∧
          rest.events ⊆ run.events := by
  cases hfirst : recurse b with
  | none => simp [pytvnDecodeLoop, hfirst] at h
  | some first =>
      refine ⟨first, rfl, ?_⟩
      cases hresult : first.result with
      | none =>
          simp only [pytvnDecodeLoop, hfirst, hresult, Option.bind_eq_bind,
            Option.bind_some] at h
          obtain rfl := Option.some.inj h
          exact ⟨List.Subset.refl _, by simp⟩
      | some object =>
          by_cases hend : object = .endOfData
          · obtain rfl := hend
            simp only [pytvnDecodeLoop, hfirst, hresult, Option.bind_eq_bind,
              Option.bind_some] at h
            obtain rfl := Option.some.inj h
            refine ⟨List.Subset.refl _, ?_⟩
            rintro _ ⟨⟩ hne
            exact absurd rfl hne
          · rw [pytvnDecodeLoop_object hfirst hresult hend] at h
            obtain ⟨rest, hrest, rfl⟩ := Option.map_eq_some_iff.mp h
            refine ⟨List.subset_append_left _ _, ?_⟩
            rintro _ ⟨⟩ -
            exact ⟨rest, hrest, List.subset_append_right _ _⟩

theorem CutTuple.usesEndOfData {fuel n : Nat} {b : TvuBuffer}
    {run : DecodeRun Unicode (List (PyObject Unicode))}
    (hcut : CutTuple python indeterminate b)
    (hrun : pytvnDecodeLoop (pytvnDecodeRecurse python indeterminate fuel) n b = some run) :
    UsesEndOfData run.events := by
  induction hcut generalizing n run with
  | inside hcut =>
      cases n with
      | zero => simp [pytvnDecodeLoop] at hrun
      | succ n =>
          obtain ⟨first, hfirst, hsub, -⟩ := pytvnDecodeLoop_succ hrun
          exact (hcut.usesEndOfData hfirst).mono hsub
  | later hlies _ ih =>
      cases n with
      | zero => simp [pytvnDecodeLoop] at hrun
      | succ n =>
          obtain ⟨first, hfirst, -, hnext⟩ := pytvnDecodeLoop_succ hrun
          obtain ⟨hresult, rfl⟩ := pytvnDecodeRecurse_of_lies hlies hfirst
          obtain ⟨rest, hrest, hsub⟩ := hnext _ hresult hlies.ne_endOfData
          exact (ih hrest).mono hsub

def decodeResult : List (PyObject Unicode) → PyObject Unicode
  | [object] => object
  | objects => .tuple objects

theorem pytvnDecode_eq (b : TvuBuffer) :
    pytvnDecode python indeterminate b =
      (pytvnDecodeTuple python indeterminate b).map (·.map decodeResult) := by
  rw [Option.map_eq_bind]
  rfl

/-- An input is decoded without the end-of-data pointer exactly if no container of it is cut. -/
theorem guardsEndOfData_iff {b : TvuBuffer} (h : b.offset = 0) :
    GuardsEndOfData python indeterminate b ↔ ¬ CutTuple python indeterminate b := by
  have hfueled : Fueled (b.size + 2) b := ⟨by omega, by omega⟩
  obtain ⟨run, hrun, houtcome⟩ :=
    pytvnDecodeLoop_outcome (b.size + 2) hfueled hfueled
  have hdecode : pytvnDecode python indeterminate b = some (run.map decodeResult) := by
    rw [pytvnDecode_eq, pytvnDecodeTuple, hrun, Option.map_some]
  constructor
  · rintro ⟨result, hresult, hguarded⟩ hcut
    rw [hdecode] at hresult
    obtain rfl := Option.some.inj hresult
    exact hguarded.not_used (hcut.usesEndOfData hrun)
  · intro hwhole
    obtain ⟨hclean, hreal⟩ := houtcome.resolve_left hwhole
    refine ⟨_, hdecode, ?_, ?_, ?_⟩
    · rintro ⟨event, hevent, huse⟩
      exact (hclean event hevent).1 huse
    · intro before after hevents
      have hmem : DecodeEvent.returned (some .endOfData) ∈ run.events := by
        change run.events = _ at hevents
        simp [hevents]
      exact absurd rfl (hclean _ hmem).2
    · intro object hobject
      obtain ⟨objects, hobjects, rfl⟩ := Option.map_eq_some_iff.mp hobject
      have hall := hreal objects hobjects
      unfold decodeResult
      split
      · exact hall.1
      · exact hall

def cutList : TvuBuffer := ⟨[0xc1], 0, by decide, TvuBuffer.start_lt⟩

theorem not_guardsEndOfData_cutList :
    ¬ ∀ b : TvuBuffer, b.offset = 0 → GuardsEndOfData CPython.ofBytes .zeroFilled b := by
  intro hall
  obtain ⟨run, hrun, hguarded⟩ := hall cutList rfl
  have hlist : pytvnDecode CPython.ofBytes .zeroFilled cutList =
      some ⟨some (.list [.endOfData]), cutList.skip 1,
        [.returned (some .endOfData), .setItem .endOfData]⟩ := rfl
  rw [hrun] at hlist
  obtain rfl := Option.some.inj hlist
  exact hguarded.not_used ⟨.setItem .endOfData, by simp, rfl⟩

theorem guardsEndOfData_iff_cutList : ¬ GuardsEndOfData CPython.ofBytes .zeroFilled cutList := by
  have htoken : tvnpDecodeToken .zeroFilled cutList =
      some (⟨.tokenList, 1, 0⟩, cutList.skip 1) := rfl
  have hcut : Cut CPython.ofBytes .zeroFilled cutList :=
    .list htoken rfl (CutItems.here (n := 0) (by decide))
  exact fun h => (guardsEndOfData_iff rfl).mp h (.inside hcut)

end Libtvnet
