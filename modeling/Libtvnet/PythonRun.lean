import Libtvnet.PythonGrammar

/-!
# Runs of the decoder

A run of the recursion ends, moves forward, and has one of four outcomes: the
end of the input, an object that lies there, a failure, or a container that is
cut.
-/

namespace Libtvnet

open Libtvnet.Foundation

variable {Unicode : Type}

/-! ## What a run must not do -/

def DecodeEvent.UsesEndOfData : DecodeEvent Unicode → Prop
  | .returned _ => False
  | .setItem object => object = .endOfData
  | .dictSetItem key value => key = .endOfData ∨ value = .endOfData

def Clean (events : List (DecodeEvent Unicode)) : Prop :=
  ∀ event ∈ events, ¬ event.UsesEndOfData ∧ event ≠ .returned (some .endOfData)

@[simp] theorem clean_nil : Clean ([] : List (DecodeEvent Unicode)) := by simp [Clean]

@[simp] theorem clean_append {xs ys : List (DecodeEvent Unicode)} :
    Clean (xs ++ ys) ↔ Clean xs ∧ Clean ys := by
  simp only [Clean, List.mem_append]
  constructor
  · exact fun h => ⟨fun event hevent => h event (.inl hevent),
      fun event hevent => h event (.inr hevent)⟩
  · rintro ⟨hxs, hys⟩ event (hevent | hevent)
    · exact hxs event hevent
    · exact hys event hevent

@[simp] theorem clean_cons {event : DecodeEvent Unicode} {events : List (DecodeEvent Unicode)} :
    Clean (event :: events) ↔
      (¬ event.UsesEndOfData ∧ event ≠ .returned (some .endOfData)) ∧ Clean events := by
  simp [Clean]

/-! ## Progress -/

structure Advance (b b' : TvuBuffer) : Prop where
  data_eq : b'.data = b.data
  le : b.offset ≤ b'.offset
  offset_le : b'.offset ≤ b.size + 1

namespace Advance

theorem size_eq {b b' : TvuBuffer} (h : Advance b b') : b'.size = b.size :=
  congrArg List.length h.data_eq

theorem trans {b b₁ b₂ : TvuBuffer} (h : Advance b b₁) (h' : Advance b₁ b₂) : Advance b b₂ where
  data_eq := h'.data_eq.trans h.data_eq
  le := h.le.trans h'.le
  offset_le := by
    rw [← h.size_eq]
    exact h'.offset_le

end Advance

structure Fueled (fuel : Nat) (b : TvuBuffer) : Prop where
  offset_le : b.offset ≤ b.size + 1
  lt_add : b.size + 1 < fuel + b.offset

theorem Fueled.advance {fuel : Nat} {b b' : TvuBuffer} (h : Fueled fuel b)
    (hadvance : Advance b b') : Fueled fuel b' := by
  have hlo := hadvance.le
  have hlt := h.lt_add
  refine ⟨?_, ?_⟩
  all_goals rw [hadvance.size_eq]
  · exact hadvance.offset_le
  · omega

/-! ## Outcomes -/

section Outcomes

variable (python : CPython Unicode) (indeterminate : TvnpToken)

structure RunOutcome (b : TvuBuffer) (run : DecodeRun Unicode (PyObject Unicode)) : Prop where
  advance : ∀ object, run.result = some object → Advance b run.buffer
  offset_lt : ∀ object, run.result = some object → object ≠ .endOfData →
    b.offset < run.buffer.offset
  lies : Cut python indeterminate b ∨ (Clean run.events ∧ ∀ object, run.result = some object →
    (object = .endOfData ∧ b.size ≤ b.offset) ∨
      (object ≠ .endOfData ∧ Lies python indeterminate b object run.buffer))

structure ItemsOutcome (n : Nat) (b : TvuBuffer)
    (run : DecodeRun Unicode (List (PyObject Unicode))) : Prop where
  advance : ∀ items, run.result = some items → Advance b run.buffer
  lie : CutItems python indeterminate n b ∨ (Clean run.events ∧ ∀ items,
    run.result = some items → LieItems python indeterminate n b items run.buffer)

structure PairsOutcome (n : Nat) (items : List (PyObject Unicode × PyObject Unicode))
    (b : TvuBuffer) (run : DecodeRun Unicode (List (PyObject Unicode × PyObject Unicode))) :
    Prop where
  advance : ∀ items', run.result = some items' → Advance b run.buffer
  lie : CutPairs python indeterminate n items b ∨ (Clean run.events ∧ ∀ items',
    run.result = some items' → LiePairs python indeterminate n items b items' run.buffer)

variable {python indeterminate}

theorem pytvnDecodeItems_outcome {fuel : Nat}
    {recurse : TvuBuffer → Option (DecodeRun Unicode (PyObject Unicode))}
    (hrecurse : ∀ b, Fueled fuel b →
      ∃ run, recurse b = some run ∧ RunOutcome python indeterminate b run)
    (n : Nat) {b : TvuBuffer} (h : Fueled fuel b) :
    ∃ run, pytvnDecodeItems recurse n b = some run ∧
      ItemsOutcome python indeterminate n b run := by
  induction n generalizing b with
  | zero =>
      refine ⟨_, rfl, fun _ _ => ⟨rfl, le_refl _, h.offset_le⟩, .inr ⟨clean_nil, ?_⟩⟩
      intro items hitems
      obtain rfl := Option.some.inj hitems
      exact .nil
  | succ n ih =>
      obtain ⟨run, hrun, hadvance, -, hlies⟩ := hrecurse b h
      cases hresult : run.result with
      | none =>
          refine ⟨_, pytvnDecodeItems_succ_iff.mpr (.fails run hrun hresult), by simp, ?_⟩
          rcases hlies with hcut | ⟨hclean, -⟩
          · exact .inl (.inside hcut)
          · exact .inr ⟨by simp [hclean, DecodeEvent.UsesEndOfData], by simp⟩
      | some object =>
          have hnext := hadvance object hresult
          obtain ⟨rest, hrest, hrestAdvance, hrestLie⟩ := ih (h.advance hnext)
          refine ⟨_, pytvnDecodeItems_succ_iff.mpr (.sets run object rest hrun hresult hrest),
            ?_, ?_⟩
          · intro items hitems
            obtain ⟨rest, hrestItems, rfl⟩ := Option.map_eq_some_iff.mp hitems
            exact hnext.trans (hrestAdvance rest hrestItems)
          · rcases hlies with hcut | ⟨hclean, hobject⟩
            · exact .inl (.inside hcut)
            rcases hobject object hresult with ⟨rfl, hend⟩ | ⟨hne, hfirst⟩
            · exact .inl (.here hend)
            rcases hrestLie with hcut | ⟨hrestClean, hrestLie⟩
            · exact .inl (.later hfirst hcut)
            refine .inr ⟨?_, ?_⟩
            · simp [DecodeRun.after, DecodeRun.map, hclean, hrestClean,
                DecodeEvent.UsesEndOfData, hne]
            · intro items hitems
              obtain ⟨rest, hrestItems, rfl⟩ := Option.map_eq_some_iff.mp hitems
              exact .cons hfirst (hrestLie rest hrestItems)

private theorem pair_lies {b : TvuBuffer} {key : PyObject Unicode}
    {keyRun valueRun : DecodeRun Unicode (PyObject Unicode)}
    (hkeyLies : Cut python indeterminate b ∨ (Clean keyRun.events ∧ ∀ object,
      keyRun.result = some object → (object = .endOfData ∧ b.size ≤ b.offset) ∨
        (object ≠ .endOfData ∧ Lies python indeterminate b object keyRun.buffer)))
    (hkeyResult : keyRun.result = some key)
    (hvalueLies : Cut python indeterminate keyRun.buffer ∨ (Clean valueRun.events ∧ ∀ object,
      valueRun.result = some object →
        (object = .endOfData ∧ keyRun.buffer.size ≤ keyRun.buffer.offset) ∨
        (object ≠ .endOfData ∧
          Lies python indeterminate keyRun.buffer object valueRun.buffer)))
    (n : Nat) (items : List (PyObject Unicode × PyObject Unicode)) :
    CutPairs python indeterminate (n + 1) items b ∨
      (key ≠ .endOfData ∧ (Clean keyRun.events ∧ Clean valueRun.events) ∧
        ∀ value, valueRun.result = some value →
          Lies python indeterminate b key keyRun.buffer ∧ value ≠ .endOfData ∧
            Lies python indeterminate keyRun.buffer value valueRun.buffer) := by
  rcases hkeyLies with hcut | ⟨hkeyClean, hkey⟩
  · exact .inl (.insideKey hcut)
  rcases hkey key hkeyResult with ⟨-, hend⟩ | ⟨hkeyNe, hfirst⟩
  · exact .inl (.key hend)
  rcases hvalueLies with hcut | ⟨hvalueClean, hvalue⟩
  · exact .inl (.insideValue hfirst hcut)
  by_cases hend : keyRun.buffer.size ≤ keyRun.buffer.offset
  · exact .inl (.value hfirst hend)
  refine .inr ⟨hkeyNe, ⟨hkeyClean, hvalueClean⟩, fun value hresult => ?_⟩
  rcases hvalue value hresult with ⟨-, hle⟩ | ⟨hvalueNe, hsecond⟩
  · exact absurd hle hend
  · exact ⟨hfirst, hvalueNe, hsecond⟩

theorem pytvnDecodePairs_outcome {fuel : Nat}
    {recurse : TvuBuffer → Option (DecodeRun Unicode (PyObject Unicode))}
    (hrecurse : ∀ b, Fueled fuel b →
      ∃ run, recurse b = some run ∧ RunOutcome python indeterminate b run)
    (n : Nat) (items : List (PyObject Unicode × PyObject Unicode)) {b : TvuBuffer}
    (h : Fueled fuel b) :
    ∃ run, pytvnDecodePairs python recurse n items b = some run ∧
      PairsOutcome python indeterminate n items b run := by
  induction n generalizing items b with
  | zero =>
      refine ⟨_, rfl, fun _ _ => ⟨rfl, le_refl _, h.offset_le⟩, .inr ⟨clean_nil, ?_⟩⟩
      intro items' hitems
      obtain rfl := Option.some.inj hitems
      exact .nil
  | succ n ih =>
      obtain ⟨keyRun, hkeyRun, hkeyAdvance, -, hkeyLies⟩ := hrecurse b h
      cases hkeyResult : keyRun.result with
      | none =>
          refine ⟨_, pytvnDecodePairs_succ_iff.mpr (.keyFails keyRun hkeyRun hkeyResult),
            by simp, ?_⟩
          rcases hkeyLies with hcut | ⟨hclean, -⟩
          · exact .inl (.insideKey hcut)
          · exact .inr ⟨by simp [hclean, DecodeEvent.UsesEndOfData], by simp⟩
      | some key =>
          have hkeyNext := hkeyAdvance key hkeyResult
          obtain ⟨valueRun, hvalueRun, hvalueAdvance, -, hvalueLies⟩ :=
            hrecurse _ (h.advance hkeyNext)
          have hpair := pair_lies hkeyLies hkeyResult hvalueLies n items
          cases hvalueResult : valueRun.result with
          | none =>
              refine ⟨_, pytvnDecodePairs_succ_iff.mpr (.valueFails keyRun valueRun key hkeyRun
                hkeyResult hvalueRun hvalueResult), by simp, ?_⟩
              rcases hpair with hcut | ⟨hkeyNe, hclean, -⟩
              · exact .inl hcut
              · exact .inr ⟨by simp [hclean, hkeyNe, DecodeEvent.UsesEndOfData], by simp⟩
          | some value =>
              have hvalueNext := hvalueAdvance value hvalueResult
              cases hset : python.dictSetItem items key value with
              | none =>
                  refine ⟨_, pytvnDecodePairs_succ_iff.mpr (.setFails keyRun valueRun key value
                    hkeyRun hkeyResult hvalueRun hvalueResult hset), by simp, ?_⟩
                  rcases hpair with hcut | ⟨hkeyNe, hclean, hlies⟩
                  · exact .inl hcut
                  · have hvalueNe := (hlies value hvalueResult).2.1
                    exact .inr ⟨by simp [hclean, hkeyNe, hvalueNe, DecodeEvent.UsesEndOfData],
                      by simp⟩
              | some items' =>
                  obtain ⟨rest, hrest, hrestAdvance, hrestLie⟩ :=
                    ih items' ((h.advance hkeyNext).advance hvalueNext)
                  refine ⟨_, pytvnDecodePairs_succ_iff.mpr (.sets keyRun valueRun key value items'
                    rest hkeyRun hkeyResult hvalueRun hvalueResult hset hrest), ?_, ?_⟩
                  · exact fun items'' hitems =>
                      (hkeyNext.trans hvalueNext).trans (hrestAdvance items'' hitems)
                  rcases hpair with hcut | ⟨hkeyNe, hclean, hlies⟩
                  · exact .inl hcut
                  obtain ⟨hfirst, hvalueNe, hsecond⟩ := hlies value hvalueResult
                  rcases hrestLie with hcut | ⟨hrestClean, hrestLie⟩
                  · exact .inl (.later hfirst hsecond hset hcut)
                  refine .inr ⟨?_, fun items'' hitems =>
                    .cons hfirst hsecond hset (hrestLie items'' hitems)⟩
                  simp [DecodeRun.after, hclean, hrestClean, hkeyNe, hvalueNe,
                    DecodeEvent.UsesEndOfData]

private theorem leaf_outcome (python : CPython Unicode) {b b' : TvuBuffer} {token : TvnpToken}
    (htoken : tvnpDecodeToken indeterminate b = some (token, b')) (hadvance : Advance b b')
    (hlt : b.offset < b'.offset) :
    RunOutcome python indeterminate b ⟨token.leaf python b'.data, b', []⟩ where
  advance _ _ := hadvance
  offset_lt _ _ _ := hlt
  lies := by
    refine .inr ⟨clean_nil, fun object hobject => .inr ⟨?_, .leaf htoken hobject⟩⟩
    rintro rfl
    unfold TvnpToken.leaf at hobject
    split at hobject <;> simp at hobject

private theorem container_outcome {α : Type} {b b' : TvuBuffer} {run : DecodeRun Unicode α}
    (object : α → PyObject Unicode) (hne : ∀ items, object items ≠ .endOfData)
    (hstep : Advance b b') (hlt : b.offset < b'.offset)
    (hadvance : ∀ items, run.result = some items → Advance b' run.buffer)
    (hlie : Cut python indeterminate b ∨ (Clean run.events ∧ ∀ items,
      run.result = some items → Lies python indeterminate b (object items) run.buffer)) :
    RunOutcome python indeterminate b (run.map object) where
  advance container hcontainer := by
    obtain ⟨items, hitems, -⟩ := Option.map_eq_some_iff.mp hcontainer
    exact hstep.trans (hadvance items hitems)
  offset_lt container hcontainer _ := by
    obtain ⟨items, hitems, -⟩ := Option.map_eq_some_iff.mp hcontainer
    exact lt_of_lt_of_le hlt (hadvance items hitems).le
  lies := by
    rcases hlie with hcut | ⟨hclean, hlie⟩
    · exact .inl hcut
    · refine .inr ⟨hclean, fun container hcontainer => .inr ?_⟩
      obtain ⟨items, hitems, rfl⟩ := Option.map_eq_some_iff.mp hcontainer
      exact ⟨hne items, hlie items hitems⟩

private theorem bytes_eq_span {b : TvuBuffer} {token : TvnpToken}
    (h : token.data + token.u ≤ b.size) : token.bytes b = some (token.span b.data) :=
  if_pos h

theorem pytvnDecodeRecurse_outcome (python : CPython Unicode) (indeterminate : TvnpToken)
    (fuel : Nat) {b : TvuBuffer} (h : Fueled fuel b) :
    ∃ run, pytvnDecodeRecurse python indeterminate fuel b = some run ∧
      RunOutcome python indeterminate b run := by
  induction fuel generalizing b with
  | zero =>
      have hlo := h.offset_le
      have hlt := h.lt_add
      omega
  | succ fuel ih =>
      obtain ⟨token, b', htoken, houtcome⟩ := tvnpDecodeToken_outcome indeterminate h.offset_le
      obtain ⟨hdata, hmove⟩ := houtcome
      have hsize : b'.size = b.size := congrArg List.length hdata
      have hlt := h.lt_add
      simp only [pytvnDecodeRecurse, htoken, Option.bind_eq_bind, Option.bind_some]
      have hleaf (hlo : b.offset < b'.offset) (hhi : b'.offset ≤ b.size + 1) :=
        leaf_outcome python htoken ⟨hdata, hlo.le, hhi⟩ hlo
      have hfueled (hlo : b.offset < b'.offset) (hhi : b'.offset ≤ b.size) : Fueled fuel b' :=
        ⟨by omega, by omega⟩
      simp only [TvnpToken.leaf] at hleaf
      cases htype : token.type <;> simp only [htype] at hmove hleaf ⊢
      case tokenEnd =>
        obtain ⟨hend, rfl⟩ := hmove
        refine ⟨_, rfl, fun _ _ => ⟨rfl, le_refl _, h.offset_le⟩, ?_, .inr ⟨clean_nil, ?_⟩⟩
        · rintro _ ⟨⟩ hne
          exact absurd rfl hne
        · rintro _ ⟨⟩
          exact .inl ⟨rfl, hend⟩
      case tokenError => exact ⟨_, rfl, by simp, by simp, .inr ⟨clean_nil, by simp⟩⟩
      case tokenNull => exact ⟨_, rfl, hleaf hmove.1 (by omega)⟩
      case tokenInteger => exact ⟨_, rfl, hleaf hmove.1 (by omega)⟩
      case tokenFloat => exact ⟨_, rfl, hleaf hmove.1 (by omega)⟩
      case tokenUtf8String =>
        rw [bytes_eq_span (by omega), Option.bind_some]
        exact ⟨_, rfl, hleaf (by omega) (by omega)⟩
      case tokenBinString =>
        rw [bytes_eq_span (by omega), Option.bind_some]
        exact ⟨_, rfl, hleaf (by omega) (by omega)⟩
      case tokenList =>
        obtain ⟨run, hrun, hadvance, hlie⟩ := pytvnDecodeItems_outcome (fun b hb => ih hb) token.u
          (hfueled hmove.1 hmove.2)
        have hstep : Advance b b' := ⟨hdata, hmove.1.le, by omega⟩
        rw [hrun, Option.bind_some]
        refine ⟨_, rfl, container_outcome _ (by simp) hstep hmove.1 hadvance ?_⟩
        exact hlie.imp (.list htoken htype) fun ⟨hclean, hlie⟩ =>
          ⟨hclean, fun items hitems => .list htoken htype (hlie items hitems)⟩
      case tokenDictionary =>
        obtain ⟨run, hrun, hadvance, hlie⟩ := pytvnDecodePairs_outcome (fun b hb => ih hb) token.u
          [] (hfueled hmove.1 hmove.2)
        have hstep : Advance b b' := ⟨hdata, hmove.1.le, by omega⟩
        rw [hrun, Option.bind_some]
        refine ⟨_, rfl, container_outcome _ (by simp) hstep hmove.1 hadvance ?_⟩
        exact hlie.imp (.dict htoken htype) fun ⟨hclean, hlie⟩ =>
          ⟨hclean, fun items hitems => .dict htoken htype (hlie items hitems)⟩

end Outcomes

end Libtvnet
