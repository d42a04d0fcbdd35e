import Libtvnet.Common
import Libtvnet.CuidUnique

/-!
# The node id in the ids of a node

The ring is marked as initialized before the node id is written, and
`tvn_init` takes the mark for the whole.  Where no `tvn_init` returns 0 before
that write, each id of the node carries the node id.
-/

namespace Libtvnet

variable {Process Thread : Type}

/-! ## The property and its condition -/

def NodeState.Labelled (node : TipcNode) (s : NodeState Process Thread) : Prop :=
  ∀ issue ∈ s.issued, issue.id &&& nodeMask = node.nodeId.toInt64

def NodeState.ReturnsZero (s : NodeState Process Thread) (process : Process) : Prop :=
  (s.init process = .idle ∧ (s.globals process).tvnlRingbuffer ≠ .null) ∨
    (s.init process = .ringIsInitialized ∧ s.segment.ringInitialized = true)

/-- No `return 0` before the node id is written, and no negative time before the first id. -/
def NodeState.Ordered (s : NodeState Process Thread) : NodeAction Process Thread → Prop
  | .init process _ => s.ReturnsZero process → s.nodeIdStored = true
  | .cuid thread tvuTime =>
      s.cuid thread = .idle → s.segment.prevCuid.toInt = 0 → 0 ≤ tvuTime.toInt

/-! ## What a step of `tvn_init` does -/

section Init

variable (build : Build) (succeeds : Bool) (segment : SharedSegment) (globals : Globals)
  (call : InitCall)

private theorem tvnInitStep_prevCuid :
    (tvnInitStep build succeeds segment globals call).segment.prevCuid = segment.prevCuid := by
  cases call <;> cases build <;> simp only [tvnInitStep] <;> split <;> rfl

private theorem tvnInitStep_nodeId (node : TipcNode) :
    (tvnInitStep (.tipc node) succeeds segment globals call).segment.nodeId =
      if call = .storeNodeId then node.nodeId else segment.nodeId := by
  cases call <;> simp [tvnInitStep] <;> split <;> rfl

private theorem tvnInitStep_returned {result : Int}
    (h : (tvnInitStep build succeeds segment globals call).returned = some result) :
    result = -1 ∨
      (result = 0 ∧ ((call = .idle ∧ globals.tvnlRingbuffer ≠ .null) ∨
        (call = .ringIsInitialized ∧ segment.ringInitialized = true))) ∨
      (result = 1 ∧ call = .storeNodeId) := by
  cases call with
  | idle =>
      simp only [tvnInitStep] at h
      split at h
      case isTrue hnull => exact .inr (.inl ⟨(Option.some.inj h).symm, .inl ⟨rfl, hnull⟩⟩)
      case isFalse => cases h
  | ringIsInitialized =>
      simp only [tvnInitStep] at h
      split at h
      case isTrue hring => exact .inr (.inl ⟨(Option.some.inj h).symm, .inr ⟨rfl, hring⟩⟩)
      case isFalse => cases h
  | storeNodeId =>
      cases build <;> exact .inr (.inr ⟨(Option.some.inj h).symm, rfl⟩)
  | ringInit =>
      cases build <;> cases succeeds <;> cases h
      all_goals exact .inl rfl
  | _ =>
      cases succeeds <;> cases h
      exact .inl rfl

end Init

/-! ## The invariant -/

/-- What a call knows of the shared cell; the cell is zero until the first id. -/
def CuidCall.Labelled (nodeId : Int16) (prevCuid : Int64) : CuidCall → Prop
  | .idle => True
  | .timed newCuid => Stamped nodeId newCuid ∧ (prevCuid.toInt = 0 → 0 < newCuid.toInt)
  | .read newCuid oldCuid => Stamped nodeId newCuid ∧
      (prevCuid.toInt = 0 → 0 < newCuid.toInt ∧ oldCuid.toInt = 0)
  | .failed => Stamped nodeId prevCuid

structure LabelInvariant (home : Thread → Process) (node : TipcNode)
    (s : NodeState Process Thread) : Prop where
  nodeId : s.nodeIdStored = true → s.segment.nodeId = node.nodeId
  initialized : ∀ process, s.Initialized process → s.nodeIdStored = true
  prevCuid : s.segment.prevCuid.toInt ≠ 0 → Stamped node.nodeId s.segment.prevCuid
  labelled : ∀ thread, (s.cuid thread).Labelled node.nodeId s.segment.prevCuid
  issued : ∀ issue ∈ s.issued, Stamped node.nodeId issue.id

private theorem labelInvariant_initial (home : Thread → Process) (node : TipcNode) :
    LabelInvariant home node .initial where
  nodeId h := by cases h
  initialized process h := by simp [NodeState.Initialized, NodeState.initial] at h
  prevCuid h := absurd rfl h
  labelled _ := trivial
  issued := by simp [NodeState.initial]

theorem Stamped.ne_zero {node : TipcNode} {x : Int64} (h : Stamped node.nodeId x) :
    x.toInt ≠ 0 := by
  have hpos := node.pos
  unfold Stamped at h
  omega

theorem CuidCall.Labelled.of_stamped {node : TipcNode} {prevCuid prevCuid' : Int64}
    {call : CuidCall} (h : call.Labelled node.nodeId prevCuid)
    (hstamped : Stamped node.nodeId prevCuid') : call.Labelled node.nodeId prevCuid' := by
  have hne := hstamped.ne_zero
  cases call with
  | idle => trivial
  | timed newCuid => exact ⟨h.1, fun hzero => absurd hzero hne⟩
  | read newCuid oldCuid => exact ⟨h.1, fun hzero => absurd hzero hne⟩
  | failed => exact hstamped

private theorem tvnCuidStep_labelled {node : TipcNode} {nodeId : Int16} {tvuTime prevCuid : Int64}
    {call : CuidCall} (h : call.Labelled node.nodeId prevCuid)
    (hprev : prevCuid.toInt ≠ 0 → Stamped node.nodeId prevCuid)
    (hnode : call = .idle → nodeId = node.nodeId)
    (hclock : call = .idle → prevCuid.toInt = 0 → 0 ≤ tvuTime.toInt) :
    (∃ call', tvnCuidStep nodeId tvuTime prevCuid call = ⟨call', prevCuid, none⟩ ∧
      call'.Labelled node.nodeId prevCuid) ∨
    ∃ id, tvnCuidStep nodeId tvuTime prevCuid call = ⟨.idle, id, some id⟩ ∧
      Stamped node.nodeId id := by
  have hlo := node.pos.le
  have hhi := node.lt
  cases call with
  | idle =>
      obtain rfl := hnode rfl
      refine .inl ⟨_, rfl, toInt_newCuid_emod tvuTime hlo hhi, fun hzero => ?_⟩
      have htime := hclock rfl hzero
      rw [toInt_newCuid htime hlo hhi]
      have hpos := node.pos
      omega
  | timed newCuid => exact .inl ⟨_, rfl, h.1, fun hzero => ⟨h.2 hzero, hzero⟩⟩
  | read newCuid oldCuid =>
      by_cases hswap : newCuid > oldCuid ∧ prevCuid = oldCuid
      · exact .inr ⟨newCuid, if_pos hswap, h.1⟩
      · refine .inl ⟨.failed, if_neg hswap, hprev fun hzero => hswap ?_⟩
        -- An attempt on the initial zero succeeds.
        obtain ⟨hnew, hold⟩ := h.2 hzero
        constructor
        · apply Int64.lt_iff_toInt_lt.mpr
          rw [hold]
          exact hnew
        · exact Int64.toInt_inj.mp (hzero.trans hold.symm)
  | failed =>
      refine .inr ⟨_, rfl, ?_⟩
      have hstamped : prevCuid.toInt % 4096 = node.nodeId.toInt := h
      unfold Stamped
      rw [toInt_add_timeStep_emod]
      exact hstamped

/-! ## A step keeps the invariant -/

section Step

variable [DecidableEq Process] [DecidableEq Thread] {home : Thread → Process} {node : TipcNode}
  {s : NodeState Process Thread}

theorem initialized_next {build : Build} {process process' : Process} {succeeds : Bool}
    (h : (s.next build (.init process succeeds)).Initialized process') :
    s.Initialized process' ∨ (process' = process ∧
      (s.ReturnsZero process ∨ s.init process = .storeNodeId)) := by
  by_cases hself : process' = process
  · obtain rfl := hself
    cases hreturned : (tvnInitStep build succeeds s.segment (s.globals process')
        (s.init process')).returned with
    | none =>
        left
        simpa [NodeState.Initialized, NodeState.next, hreturned] using h
    | some result =>
        rcases tvnInitStep_returned _ _ _ _ _ hreturned with rfl | ⟨-, hzero⟩ | ⟨-, hstore⟩
        · left
          simpa [NodeState.Initialized, NodeState.next, hreturned] using h
        · exact .inr ⟨rfl, .inl hzero⟩
        · exact .inr ⟨rfl, .inr hstore⟩
  · left
    simpa only [NodeState.Initialized, NodeState.next, Function.update_of_ne hself] using h

theorem LabelInvariant.init (h : LabelInvariant home node s) {process : Process}
    {succeeds : Bool} (hordered : s.Ordered (.init process succeeds)) :
    LabelInvariant home node (s.next (.tipc node) (.init process succeeds)) := by
  have hprev := tvnInitStep_prevCuid (.tipc node) succeeds s.segment (s.globals process)
    (s.init process)
  constructor
  · intro hstored
    simp only [NodeState.next, Bool.or_eq_true, decide_eq_true_eq] at hstored ⊢
    rw [tvnInitStep_nodeId]
    split
    case isTrue => rfl
    case isFalse hcall => exact h.nodeId (hstored.resolve_right hcall)
  · intro process' hinit
    simp only [NodeState.next, Bool.or_eq_true, decide_eq_true_eq]
    rcases initialized_next hinit with hold | ⟨-, hzero | hstore⟩
    · exact .inl (h.initialized process' hold)
    · exact .inl (hordered hzero)
    · exact .inr hstore
  · simp only [NodeState.next, hprev]
    exact h.prevCuid
  · simp only [NodeState.next, hprev]
    exact h.labelled
  · exact h.issued

theorem LabelInvariant.cuid (h : LabelInvariant home node s) {thread : Thread}
    {tvuTime : Int64} (henabled : s.Enabled home (.cuid thread tvuTime))
    (hordered : s.Ordered (.cuid thread tvuTime)) :
    LabelInvariant home node (s.next (.tipc node) (.cuid thread tvuTime)) := by
  have hnode : s.cuid thread = .idle → s.segment.nodeId = node.nodeId :=
    fun hidle => h.nodeId (h.initialized _ (henabled.2 hidle))
  rcases tvnCuidStep_labelled (h.labelled thread) h.prevCuid hnode hordered with
    ⟨call', hstep, hcall⟩ | ⟨id, hstep, hid⟩
  · constructor
    · exact h.nodeId
    · exact h.initialized
    · simp only [NodeState.next, hstep]
      exact h.prevCuid
    · simp only [NodeState.next, hstep]
      apply (Function.forall_update_iff s.cuid fun _ call =>
        call.Labelled node.nodeId s.segment.prevCuid).mpr
      exact ⟨hcall, fun thread' _ => h.labelled thread'⟩
    · simp only [NodeState.next, hstep, Option.toList_none, List.map_nil, List.nil_append]
      exact h.issued
  · constructor
    · exact h.nodeId
    · exact h.initialized
    · simp only [NodeState.next, hstep]
      exact fun _ => hid
    · simp only [NodeState.next, hstep]
      apply (Function.forall_update_iff s.cuid fun _ call =>
        call.Labelled node.nodeId id).mpr
      exact ⟨trivial, fun thread' _ => (h.labelled thread').of_stamped hid⟩
    · intro issue hissue
      simp only [NodeState.next, hstep, Option.toList_some, List.map_cons, List.map_nil,
        List.cons_append, List.nil_append, List.mem_cons] at hissue
      rcases hissue with rfl | hold
      · exact hid
      · exact h.issued issue hold

theorem NodeStep.labelInvariant {s' : NodeState Process Thread}
    (hstep : NodeStep home (.tipc node) NodeState.Ordered s s')
    (h : LabelInvariant home node s) : LabelInvariant home node s' := by
  cases hstep with
  | mk action henabled hordered =>
      cases action with
      | init process succeeds => exact h.init hordered
      | cuid thread tvuTime => exact h.cuid henabled hordered

theorem NodeReachable.labelInvariant
    (h : NodeReachable home (.tipc node) NodeState.Ordered s) :
    LabelInvariant home node s := by
  induction h with
  | refl => exact labelInvariant_initial home node
  | tail _ hstep ih => exact hstep.labelInvariant ih

/-- In every run whose steps are ordered, the ids carry the node id. -/
theorem NodeReachable.ids_labelled
    (h : NodeReachable home (.tipc node) NodeState.Ordered s) : s.Labelled node :=
  fun issue hissue => (h.labelInvariant.issued issue hissue).eq_nodeId

end Step

/-! ## Two processes -/

def nodeFive : TipcNode := ⟨5, by decide, by decide⟩

instance (s : NodeState Process Thread) (process : Process) :
    Decidable (s.ReturnsZero process) := inferInstanceAs (Decidable (_ ∨ _))

instance (s : NodeState Process Thread) : DecidablePred s.Ordered
  | .init _ _ => inferInstanceAs (Decidable (_ → _))
  | .cuid _ _ => inferInstanceAs (Decidable (_ → _ → _))

def initSteps (process : Bool) (steps : Nat) : List (NodeAction Bool Bool) :=
  List.replicate steps (.init process true)

def cuidSteps (thread : Bool) (steps : Nat) : List (NodeAction Bool Bool) :=
  List.replicate steps (.cuid thread 0x3000)

theorem ids_labelled_sequential :
    ((initSteps true 9 ++ cuidSteps true 3 ++ initSteps false 4 ++ cuidSteps false 4).foldl
      (NodeState.next (.tipc nodeFive)) .initial).Labelled nodeFive := by
  have hadmits : NodeState.Admits id (.tipc nodeFive) NodeState.Ordered .initial
      (initSteps true 9 ++ cuidSteps true 3 ++ initSteps false 4 ++ cuidSteps false 4) := by
    decide
  exact NodeReachable.ids_labelled (NodeReachable.foldl .refl hadmits)

/-- The second process finds the ring of the first, which has not yet written the node id. -/
theorem not_ids_labelled_between :
    ¬ ∀ s : NodeState Bool Bool,
      NodeReachable id (.tipc nodeFive) (fun _ _ => True) s → s.Labelled nodeFive := by
  intro h
  have hadmits : NodeState.Admits id (.tipc nodeFive) (fun _ _ => True) .initial
      (initSteps true 5 ++ initSteps false 4 ++ cuidSteps false 3) := by
    decide
  have hlabelled := h _ (NodeReachable.foldl .refl hadmits)
  have hid := hlabelled ⟨false, 0x3000⟩ (by decide)
  exact absurd hid (by decide)

end Libtvnet
