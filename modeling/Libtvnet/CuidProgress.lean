import Libtvnet.Common
import Libtvnet.CuidClock

/-!
# The progress of `tvn_cuid`

A call returns by a step of its own, whatever the others do.  An id can be
ahead of the clock, by one time step for each id of its node at most; where that
leaves room in 64 bits, no addition overflows.
-/

namespace Libtvnet

/-! ## The steps of a call -/

def CuidCall.taken : CuidCall → Nat
  | .idle => 0
  | .timed _ => 1
  | .read _ _ => 2
  | .failed => 3

private theorem tvnCuidStep_taken (nodeId : Int16) (tvuTime prevCuid : Int64) (call : CuidCall) :
    ((tvnCuidStep nodeId tvuTime prevCuid call).returned = none ∧
        (tvnCuidStep nodeId tvuTime prevCuid call).call.taken = call.taken + 1) ∨
      ((tvnCuidStep nodeId tvuTime prevCuid call).returned.isSome = true ∧
        (tvnCuidStep nodeId tvuTime prevCuid call).call.taken = 0 ∧
        2 ≤ call.taken ∧ call.taken ≤ 3) := by
  cases call with
  | idle | timed _ => exact .inl ⟨rfl, rfl⟩
  | read newCuid oldCuid =>
      by_cases hswap : newCuid > oldCuid ∧ prevCuid = oldCuid
      · right
        simp [tvnCuidStep, hswap, CuidCall.taken]
      · left
        simp [tvnCuidStep, hswap, CuidCall.taken]
  | failed => exact .inr ⟨rfl, rfl, by decide, by decide⟩

section Steps

variable {Process Thread : Type} [DecidableEq Process] [DecidableEq Thread] (build : Build)

def NodeAction.isStepOf (thread : Thread) : NodeAction Process Thread → Bool
  | .init _ _ => false
  | .cuid thread' _ => decide (thread' = thread)

def NodeState.returnedTo (s : NodeState Process Thread) (thread : Thread) : Nat :=
  s.issued.countP fun issue => decide (issue.thread = thread)

/-- Between two states a thread has taken `steps` steps, three or four of them for each id. -/
structure StepsCounted (thread : Thread) (steps : Nat) (s s' : NodeState Process Thread) :
    Prop where
  three : 3 * s'.returnedTo thread + (s'.cuid thread).taken ≤
    3 * s.returnedTo thread + (s.cuid thread).taken + steps
  four : 4 * s.returnedTo thread + (s.cuid thread).taken + steps ≤
    4 * s'.returnedTo thread + (s'.cuid thread).taken

omit [DecidableEq Process] in
theorem StepsCounted.trans {thread : Thread} {m n : Nat} {s s' s'' : NodeState Process Thread}
    (h : StepsCounted thread m s s') (h' : StepsCounted thread n s' s'') :
    StepsCounted thread (m + n) s s'' := by
  obtain ⟨hthree, hfour⟩ := h
  obtain ⟨hthree', hfour'⟩ := h'
  constructor <;> omega

omit [DecidableEq Process] in
theorem StepsCounted.of_eq {thread : Thread} {s s' : NodeState Process Thread}
    (hreturned : s'.returnedTo thread = s.returnedTo thread)
    (hcall : s'.cuid thread = s.cuid thread) : StepsCounted thread 0 s s' := by
  constructor <;> rw [hreturned, hcall] <;> omega

theorem NodeState.next_stepsCounted (s : NodeState Process Thread)
    (action : NodeAction Process Thread) (thread : Thread) :
    StepsCounted thread (if action.isStepOf thread then 1 else 0) s (s.next build action) := by
  cases action with
  | init process succeeds => exact .of_eq rfl rfl
  | cuid thread' tvuTime =>
      by_cases hself : thread' = thread
      · obtain rfl := hself
        have hown : (NodeAction.cuid thread' tvuTime : NodeAction Process Thread).isStepOf
            thread' = true := by simp [NodeAction.isStepOf]
        rw [if_pos hown]
        rcases tvnCuidStep_taken s.segment.nodeId tvuTime s.segment.prevCuid (s.cuid thread')
          with ⟨hreturned, htaken⟩ | ⟨hreturned, htaken, htwo, hthree⟩
        · constructor
          all_goals
            simp only [NodeState.next, NodeState.returnedTo, Function.update_self, hreturned,
              htaken, Option.toList_none, List.map_nil, List.nil_append]
            omega
        · obtain ⟨id, hid⟩ := Option.isSome_iff_exists.mp hreturned
          constructor
          all_goals
            simp only [NodeState.next, NodeState.returnedTo, Function.update_self, hid, htaken,
              Option.toList_some, List.map_cons, List.map_nil, List.cons_append, List.nil_append,
              List.countP_cons, decide_true, if_true]
            omega
      · have hother : (NodeAction.cuid thread' tvuTime : NodeAction Process Thread).isStepOf
            thread = false := by simp [NodeAction.isStepOf, hself]
        rw [if_neg (by simp [hother])]
        refine .of_eq ?_ (Function.update_of_ne (Ne.symm hself) _ _)
        simp only [NodeState.next, NodeState.returnedTo, List.countP_append, List.countP_map]
        simp [Function.comp_def, hself]

/--
Whatever the other threads do, and whatever processes are initialised at the
same time, a thread has an id for every third or fourth of its steps.
-/
theorem NodeState.wait_free (s : NodeState Process Thread)
    (actions : List (NodeAction Process Thread)) (thread : Thread) :
    StepsCounted thread (actions.countP (NodeAction.isStepOf thread)) s
      (actions.foldl (NodeState.next build) s) := by
  induction actions generalizing s with
  | nil => exact .of_eq rfl rfl
  | cons action actions ih =>
      have hrun := (s.next_stepsCounted build action thread).trans
        (ih (s.next build action))
      rw [List.countP_cons, Nat.add_comm]
      exact hrun

end Steps

/-! ## Ids ahead of the clock -/

section Ahead

variable {Node Thread : Type} [DecidableEq Node] [DecidableEq Thread]

/-- Any thread takes its next step; the clock is not negative and not beyond `latest`. -/
inductive TimedStep (cluster : Cluster Node Thread) (latest : Int) :
    ClusterState Node Thread → ClusterState Node Thread → Prop
  | mk {s : ClusterState Node Thread} (thread : Thread) (tvuTime : Int64) :
      0 ≤ tvuTime.toInt → tvuTime.toInt ≤ latest →
      TimedStep cluster latest s (s.next cluster thread tvuTime)

def TimedReachable (cluster : Cluster Node Thread) (latest : Int)
    (s : ClusterState Node Thread) : Prop :=
  Relation.ReflTransGen (TimedStep cluster latest) .init s

def Cluster.latestId (cluster : Cluster Node Thread) (latest : Int) (node : Node) : Int :=
  latest / 4096 * 4096 + (cluster.nodeId node).toInt

def idsOf (node : Node) (issued : List (Issue Node)) : Nat :=
  issued.countP fun issue => decide (issue.node = node)

/-- Each id is at most one time step ahead for itself and for each older one of its node. -/
def ClusterState.Ahead (cluster : Cluster Node Thread) (latest : Int)
    (s : ClusterState Node Thread) : Prop :=
  ∀ issue older, issue :: older <:+ s.issued →
    issue.id.toInt ≤
      cluster.latestId latest issue.node + 4096 * (idsOf issue.node older + 1 : Nat)

def CuidCall.NewLe (bound : Int) : CuidCall → Prop
  | .idle | .failed => True
  | .timed newCuid | .read newCuid _ => newCuid.toInt ≤ bound

structure AheadInvariant (cluster : Cluster Node Thread) (latest : Int)
    (s : ClusterState Node Thread) : Prop where
  prevCuid_le : ∀ node, (s.prevCuid node).toInt ≤
    cluster.latestId latest node + 4096 * (idsOf node s.issued : Int)
  new_le : ∀ thread, (s.call thread).NewLe (cluster.latestId latest (cluster.home thread))
  ahead : s.Ahead cluster latest

variable {cluster : Cluster Node Thread} {latest : Int} {s s' : ClusterState Node Thread}

omit [DecidableEq Thread] in
private theorem aheadInvariant_init (hlatest : 0 ≤ latest) :
    AheadInvariant cluster latest .init where
  prevCuid_le node := by
    have hnode := cluster.nodeId_nonneg node
    simp only [ClusterState.init, Cluster.latestId, idsOf, List.countP_nil]
    change (0 : Int) ≤ _
    omega
  new_le _ := trivial
  ahead issue older h := by
    have hnil := List.suffix_nil.mp h
    cases hnil

omit [DecidableEq Thread] in
private theorem idsOf_le_length (node : Node) (issued : List (Issue Node)) :
    idsOf node issued ≤ issued.length :=
  List.countP_le_length

theorem AheadInvariant.room (h : AheadInvariant cluster latest s) {thread : Thread}
    {tvuTime : Int64}
    (hroom : latest + 4096 * ((s.next cluster thread tvuTime).issued.length + 1 : Nat) < 2 ^ 63)
    (hfailed : s.call thread = .failed) :
    (s.prevCuid (cluster.home thread)).toInt + 4096 < 2 ^ 63 := by
  have hissued : (s.next cluster thread tvuTime).issued.length = s.issued.length + 1 := by
    simp [ClusterState.next, hfailed, tvnCuidStep]
  have hprev := h.prevCuid_le (cluster.home thread)
  have hcount := idsOf_le_length (cluster.home thread) s.issued
  have hnode := cluster.nodeId_lt (cluster.home thread)
  rw [hissued] at hroom
  unfold Cluster.latestId at hprev
  omega

theorem CuidCall.NewLe.of_continues {nodeId : Int16} {prevCuid tvuTime : Int64}
    {call call' : CuidCall} {bound : Int} (h : call.NewLe bound)
    (hclock : (stamp nodeId tvuTime).toInt ≤ bound)
    (hstep : tvnCuidStep nodeId tvuTime prevCuid call = ⟨call', prevCuid, none⟩) :
    call'.NewLe bound := by
  cases call with
  | idle =>
      obtain rfl := congrArg CuidStep.call hstep
      exact hclock
  | timed newCuid =>
      obtain rfl := congrArg CuidStep.call hstep
      exact h
  | read newCuid oldCuid =>
      simp only [tvnCuidStep] at hstep
      split at hstep
      · cases congrArg CuidStep.returned hstep
      · obtain rfl := congrArg CuidStep.call hstep
        trivial
  | failed => cases congrArg CuidStep.returned hstep

theorem CuidCall.NewLe.le_of_returns {prevCuid id : Int64} {call : CuidCall} {bound ids : Int}
    (h : call.NewLe bound) (hprev : prevCuid.toInt ≤ bound + 4096 * ids) (hids : 0 ≤ ids)
    (hreturns : Returns prevCuid call id) : id.toInt ≤ bound + 4096 * (ids + 1) := by
  cases hreturns with
  | swapped _ =>
      have hnew : id.toInt ≤ bound := h
      omega
  | added hid => omega

omit [DecidableEq Node] [DecidableEq Thread] in
private theorem stamp_le_latestId (cluster : Cluster Node Thread) (node : Node) {tvuTime : Int64}
    (hclock : 0 ≤ tvuTime.toInt) (hlatest : tvuTime.toInt ≤ latest) :
    (stamp (cluster.nodeId node) tvuTime).toInt ≤ cluster.latestId latest node := by
  rw [stamp, toInt_newCuid hclock (cluster.nodeId_nonneg node) (cluster.nodeId_lt node),
    Cluster.latestId]
  omega

theorem AheadInvariant.next_of_continues (h : AheadInvariant cluster latest s) {thread : Thread}
    {tvuTime : Int64} {call' : CuidCall} (hclock : 0 ≤ tvuTime.toInt)
    (hlatest : tvuTime.toInt ≤ latest)
    (hstep : tvnCuidStep (cluster.nodeId (cluster.home thread)) tvuTime
      (s.prevCuid (cluster.home thread)) (s.call thread) =
        ⟨call', s.prevCuid (cluster.home thread), none⟩) :
    AheadInvariant cluster latest (s.next cluster thread tvuTime) := by
  have hnew := (h.new_le thread).of_continues
    (stamp_le_latestId cluster (cluster.home thread) hclock hlatest) hstep
  constructor
  · simpa only [ClusterState.next, hstep, Function.update_eq_self] using h.prevCuid_le
  · simp only [ClusterState.next, hstep]
    apply (Function.forall_update_iff s.call fun thread' call =>
      call.NewLe (cluster.latestId latest (cluster.home thread'))).mpr
    exact ⟨hnew, fun thread' _ => h.new_le thread'⟩
  · simpa only [ClusterState.Ahead, ClusterState.next, hstep] using h.ahead

theorem AheadInvariant.next_of_returns (h : AheadInvariant cluster latest s) {thread : Thread}
    {tvuTime id : Int64}
    (hstep : tvnCuidStep (cluster.nodeId (cluster.home thread)) tvuTime
      (s.prevCuid (cluster.home thread)) (s.call thread) = ⟨.idle, id, some id⟩)
    (hreturns : CuidCall.Returns (s.prevCuid (cluster.home thread)) (s.call thread) id) :
    AheadInvariant cluster latest (s.next cluster thread tvuTime) := by
  have hid := (h.new_le thread).le_of_returns (h.prevCuid_le (cluster.home thread))
    (Int.natCast_nonneg _) hreturns
  constructor
  · simp only [ClusterState.next, hstep]
    apply (Function.forall_update_iff s.prevCuid fun node prevCuid =>
      prevCuid.toInt ≤ cluster.latestId latest node + 4096 * (idsOf node
        (⟨cluster.home thread, id, s.clock thread, s.seen thread⟩ :: s.issued) : Int)).mpr
    constructor
    · simpa [idsOf] using hid
    · intro node hother
      simpa [idsOf, Ne.symm hother] using h.prevCuid_le node
  · simp only [ClusterState.next, hstep]
    apply (Function.forall_update_iff s.call fun thread' call =>
      call.NewLe (cluster.latestId latest (cluster.home thread'))).mpr
    exact ⟨trivial, fun thread' _ => h.new_le thread'⟩
  · intro issue older hsuffix
    simp only [ClusterState.next, hstep] at hsuffix
    rcases List.suffix_cons_iff.mp hsuffix with heq | hold
    · obtain ⟨rfl, rfl⟩ := List.cons.inj heq
      simpa using hid
    · exact h.ahead issue older hold

theorem TimedStep.clusterStep (hstep : TimedStep cluster latest s s')
    (h : AheadInvariant cluster latest s)
    (hroom : latest + 4096 * (s'.issued.length + 1 : Nat) < 2 ^ 63) :
    ClusterStep cluster s s' ∧ AheadInvariant cluster latest s' := by
  cases hstep with
  | mk thread tvuTime hclock hlatest =>
      refine ⟨.mk thread tvuTime hclock (h.room hroom), ?_⟩
      rcases tvnCuidStep_cases (cluster.nodeId (cluster.home thread)) (s.call thread) hclock
        (h.room hroom) with ⟨call', hnext, -⟩ | ⟨id, hnext, hreturns⟩
      · exact h.next_of_continues hclock hlatest hnext
      · exact h.next_of_returns hnext hreturns

theorem TimedStep.length_le (hstep : TimedStep cluster latest s s') :
    s.issued.length ≤ s'.issued.length := by
  cases hstep with
  | mk thread tvuTime _ _ =>
      rcases s.issued_next cluster thread tvuTime with hissued | ⟨id, hissued⟩
      · exact hissued ▸ le_refl _
      · exact hissued ▸ Nat.le_succ _

/--
As long as the latest time has room above it for a time step for each id, no
addition overflows, and no id is further ahead than the ids of its node are
many.
-/
theorem TimedReachable.close_to_clock (hlatest : 0 ≤ latest) (h : TimedReachable cluster latest s)
    (hroom : latest + 4096 * (s.issued.length + 1 : Nat) < 2 ^ 63) :
    Reachable cluster s ∧ s.Ahead cluster latest := by
  suffices hinvariant : Reachable cluster s ∧ AheadInvariant cluster latest s from
    hinvariant.imp_right AheadInvariant.ahead
  induction h with
  | refl => exact ⟨.refl, aheadInvariant_init hlatest⟩
  | tail _ hstep ih =>
      have hlength := hstep.length_le
      obtain ⟨hreachable, hinv⟩ := ih (by omega)
      obtain ⟨hcluster, hinv'⟩ := hstep.clusterStep hinv hroom
      exact ⟨hreachable.tail hcluster, hinv'⟩

theorem TimedReachable.foldl {steps : List (Thread × Int64)}
    (h : TimedReachable cluster latest s)
    (hsteps : ∀ step ∈ steps, 0 ≤ step.2.toInt ∧ step.2.toInt ≤ latest) :
    TimedReachable cluster latest
      (steps.foldl (fun s step => s.next cluster step.1 step.2) s) := by
  induction steps generalizing s with
  | nil => exact h
  | cons step steps ih =>
      obtain ⟨⟨hclock, hlatest⟩, hrest⟩ := List.forall_mem_cons.mp hsteps
      exact ih (h.tail (.mk step.1 step.2 hclock hlatest)) hrest

end Ahead

/-- The addition has made an id beyond the latest time. -/
theorem threeCalls_ahead :
    8193 ∈ threeCalls.issued.map Issue.id ∧
      Reachable threeThreads threeCalls ∧ threeCalls.Ahead threeThreads 4096 := by
  have hclocks : ∀ step ∈ threeCallSteps, 0 ≤ step.2.toInt ∧ step.2.toInt ≤ 4096 := by
    simp [threeCallSteps]
  have hsteps : TimedReachable threeThreads 4096 threeCalls := .foldl .refl hclocks
  exact ⟨by decide, TimedReachable.close_to_clock (by decide) hsteps (by decide)⟩

end Libtvnet
