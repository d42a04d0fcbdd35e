import Libtvnet.Cuid

/-!
# Cluster-wide uniqueness of ids

On one node the ids are handed out by a cell that only grows.  Ids of two
nodes differ in their low 12 bits, which are those of the node in every value
of the cell but the initial zero; that zero is never added to.
-/

namespace Libtvnet

open Libtvnet.Foundation

variable {Node Thread : Type} [DecidableEq Node] [DecidableEq Thread]

/-! ## What a step does -/

inductive CuidCall.Quiet (nodeId : Int16) (prevCuid : Int64) : CuidCall → CuidCall → Prop
  | start {t : Int64} : 0 ≤ t.toInt →
      Quiet nodeId prevCuid .idle (.timed ((t &&& timeMask) ||| nodeId.toInt64))
  | read {newCuid : Int64} :
      Quiet nodeId prevCuid (.timed newCuid) (.read newCuid prevCuid)
  | lost {newCuid oldCuid : Int64} : newCuid.toInt ≤ oldCuid.toInt ∨ prevCuid ≠ oldCuid →
      Quiet nodeId prevCuid (.read newCuid oldCuid) .failed

/-- The steps that return an id: a compare-and-swap that succeeds, and the addition. -/
inductive CuidCall.Returns (prevCuid : Int64) : CuidCall → Int64 → Prop
  | swapped {newCuid : Int64} : prevCuid.toInt < newCuid.toInt →
      Returns prevCuid (.read newCuid prevCuid) newCuid
  | added {id : Int64} : id.toInt = prevCuid.toInt + 4096 → Returns prevCuid .failed id

theorem CuidCall.Returns.lt {prevCuid id : Int64} {call : CuidCall}
    (h : Returns prevCuid call id) : prevCuid.toInt < id.toInt := by
  cases h with
  | swapped hlt => exact hlt
  | added hid => omega

theorem tvnCuidStep_cases (nodeId : Int16) {tvuTime prevCuid : Int64} (call : CuidCall)
    (hclock : 0 ≤ tvuTime.toInt)
    (hroom : call = .failed → prevCuid.toInt + 4096 < 2 ^ 63) :
    (∃ call', tvnCuidStep nodeId tvuTime prevCuid call = ⟨call', prevCuid, none⟩ ∧
      CuidCall.Quiet nodeId prevCuid call call') ∨
    ∃ id, tvnCuidStep nodeId tvuTime prevCuid call = ⟨.idle, id, some id⟩ ∧
      CuidCall.Returns prevCuid call id := by
  cases call with
  | idle => exact .inl ⟨_, rfl, .start hclock⟩
  | timed newCuid => exact .inl ⟨_, rfl, .read⟩
  | read newCuid oldCuid =>
      by_cases hswap : newCuid > oldCuid ∧ prevCuid = oldCuid
      · obtain ⟨hgt, rfl⟩ := hswap
        refine .inr ⟨newCuid, if_pos ⟨hgt, rfl⟩, .swapped ?_⟩
        exact Int64.lt_iff_toInt_lt.mp hgt
      · refine .inl ⟨.failed, if_neg hswap, .lost ?_⟩
        by_cases hgt : newCuid > oldCuid
        · exact .inr fun heq => hswap ⟨hgt, heq⟩
        · exact .inl (not_lt.mp fun hlt => hgt (Int64.lt_iff_toInt_lt.mpr hlt))
  | failed =>
      refine .inr ⟨_, rfl, .added ?_⟩
      have hlo := prevCuid.le_toInt
      have hhi := hroom rfl
      have hstep : timeStep.toInt = 4096 := by decide
      rw [Int64.toInt_add, hstep]
      simp only [Int.bmod]
      omega

theorem ClusterStep.cases {cluster : Cluster Node Thread} {s s' : ClusterState Node Thread}
    (h : ClusterStep cluster s s') :
    ∃ thread,
      (∃ call', s'.prevCuid = s.prevCuid ∧ s'.issued = s.issued ∧
        s'.call = Function.update s.call thread call' ∧
        CuidCall.Quiet (cluster.nodeId (cluster.home thread))
          (s.prevCuid (cluster.home thread)) (s.call thread) call') ∨
      ∃ id, s'.prevCuid = Function.update s.prevCuid (cluster.home thread) id ∧
        s'.issued = ⟨cluster.home thread, id, s.clock thread, s.seen thread⟩ :: s.issued ∧
        s'.call = Function.update s.call thread .idle ∧
        CuidCall.Returns (s.prevCuid (cluster.home thread)) (s.call thread) id := by
  cases h with
  | mk thread tvuTime hclock hroom =>
      refine ⟨thread, ?_⟩
      rcases tvnCuidStep_cases (cluster.nodeId (cluster.home thread)) (s.call thread) hclock
        hroom with ⟨call', hstep, hquiet⟩ | ⟨id, hstep, hreturns⟩
      · refine .inl ⟨call', ?_, ?_, ?_, hquiet⟩
        all_goals simp [ClusterState.next, hstep]
      · refine .inr ⟨id, ?_, ?_, ?_, hreturns⟩
        all_goals simp [ClusterState.next, hstep]

/-! ## One node is an issuer -/

def ClusterState.issuer (s : ClusterState Node Thread) (node : Node) : Issuer Int where
  cell := (s.prevCuid node).toInt
  issued := (s.issued.filter fun issue => issue.node = node).map fun issue => issue.id.toInt

theorem ClusterStep.issuer {cluster : Cluster Node Thread} {s s' : ClusterState Node Thread}
    (h : ClusterStep cluster s s') (node : Node) :
    Relation.ReflTransGen Issuer.Step (s.issuer node) (s'.issuer node) := by
  obtain ⟨thread, hquiet | hreturns⟩ := h.cases
  · obtain ⟨_, hprev, hissued, -⟩ := hquiet
    rw [ClusterState.issuer, ClusterState.issuer, hprev, hissued]
  · obtain ⟨id, hprev, hissued, -, hreturns⟩ := hreturns
    by_cases hnode : cluster.home thread = node
    · obtain rfl := hnode
      apply Relation.ReflTransGen.single
      have hstep : Issuer.Step (s.issuer (cluster.home thread))
          ⟨id.toInt, id.toInt :: (s.issuer (cluster.home thread)).issued⟩ :=
        .issue hreturns.lt
      simpa [ClusterState.issuer, hprev, hissued] using hstep
    · have hother : Function.update s.prevCuid (cluster.home thread) id node =
          s.prevCuid node := Function.update_of_ne (Ne.symm hnode) _ _
      have hsame : s'.issuer node = s.issuer node := by
        simp [ClusterState.issuer, hprev, hissued, hother, hnode]
      rw [hsame]

theorem Reachable.issuer_sound {cluster : Cluster Node Thread} {s : ClusterState Node Thread}
    (h : Reachable cluster s) (node : Node) : (s.issuer node).Sound :=
  Issuer.run_sound (h.lift' (·.issuer node) fun _ _ hstep => hstep.issuer node)
    (Issuer.sound_nil 0)

/-! ## The low 12 bits -/

def Stamped (nodeId : Int16) (x : Int64) : Prop := x.toInt % 4096 = nodeId.toInt

/-- What a call knows of the shared cell, where `prevCuid` is its present value. -/
def CuidCall.Knows (nodeId : Int16) (prevCuid : Int64) : CuidCall → Prop
  | .idle => True
  | .timed newCuid => Stamped nodeId newCuid ∧ 0 ≤ newCuid.toInt
  | .read newCuid oldCuid => Stamped nodeId newCuid ∧ 0 ≤ newCuid.toInt ∧
      0 ≤ oldCuid.toInt ∧ oldCuid.toInt ≤ prevCuid.toInt
  | .failed => Stamped nodeId prevCuid

structure StampInvariant (cluster : Cluster Node Thread) (s : ClusterState Node Thread) :
    Prop where
  prevCuid_nonneg : ∀ node, 0 ≤ (s.prevCuid node).toInt
  prevCuid_stamped : ∀ node, (s.prevCuid node).toInt ≠ 0 →
    Stamped (cluster.nodeId node) (s.prevCuid node)
  knows : ∀ thread, (s.call thread).Knows (cluster.nodeId (cluster.home thread))
    (s.prevCuid (cluster.home thread))
  issued_stamped : ∀ issue ∈ s.issued, Stamped (cluster.nodeId issue.node) issue.id

omit [DecidableEq Node] [DecidableEq Thread] in
private theorem stampInvariant_init (cluster : Cluster Node Thread) :
    StampInvariant cluster .init where
  prevCuid_nonneg _ := by simp [ClusterState.init]
  prevCuid_stamped _ h := absurd rfl h
  knows _ := trivial
  issued_stamped := by simp [ClusterState.init]

theorem CuidCall.Knows.mono {nodeId : Int16} {prevCuid prevCuid' : Int64} {call : CuidCall}
    (h : call.Knows nodeId prevCuid) (hle : prevCuid.toInt ≤ prevCuid'.toInt)
    (hstamped : Stamped nodeId prevCuid') : call.Knows nodeId prevCuid' := by
  cases call with
  | idle => trivial
  | timed newCuid => exact h
  | read newCuid oldCuid => exact ⟨h.1, h.2.1, h.2.2.1, h.2.2.2.trans hle⟩
  | failed => exact hstamped

theorem CuidCall.Quiet.knows {nodeId : Int16} {prevCuid : Int64} {call call' : CuidCall}
    (hquiet : Quiet nodeId prevCuid call call') (h : call.Knows nodeId prevCuid)
    (hlo : 0 ≤ nodeId.toInt) (hhi : nodeId.toInt < 4096) (hnonneg : 0 ≤ prevCuid.toInt)
    (hstamped : prevCuid.toInt ≠ 0 → Stamped nodeId prevCuid) :
    call'.Knows nodeId prevCuid := by
  cases hquiet with
  | start ht =>
      have hnew := toInt_newCuid ht hlo hhi
      refine ⟨?_, ?_⟩
      · unfold Stamped
        omega
      · omega
  | read => exact ⟨h.1, h.2, hnonneg, le_refl _⟩
  | @lost newCuid oldCuid hlost =>
      obtain ⟨hnew, hnewNonneg, holdNonneg, hold⟩ := h
      by_cases hzero : prevCuid.toInt = 0
      · have hnewZero : newCuid.toInt = prevCuid.toInt := by
          rcases hlost with hle | hne
          · omega
          · have hdiffer : prevCuid.toInt ≠ oldCuid.toInt :=
              fun heq => hne (Int64.toInt_inj.mp heq)
            omega
        unfold Stamped at hnew
        rw [hnewZero] at hnew
        exact hnew
      · exact hstamped hzero

theorem CuidCall.Returns.stamped {nodeId : Int16} {prevCuid id : Int64} {call : CuidCall}
    (hreturns : Returns prevCuid call id) (h : call.Knows nodeId prevCuid) :
    Stamped nodeId id := by
  cases hreturns with
  | swapped _ => exact h.1
  | added hid =>
      have hprev : prevCuid.toInt % 4096 = nodeId.toInt := h
      unfold Stamped
      omega

omit [DecidableEq Thread] in
theorem StampInvariant.knows_update {cluster : Cluster Node Thread}
    {s : ClusterState Node Thread} (h : StampInvariant cluster s) {node : Node} {id : Int64}
    (hle : (s.prevCuid node).toInt ≤ id.toInt) (hstamped : Stamped (cluster.nodeId node) id)
    (thread' : Thread) :
    (s.call thread').Knows (cluster.nodeId (cluster.home thread'))
      (Function.update s.prevCuid node id (cluster.home thread')) := by
  have hknows := h.knows thread'
  by_cases heq : cluster.home thread' = node
  · rw [heq] at hknows ⊢
    rw [Function.update_self]
    exact hknows.mono hle hstamped
  · rw [Function.update_of_ne heq]
    exact hknows

theorem ClusterStep.stampInvariant {cluster : Cluster Node Thread}
    {s s' : ClusterState Node Thread} (hstep : ClusterStep cluster s s')
    (h : StampInvariant cluster s) : StampInvariant cluster s' := by
  obtain ⟨thread, hquiet | hreturns⟩ := hstep.cases
  · obtain ⟨call', hprev, hissued, hcall, hquiet⟩ := hquiet
    have hknows := hquiet.knows (h.knows thread) (cluster.nodeId_nonneg _)
      (cluster.nodeId_lt _) (h.prevCuid_nonneg _) (h.prevCuid_stamped _)
    constructor
    · rw [hprev]
      exact h.prevCuid_nonneg
    · rw [hprev]
      exact h.prevCuid_stamped
    · rw [hcall, hprev]
      apply (Function.forall_update_iff s.call fun thread' call =>
        call.Knows (cluster.nodeId (cluster.home thread'))
          (s.prevCuid (cluster.home thread'))).mpr
      exact ⟨hknows, fun thread' _ => h.knows thread'⟩
    · rw [hissued]
      exact h.issued_stamped
  · obtain ⟨id, hprev, hissued, hcall, hreturns⟩ := hreturns
    have hstamped := hreturns.stamped (h.knows thread)
    have hlt := hreturns.lt
    have hnonneg := h.prevCuid_nonneg (cluster.home thread)
    constructor
    · rw [hprev]
      apply (Function.forall_update_iff s.prevCuid fun _ prevCuid => 0 ≤ prevCuid.toInt).mpr
      exact ⟨by omega, fun node _ => h.prevCuid_nonneg node⟩
    · rw [hprev]
      apply (Function.forall_update_iff s.prevCuid fun node prevCuid =>
        prevCuid.toInt ≠ 0 → Stamped (cluster.nodeId node) prevCuid).mpr
      exact ⟨fun _ => hstamped, fun node _ => h.prevCuid_stamped node⟩
    · rw [hcall, hprev]
      apply (Function.forall_update_iff s.call fun thread' call =>
        call.Knows (cluster.nodeId (cluster.home thread'))
          (Function.update s.prevCuid (cluster.home thread) id (cluster.home thread'))).mpr
      exact ⟨trivial, fun thread' _ => h.knows_update hlt.le hstamped thread'⟩
    · intro issue hissue
      rw [hissued] at hissue
      rcases List.mem_cons.mp hissue with rfl | hold
      · exact hstamped
      · exact h.issued_stamped issue hold

theorem Reachable.stampInvariant {cluster : Cluster Node Thread}
    {s : ClusterState Node Thread} (h : Reachable cluster s) : StampInvariant cluster s := by
  induction h with
  | refl => exact stampInvariant_init cluster
  | tail _ hstep ih => exact hstep.stampInvariant ih

/-! ## Uniqueness -/

theorem Stamped.eq_nodeId {nodeId : Int16} {x : Int64} (h : Stamped nodeId x) :
    x &&& nodeMask = nodeId.toInt64 := by
  apply Int64.toInt_inj.mp
  rw [toInt_and_nodeMask, Int16.toInt_toInt64]
  exact h

theorem Reachable.issued_decreasing {cluster : Cluster Node Thread}
    {s : ClusterState Node Thread} (h : Reachable cluster s) :
    s.issued.Pairwise fun a b => a.node = b.node → b.id < a.id := by
  have hnode (node : Node) : s.issued.Pairwise fun a b =>
      a.node = node → b.node = node → b.id.toInt < a.id.toInt := by
    have hdecreasing := (h.issuer_sound node).decreasing
    rw [ClusterState.issuer, List.pairwise_map, List.pairwise_filter] at hdecreasing
    simpa using hdecreasing
  rw [List.pairwise_iff_getElem]
  intro i j hi hj hij hsame
  have hlt := List.pairwise_iff_getElem.mp (hnode s.issued[j].node) i j hi hj hij hsame rfl
  exact Int64.lt_iff_toInt_lt.mpr hlt

/-- In every reachable state the ids returned so far are distinct, and carry their node id. -/
theorem Reachable.issued_unique {cluster : Cluster Node Thread} {s : ClusterState Node Thread}
    (h : Reachable cluster s) :
    (s.issued.map Issue.id).Nodup ∧
      ∀ issue ∈ s.issued, issue.id &&& nodeMask = (cluster.nodeId issue.node).toInt64 := by
  have hstamped := h.stampInvariant.issued_stamped
  refine ⟨?_, fun issue hissue => (hstamped issue hissue).eq_nodeId⟩
  rw [List.Nodup, List.pairwise_map, List.pairwise_iff_getElem]
  intro i j hi hj hij heq
  by_cases hsame : s.issued[i].node = s.issued[j].node
  · have hlt := List.pairwise_iff_getElem.mp h.issued_decreasing i j hi hj hij hsame
    rw [heq] at hlt
    exact lt_irrefl _ (Int64.lt_iff_toInt_lt.mp hlt)
  · have hfirst := hstamped s.issued[i] (List.getElem_mem hi)
    have hsecond := hstamped s.issued[j] (List.getElem_mem hj)
    unfold Stamped at hfirst hsecond
    rw [heq, hsecond] at hfirst
    exact hsame (cluster.nodeId_injective (Int16.toInt_inj.mp hfirst)).symm

def threeThreads : Cluster Bool (Fin 3) where
  home thread := decide (thread = 2)
  nodeId node := if node then 2 else 1
  nodeId_nonneg := by decide
  nodeId_lt := by decide
  nodeId_injective := by decide

/-- The second thread has read the cell before the first one stored its id, so it adds. -/
def threeCallSteps : List (Fin 3 × Int64) :=
  [(0, 4096), (1, 4096), (0, 0), (1, 0), (0, 0), (1, 0), (1, 0), (2, 4096), (2, 0), (2, 0)]

def threeCalls : ClusterState Bool (Fin 3) := .run threeThreads threeCallSteps

theorem threeCalls_unique :
    threeCalls.issued.map Issue.id = [4098, 8193, 4097] ∧
      (threeCalls.issued.map Issue.id).Nodup ∧
      ∀ issue ∈ threeCalls.issued,
        issue.id &&& nodeMask = (threeThreads.nodeId issue.node).toInt64 := by
  have hadmits : ClusterState.Admits threeThreads (fun _ _ => True) .init threeCallSteps := by
    decide
  exact ⟨by decide, Reachable.issued_unique (AllowedReachable.foldl .refl hadmits).reachable⟩

end Libtvnet
