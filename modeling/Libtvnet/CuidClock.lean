import Libtvnet.CuidOrder

/-!
# Ids and the clock

An id is never below the clock that its call has read, unless the call has lost
its compare-and-swap to one that held an older time.  The addition then starts
from that older time, and one time step need not make up for it.
-/

namespace Libtvnet

variable {Node Thread : Type} [DecidableEq Node] [DecidableEq Thread]

/-! ## The property and its condition -/

def stamp (nodeId : Int16) (tvuTime : Int64) : Int64 := (tvuTime &&& timeMask) ||| nodeId.toInt64

/-- No id is behind the clock value that its call has read. -/
def ClusterState.KeepsTime (cluster : Cluster Node Thread) (s : ClusterState Node Thread) :
    Prop :=
  ∀ issue ∈ s.issued, stamp (cluster.nodeId issue.node) issue.clock ≤ issue.id

/-- A call with the newer time that lost the cell finds there at most one time step less. -/
def ClusterState.Close (cluster : Cluster Node Thread) (s : ClusterState Node Thread)
    (thread : Thread) : Prop :=
  match s.call thread with
  | .idle | .timed _ | .failed => True
  | .read newCuid oldCuid =>
      newCuid > oldCuid → s.prevCuid (cluster.home thread) ≠ oldCuid →
        newCuid.toInt ≤ (s.prevCuid (cluster.home thread)).toInt + 4096

/-! ## The invariant -/

def CuidCall.Timed (new prevCuid : Int64) : CuidCall → Prop
  | .idle => True
  | .timed newCuid => newCuid = new
  | .read newCuid oldCuid => newCuid = new ∧ oldCuid.toInt ≤ prevCuid.toInt
  | .failed => new.toInt ≤ prevCuid.toInt + 4096

structure ClockInvariant (cluster : Cluster Node Thread) (s : ClusterState Node Thread) :
    Prop where
  timed : ∀ thread, (s.call thread).Timed
    (stamp (cluster.nodeId (cluster.home thread)) (s.clock thread))
    (s.prevCuid (cluster.home thread))
  keepsTime : s.KeepsTime cluster

omit [DecidableEq Node] [DecidableEq Thread] in
private theorem clockInvariant_init (cluster : Cluster Node Thread) :
    ClockInvariant cluster .init where
  timed _ := trivial
  keepsTime := by simp [ClusterState.KeepsTime, ClusterState.init]

theorem CuidCall.Timed.mono {new prevCuid prevCuid' : Int64} {call : CuidCall}
    (h : call.Timed new prevCuid) (hle : prevCuid.toInt ≤ prevCuid'.toInt) :
    call.Timed new prevCuid' := by
  cases call with
  | idle => trivial
  | timed newCuid => exact h
  | read newCuid oldCuid => exact ⟨h.1, h.2.trans hle⟩
  | failed =>
      have hnew : new.toInt ≤ prevCuid.toInt + 4096 := h
      change new.toInt ≤ prevCuid'.toInt + 4096
      omega

private theorem tvnCuidStep_timed {nodeId : Int16} {clock prevCuid : Int64} {call : CuidCall}
    (tvuTime : Int64)
    (h : call.Timed (stamp nodeId clock) prevCuid)
    (hroom : call = .failed → prevCuid.toInt + 4096 < 2 ^ 63)
    (hclose : ∀ newCuid oldCuid, call = .read newCuid oldCuid → newCuid > oldCuid →
      prevCuid ≠ oldCuid → newCuid.toInt ≤ prevCuid.toInt + 4096) :
    (∃ call', tvnCuidStep nodeId tvuTime prevCuid call = ⟨call', prevCuid, none⟩ ∧
      call'.Timed (stamp nodeId (if call = .idle then tvuTime else clock)) prevCuid) ∨
    ∃ id, tvnCuidStep nodeId tvuTime prevCuid call = ⟨.idle, id, some id⟩ ∧ call ≠ .idle ∧
      prevCuid.toInt ≤ id.toInt ∧ (stamp nodeId clock).toInt ≤ id.toInt := by
  cases call with
  | idle => exact .inl ⟨_, rfl, rfl⟩
  | timed newCuid => exact .inl ⟨_, rfl, h, le_refl _⟩
  | read newCuid oldCuid =>
      obtain ⟨hnew, hold⟩ := h
      by_cases hswap : newCuid > oldCuid ∧ prevCuid = oldCuid
      · obtain ⟨hgt, rfl⟩ := hswap
        have hlt := Int64.lt_iff_toInt_lt.mp hgt
        exact .inr ⟨newCuid, if_pos ⟨hgt, rfl⟩, by simp, hlt.le, by rw [hnew]⟩
      · refine .inl ⟨.failed, if_neg hswap, ?_⟩
        rw [if_neg (by simp), CuidCall.Timed, ← hnew]
        by_cases hgt : newCuid > oldCuid
        · exact hclose newCuid oldCuid rfl hgt fun heq => hswap ⟨hgt, heq⟩
        · -- The time was used already: the cell has not fallen below it since.
          have hle : newCuid.toInt ≤ oldCuid.toInt :=
            not_lt.mp fun hlt => hgt (Int64.lt_iff_toInt_lt.mpr hlt)
          omega
  | failed =>
      have hid : (prevCuid + timeStep).toInt = prevCuid.toInt + 4096 := by
        have hlo := prevCuid.le_toInt
        have hhi := hroom rfl
        have hstep : timeStep.toInt = 4096 := by decide
        rw [Int64.toInt_add, hstep]
        simp only [Int.bmod]
        omega
      have hnew : (stamp nodeId clock).toInt ≤ prevCuid.toInt + 4096 := h
      exact .inr ⟨_, rfl, by simp, by omega, by omega⟩

namespace ClockInvariant

variable {cluster : Cluster Node Thread} {s : ClusterState Node Thread} {thread : Thread}
  {tvuTime : Int64}

theorem next_of_continues (h : ClockInvariant cluster s) {call' : CuidCall}
    (hnext : tvnCuidStep (cluster.nodeId (cluster.home thread)) tvuTime
      (s.prevCuid (cluster.home thread)) (s.call thread) =
        ⟨call', s.prevCuid (cluster.home thread), none⟩)
    (htimed : call'.Timed (stamp (cluster.nodeId (cluster.home thread))
      (if s.call thread = .idle then tvuTime else s.clock thread))
      (s.prevCuid (cluster.home thread))) :
    ClockInvariant cluster (s.next cluster thread tvuTime) := by
  constructor
  · intro thread'
    simp only [ClusterState.next, hnext, Function.update_eq_self]
    by_cases hself : thread' = thread
    · subst hself
      rw [Function.update_self]
      split at htimed
      case isTrue hstarts => simpa [hstarts] using htimed
      case isFalse hstarts => simpa [hstarts] using htimed
    · rw [Function.update_of_ne hself]
      split
      · rw [Function.update_of_ne hself]
        exact h.timed thread'
      · exact h.timed thread'
  · simp only [ClusterState.next, hnext, ClusterState.KeepsTime]
    exact h.keepsTime

omit [DecidableEq Thread] in
private theorem timed_update (h : ClockInvariant cluster s) {node : Node} {id : Int64}
    (hle : (s.prevCuid node).toInt ≤ id.toInt) (thread' : Thread) :
    (s.call thread').Timed (stamp (cluster.nodeId (cluster.home thread')) (s.clock thread'))
      (Function.update s.prevCuid node id (cluster.home thread')) := by
  apply (h.timed thread').mono
  by_cases hhome : cluster.home thread' = node
  · rw [hhome, Function.update_self]
    exact hle
  · rw [Function.update_of_ne hhome]

private theorem next_of_issues (h : ClockInvariant cluster s) {id : Int64}
    (hnext : tvnCuidStep (cluster.nodeId (cluster.home thread)) tvuTime
      (s.prevCuid (cluster.home thread)) (s.call thread) = ⟨.idle, id, some id⟩)
    (hidle : s.call thread ≠ .idle) (hprev : (s.prevCuid (cluster.home thread)).toInt ≤ id.toInt)
    (hclock : (stamp (cluster.nodeId (cluster.home thread)) (s.clock thread)).toInt ≤ id.toInt) :
    ClockInvariant cluster (s.next cluster thread tvuTime) := by
  constructor
  · simp only [ClusterState.next, hnext, if_neg hidle]
    apply (Function.forall_update_iff s.call fun thread' call =>
      call.Timed (stamp (cluster.nodeId (cluster.home thread')) (s.clock thread'))
        (Function.update s.prevCuid (cluster.home thread) id (cluster.home thread'))).mpr
    exact ⟨trivial, fun thread' _ => h.timed_update hprev thread'⟩
  · intro issue hissue
    simp only [ClusterState.next, hnext] at hissue
    cases hissue with
    | head => exact Int64.le_iff_toInt_le.mpr hclock
    | tail _ hold => exact h.keepsTime issue hold

end ClockInvariant

theorem AllowedStep.clockInvariant {cluster : Cluster Node Thread}
    {s s' : ClusterState Node Thread}
    (hstep : AllowedStep cluster (ClusterState.Close cluster) s s')
    (h : ClockInvariant cluster s) : ClockInvariant cluster s' := by
  cases hstep with
  | mk thread tvuTime _ hroom hclose =>
      have hthread : ∀ newCuid oldCuid, s.call thread = .read newCuid oldCuid →
          newCuid > oldCuid → s.prevCuid (cluster.home thread) ≠ oldCuid →
          newCuid.toInt ≤ (s.prevCuid (cluster.home thread)).toInt + 4096 := by
        intro newCuid oldCuid hread
        rw [ClusterState.Close, hread] at hclose
        exact hclose
      rcases tvnCuidStep_timed tvuTime (h.timed thread) hroom hthread with
        ⟨call', hnext, htimed⟩ | ⟨id, hnext, hidle, hprev, hclock⟩
      · exact h.next_of_continues hnext htimed
      · exact h.next_of_issues hnext hidle hprev hclock

theorem AllowedReachable.clockInvariant {cluster : Cluster Node Thread}
    {s : ClusterState Node Thread}
    (h : AllowedReachable cluster (ClusterState.Close cluster) s) : ClockInvariant cluster s := by
  induction h with
  | refl => exact clockInvariant_init cluster
  | tail _ hstep ih => exact hstep.clockInvariant ih

/-- In every run in which no call loses the cell to a much older time, no id lags the clock. -/
theorem AllowedReachable.keeps_time {cluster : Cluster Node Thread}
    {s : ClusterState Node Thread}
    (h : AllowedReachable cluster (ClusterState.Close cluster) s) : s.KeepsTime cluster :=
  h.clockInvariant.keepsTime

/-! ## Two threads -/

def oneNode : Cluster Unit Bool where
  home _ := ()
  nodeId _ := 0
  nodeId_nonneg := by decide
  nodeId_lt := by decide
  nodeId_injective := by decide

instance (cluster : Cluster Node Thread) (s : ClusterState Node Thread) :
    DecidablePred (s.Close cluster) := fun thread => by
  unfold ClusterState.Close
  split <;> infer_instance

/--
Both threads read the clock and the empty cell; the first of them, one time
step older, stores its id.
-/
def overtakenSteps (newer : Int64) : List (Bool × Int64) :=
  [(true, 0x1000), (false, newer), (true, 0), (false, 0), (true, 0), (false, 0), (false, 0)]

theorem keeps_time_close :
    (ClusterState.run oneNode (overtakenSteps 0x2000)).KeepsTime oneNode := by
  have hadmits : ClusterState.Admits oneNode (ClusterState.Close oneNode) .init
      (overtakenSteps 0x2000) := by decide
  exact AllowedReachable.keeps_time (AllowedReachable.foldl .refl hadmits)

/-- The second thread has read 0x5000, and the id that it returns is 0x2000. -/
theorem not_keeps_time_overtaken :
    ¬ ∀ s : ClusterState Unit Bool, Reachable oneNode s → s.KeepsTime oneNode := by
  intro h
  have hadmits : ClusterState.Admits oneNode (fun _ _ => True) .init
      (overtakenSteps 0x5000) := by decide
  have hkeeps := h _ (AllowedReachable.foldl .refl hadmits).reachable
    ⟨(), 0x2000, 0x5000, 0⟩ (.head _)
  exact absurd hkeeps (by decide)

end Libtvnet
