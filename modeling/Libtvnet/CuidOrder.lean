import Libtvnet.CuidUnique
import Libtvnet.Foundation.History

/-!
# The real-time order of ids

Ids are sorted to sort what they were given to.  A call can hold a clock value
and a value of the cell that are long out of date, but it returns by a step
that leaves its id in the cell, above all that was there before.
-/

namespace Libtvnet

open Libtvnet.Foundation

variable {Node Thread : Type} [DecidableEq Node] [DecidableEq Thread]

/-! ## What a call has seen -/

structure SeenInvariant (s : ClusterState Node Thread) : Prop where
  started : ∀ thread, s.seen thread ≤ s.issued.length
  witnessed : Witnessed Issue.seen s.issued

omit [DecidableEq Node] [DecidableEq Thread] in
private theorem seenInvariant_init : SeenInvariant (.init : ClusterState Node Thread) where
  started _ := Nat.zero_le _
  witnessed := trivial

theorem ClusterState.issued_next (cluster : Cluster Node Thread) (s : ClusterState Node Thread)
    (thread : Thread) (tvuTime : Int64) :
    (s.next cluster thread tvuTime).issued = s.issued ∨
      ∃ id, (s.next cluster thread tvuTime).issued =
        ⟨cluster.home thread, id, s.clock thread, s.seen thread⟩ :: s.issued := by
  simp only [ClusterState.next]
  split
  · exact .inl rfl
  · next id _ => exact .inr ⟨id, rfl⟩

theorem ClusterState.seen_next_le (cluster : Cluster Node Thread)
    {s : ClusterState Node Thread} (h : ∀ thread, s.seen thread ≤ s.issued.length)
    (thread : Thread) (tvuTime : Int64) (thread' : Thread) :
    (s.next cluster thread tvuTime).seen thread' ≤ s.issued.length := by
  simp only [ClusterState.next]
  split
  · apply (Function.forall_update_iff s.seen fun _ seen => seen ≤ s.issued.length).mpr
    exact ⟨le_refl _, fun thread' _ => h thread'⟩
  · exact h thread'

theorem ClusterStep.seenInvariant {cluster : Cluster Node Thread}
    {s s' : ClusterState Node Thread} (hstep : ClusterStep cluster s s')
    (h : SeenInvariant s) : SeenInvariant s' := by
  cases hstep with
  | mk thread tvuTime _ _ =>
      have hseen := ClusterState.seen_next_le cluster h.started thread tvuTime
      rcases s.issued_next cluster thread tvuTime with hissued | ⟨id, hissued⟩
      · constructor
        · rw [hissued]
          exact hseen
        · rw [hissued]
          exact h.witnessed
      · constructor
        · rw [hissued, List.length_cons]
          exact fun thread' => Nat.le_succ_of_le (hseen thread')
        · rw [hissued]
          exact ⟨h.started thread, h.witnessed⟩

theorem Reachable.seenInvariant {cluster : Cluster Node Thread} {s : ClusterState Node Thread}
    (h : Reachable cluster s) : SeenInvariant s := by
  induction h with
  | refl => exact seenInvariant_init
  | tail _ hstep ih => exact hstep.seenInvariant ih

/-! ## What a call stores -/

def ClusterState.Stores (cluster : Cluster Node Thread) (s : ClusterState Node Thread)
    (thread : Thread) : Prop :=
  match s.call thread with
  | .idle | .timed _ => False
  | .read newCuid oldCuid => newCuid > oldCuid ∧ s.prevCuid (cluster.home thread) = oldCuid
  | .failed => True

theorem ClusterState.prevCuid_lt_next {cluster : Cluster Node Thread}
    {s : ClusterState Node Thread} {thread : Thread} {tvuTime : Int64}
    (hclock : 0 ≤ tvuTime.toInt)
    (hroom : s.call thread = .failed →
      (s.prevCuid (cluster.home thread)).toInt + 4096 < 2 ^ 63)
    (h : s.Stores cluster thread) :
    s.prevCuid (cluster.home thread) <
      (s.next cluster thread tvuTime).prevCuid (cluster.home thread) := by
  simp only [ClusterState.next, Function.update_self]
  rcases tvnCuidStep_cases (cluster.nodeId (cluster.home thread)) (s.call thread) hclock hroom
    with ⟨call', hstep, hquiet⟩ | ⟨id, hstep, hreturns⟩
  · unfold ClusterState.Stores at h
    generalize s.call thread = call at *
    cases hquiet with
    | start _ => exact absurd h id
    | read => exact absurd h id
    | lost hlost =>
        obtain ⟨hgt, hsame⟩ := h
        rcases hlost with hle | hdiffers
        · exact absurd (Int64.lt_iff_toInt_lt.mp hgt) (not_lt.mpr hle)
        · exact absurd hsame hdiffers
  · rw [hstep]
    exact Int64.lt_iff_toInt_lt.mpr hreturns.lt

/-! ## Every run -/

structure IdsOrdered (cluster : Cluster Node Thread) (s : ClusterState Node Thread) :
    Prop where
  real_time : ∀ issue ∈ s.issued, ∀ earlier ∈ before Issue.seen s.issued issue,
    issue.node = earlier.node → earlier.id < issue.id
  increases : ∀ thread tvuTime, 0 ≤ tvuTime.toInt →
    (s.call thread = .failed → (s.prevCuid (cluster.home thread)).toInt + 4096 < 2 ^ 63) →
    s.Stores cluster thread →
    s.prevCuid (cluster.home thread) <
      (s.next cluster thread tvuTime).prevCuid (cluster.home thread)
  le_prevCuid : ∀ issue ∈ s.issued, issue.id ≤ s.prevCuid issue.node

/--
An id is above those of its node that had been returned when its call started,
what is stored in the cell is above what was there, and the cell is at or above
all that was returned.
-/
theorem Reachable.ids_ordered {cluster : Cluster Node Thread} {s : ClusterState Node Thread}
    (h : Reachable cluster s) : IdsOrdered cluster s where
  real_time _ hissue := h.seenInvariant.witnessed.real_time h.issued_decreasing hissue
  increases _ _ hclock hroom hstores := ClusterState.prevCuid_lt_next hclock hroom hstores
  le_prevCuid issue hissue := by
    have hle := (h.issuer_sound issue.node).le_cell issue.id.toInt
      (List.mem_map_of_mem (List.mem_filter.mpr ⟨hissue, by simp⟩))
    exact Int64.le_iff_toInt_le.mpr hle

def twoNodes : Cluster Bool Bool where
  home := id
  nodeId node := if node then 1 else 0
  nodeId_nonneg := by decide
  nodeId_lt := by decide
  nodeId_injective := by decide

/-- The second call of the thread starts when the first has returned; its clock has gone back. -/
def secondCallSteps : List (Bool × Int64) :=
  [(true, 4096), (true, 0), (true, 0), (true, 0), (true, 0), (true, 0), (true, 0)]

theorem ids_ordered_secondCall :
    IdsOrdered twoNodes (ClusterState.run twoNodes secondCallSteps) := by
  have hadmits : ClusterState.Admits twoNodes (fun _ _ => True) .init secondCallSteps := by
    decide
  exact Reachable.ids_ordered (AllowedReachable.foldl .refl hadmits).reachable

end Libtvnet
