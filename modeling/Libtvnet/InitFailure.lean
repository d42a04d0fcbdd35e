import Libtvnet.NodeLabel

/-!
# Failures of `tvn_init`

The first test of `tvn_init` looks at `tvnl_ringbuffer` alone, which is set as
soon as `shmat` has been called and stays set where that or a later step fails.
The next call in the process then returns 0.  So does a call in any process
that finds the mark of a ring whose node id has not been stored, or never will.
-/

namespace Libtvnet

variable {Process Thread : Type}

/-! ## The property -/

structure NodeState.Prepared (s : NodeState Process Thread) (process : Process) : Prop where
  tvnlRingbuffer : (s.globals process).tvnlRingbuffer = .attached
  tvnCuidState : (s.globals process).tvnCuidState = .attached
  ringInitialized : s.segment.ringInitialized = true
  nodeIdStored : s.nodeIdStored = true

/-- No failure was taken for success. -/
def NodeState.Faithful (s : NodeState Process Thread) : Prop :=
  ∀ process, s.Initialized process → s.Prepared process

/-! ## What has failed before -/

/-- A node with the failures so far: in which process, and what has failed there. -/
structure NodeHistory (Process Thread : Type) where
  node : NodeState Process Thread
  failures : List (Process × InitCall)

/-- What fails in the action, so that `tvn_init` returns -1. -/
def NodeState.fails (build : Build) (s : NodeState Process Thread) :
    NodeAction Process Thread → Option (Process × InitCall)
  | .init process succeeds =>
      if (tvnInitStep build succeeds s.segment (s.globals process) (s.init process)).returned =
          some (-1) then some (process, s.init process)
      else none
  | .cuid _ _ => none

def NodeState.Completed (s : NodeState Process Thread) : Prop := ∃ process, 1 ∈ s.returned process

def InitCall.Marked (call : InitCall) : Prop :=
  call = .socket ∨ call = .getsockname ∨ call = .close ∨ call = .storeNodeId

instance : DecidablePred InitCall.Marked := fun _ => inferInstanceAs (Decidable (_ ∨ _))

namespace NodeHistory

/--
A process does not call again behind a failure of `shmat`, nor, while no call
of any process has returned 1, behind one of the later failures.  Nor does a
call look for the mark of the ring while another is between the mark and the
store of the node id, or has failed there.
-/
def Cautious (h : NodeHistory Process Thread) : NodeAction Process Thread → Prop
  | .init process _ =>
      (h.node.init process = .idle → ∀ call, (process, call) ∈ h.failures →
        call = .shmget ∨ (call ≠ .shmat ∧ h.node.Completed)) ∧
      (h.node.init process = .ringIsInitialized → h.node.Completed ∨
        ((∀ other, ¬ (h.node.init other).Marked) ∧ ∀ failure ∈ h.failures, ¬ failure.2.Marked))
  | .cuid _ _ => True

section Runs

variable [DecidableEq Process] [DecidableEq Thread] (build : Build)

def next (h : NodeHistory Process Thread) (action : NodeAction Process Thread) :
    NodeHistory Process Thread :=
  ⟨h.node.next build action, (h.node.fails build action).toList ++ h.failures⟩

def after (actions : List (NodeAction Process Thread)) : NodeHistory Process Thread :=
  actions.foldl (next build) ⟨.initial, []⟩

end Runs

end NodeHistory

/-! ## What a step of `tvn_init` does -/

def InitCall.Done (globals : Globals) : InitCall → Prop
  | .idle => True
  | .shmget | .shmat => globals.tvnlRingbuffer = .null
  | _ => globals.tvnlRingbuffer = .attached

section Init

variable {build : Build} {succeeds : Bool} {segment : SharedSegment} {globals : Globals}
  {call : InitCall}

theorem tvnInitStep_cases (build : Build) (succeeds : Bool) (segment : SharedSegment)
    (globals : Globals) (call : InitCall) :
    ((call = .idle ∧ globals.tvnlRingbuffer ≠ .null ∨
        call = .ringIsInitialized ∧ segment.ringInitialized = true) ∧
      tvnInitStep build succeeds segment globals call = ⟨.idle, segment, globals, some 0⟩) ∨
    (call = .storeNodeId ∧ ∃ nodeId, tvnInitStep build succeeds segment globals call =
      ⟨.idle, { segment with nodeId := nodeId }, globals, some 1⟩) ∨
    (call ≠ .idle ∧ ∃ globals', tvnInitStep build succeeds segment globals call =
        ⟨.idle, segment, globals', some (-1)⟩ ∧
      globals'.tvnlRingbuffer = if call = .shmat then .failed else globals.tvnlRingbuffer) ∨
    ((tvnInitStep build succeeds segment globals call).call ≠ .idle ∧
      (tvnInitStep build succeeds segment globals call).returned = none) := by
  cases call with
  | idle | ringIsInitialized =>
      simp only [tvnInitStep]
      split
      case isTrue h => simp [h]
      case isFalse h => simp
  | storeNodeId => cases build <;> exact .inr (.inl ⟨rfl, _, rfl⟩)
  | ringInit => cases succeeds <;> cases build <;> simp [tvnInitStep]
  | _ => cases succeeds <;> simp [tvnInitStep]

private theorem tvnInitStep_set (h : globals.tvnlRingbuffer ≠ .null) :
    tvnInitStep build succeeds segment globals .idle = ⟨.idle, segment, globals, some 0⟩ :=
  if_pos h

private theorem tvnInitStep_one :
    (tvnInitStep build succeeds segment globals call).returned = some 1 ↔
      call = .storeNodeId := by
  cases call with
  | idle | ringIsInitialized => simp only [tvnInitStep]; split <;> simp
  | storeNodeId => cases build <;> simp [tvnInitStep]
  | _ => cases succeeds <;> cases build <;> simp [tvnInitStep]

private theorem tvnInitStep_ringInitialized (h : segment.ringInitialized = true) :
    (tvnInitStep build succeeds segment globals call).segment.ringInitialized = true := by
  cases call <;> cases build <;> cases succeeds <;> simp [tvnInitStep, h] <;> split <;> exact h

private theorem tvnInitStep_done (h : call.Done globals) :
    (tvnInitStep build succeeds segment globals call).call.Done
      (tvnInitStep build succeeds segment globals call).globals := by
  cases call with
  | idle =>
      simp only [tvnInitStep]
      split
      case isTrue => trivial
      case isFalse hnull => exact not_not.mp hnull
  | ringIsInitialized =>
      simp only [tvnInitStep]
      split
      case isTrue => trivial
      case isFalse => exact h
  | ringInit =>
      cases succeeds with
      | false => trivial
      | true => cases build <;> exact h
  | storeNodeId => cases build <;> trivial
  | _ =>
      cases succeeds with
      | false => trivial
      | true => first | exact h | exact rfl

private theorem tvnInitStep_pointers
    (h : globals.tvnlRingbuffer = .attached → globals.tvnCuidState = .attached) :
    (tvnInitStep build succeeds segment globals call).globals.tvnlRingbuffer = .attached →
      (tvnInitStep build succeeds segment globals call).globals.tvnCuidState = .attached := by
  cases call with
  | shmat =>
      cases succeeds with
      | false => intro hattached; cases hattached
      | true => exact fun _ => rfl
  | idle | ringIsInitialized => simp only [tvnInitStep]; split <;> exact h
  | _ => cases succeeds <;> cases build <;> exact h

private theorem tvnInitStep_attached (hdone : call.Done globals)
    (h : globals.tvnlRingbuffer = .attached) :
    (tvnInitStep build succeeds segment globals call).globals.tvnlRingbuffer = .attached := by
  cases call with
  | shmat => rw [InitCall.Done, h] at hdone; cases hdone
  | idle | ringIsInitialized => simp only [tvnInitStep]; split <;> exact h
  | _ => cases succeeds <;> cases build <;> exact h

private theorem tvnInitStep_opens
    (h : (tvnInitStep build succeeds segment globals call).call.Marked) :
    call.Marked ∨
      (tvnInitStep build succeeds segment globals call).segment.ringInitialized = true := by
  cases call with
  | idle | ringIsInitialized =>
      simp only [tvnInitStep] at h
      split at h <;> simp [InitCall.Marked] at h
  | ringInit =>
      cases succeeds with
      | false => simp [tvnInitStep, InitCall.Marked] at h
      | true => cases build <;> exact .inr rfl
  | shmget | shmat => cases succeeds <;> simp [tvnInitStep, InitCall.Marked] at h
  | _ => exact .inl (by simp [InitCall.Marked])

private theorem tvnInitStep_closes (build : Build) (succeeds : Bool) (segment : SharedSegment)
    (globals : Globals) {call : InitCall} (h : call.Marked) :
    (tvnInitStep build succeeds segment globals call).call.Marked ∨ call = .storeNodeId ∨
      (tvnInitStep build succeeds segment globals call).returned = some (-1) := by
  rcases h with rfl | rfl | rfl | rfl
  · cases succeeds <;> simp [tvnInitStep, InitCall.Marked]
  · cases succeeds <;> simp [tvnInitStep, InitCall.Marked]
  · cases succeeds <;> simp [tvnInitStep, InitCall.Marked]
  · exact .inr (.inl rfl)

private theorem tvnInitStep_marks
    (h : (tvnInitStep build succeeds segment globals call).segment.ringInitialized = true) :
    segment.ringInitialized = true ∨
      (tvnInitStep build succeeds segment globals call).call.Marked := by
  cases call with
  | idle | ringIsInitialized =>
      simp only [tvnInitStep] at h
      split at h <;> exact .inl h
  | ringInit =>
      cases succeeds with
      | false => exact .inl h
      | true => cases build <;> simp [tvnInitStep, InitCall.Marked]
  | storeNodeId => cases build <;> exact .inl h
  | _ => cases succeeds <;> exact .inl h

end Init

/-! ## The invariant -/

structure HistoryInvariant (h : NodeHistory Process Thread) : Prop where
  done : ∀ process, (h.node.init process).Done (h.node.globals process)
  pointers : ∀ process, (h.node.globals process).tvnlRingbuffer = .attached →
    (h.node.globals process).tvnCuidState = .attached
  stored : h.node.nodeIdStored = true ↔ h.node.Completed
  marked : h.node.segment.ringInitialized = true ↔ h.node.Completed ∨
    (∃ process, (h.node.init process).Marked) ∨ ∃ failure ∈ h.failures, failure.2.Marked
  failed : ∀ process call, (process, call) ∈ h.failures → call = .shmget ∨
    (h.node.init process = .idle ∧
      (h.node.globals process).tvnlRingbuffer = if call = .shmat then .failed else .attached)
  retried : ∀ process, h.node.init process = .idle →
    (h.node.globals process).tvnlRingbuffer ≠ .null →
    h.node.Initialized process ∨ ∃ call, call ≠ .shmget ∧ (process, call) ∈ h.failures

private theorem historyInvariant_initial :
    HistoryInvariant (⟨.initial, []⟩ : NodeHistory Process Thread) where
  done _ := trivial
  pointers _ h := by cases h
  stored := by simp [NodeState.initial, NodeState.Completed]
  marked := by simp [NodeState.initial, NodeState.Completed, InitCall.Marked]
  failed _ _ h := by cases h
  retried _ _ h := absurd rfl h

section Step

variable [DecidableEq Process] [DecidableEq Thread] {build : Build}
  {h : NodeHistory Process Thread} {process process' : Process} {succeeds : Bool}

theorem NodeState.forall_next_init {s : NodeState Process Thread}
    (p : Process → InitCall → Globals → Prop)
    (hself : p process
      (tvnInitStep build succeeds s.segment (s.globals process) (s.init process)).call
      (tvnInitStep build succeeds s.segment (s.globals process) (s.init process)).globals)
    (hothers : ∀ process' ≠ process, p process' (s.init process') (s.globals process'))
    (process' : Process) :
    p process' ((s.next build (.init process succeeds)).init process')
      ((s.next build (.init process succeeds)).globals process') := by
  by_cases hsame : process' = process
  · obtain rfl := hsame
    simpa only [NodeState.next, Function.update_self] using hself
  · simpa only [NodeState.next, Function.update_of_ne hsame] using hothers process' hsame

theorem NodeState.mem_returned_next {s : NodeState Process Thread} {result : Int} :
    result ∈ (s.next build (.init process succeeds)).returned process' ↔
      result ∈ s.returned process' ∨ process' = process ∧
        (tvnInitStep build succeeds s.segment (s.globals process) (s.init process)).returned =
          some result := by
  by_cases hsame : process' = process
  · obtain rfl := hsame
    simp [NodeState.next, or_comm]
  · simp [NodeState.next, hsame]

theorem NodeState.completed_next {s : NodeState Process Thread} :
    (s.next build (.init process succeeds)).Completed ↔
      s.Completed ∨ s.init process = .storeNodeId := by
  constructor
  · rintro ⟨process', hmem⟩
    rcases mem_returned_next.mp hmem with hold | ⟨-, hnew⟩
    · exact .inl ⟨process', hold⟩
    · exact .inr (tvnInitStep_one.mp hnew)
  · rintro (⟨process', hold⟩ | hstore)
    · exact ⟨process', mem_returned_next.mpr (.inl hold)⟩
    · exact ⟨process, mem_returned_next.mpr (.inr ⟨rfl, tvnInitStep_one.mpr hstore⟩)⟩

theorem NodeHistory.mem_failures_next {failure : Process × InitCall} :
    failure ∈ (h.next build (.init process succeeds)).failures ↔
      failure ∈ h.failures ∨ failure = (process, h.node.init process) ∧
        (tvnInitStep build succeeds h.node.segment (h.node.globals process)
          (h.node.init process)).returned = some (-1) := by
  rw [next, List.mem_append, NodeState.fails, or_comm]
  refine or_congr_right ?_
  split
  case isTrue hfails => simp [hfails]
  case isFalse hfails => simp [hfails]

theorem HistoryInvariant.marked_next (hinv : HistoryInvariant h) :
    (h.next build (.init process succeeds)).node.segment.ringInitialized = true ↔
      (h.next build (.init process succeeds)).node.Completed ∨
        (∃ process', ((h.next build (.init process succeeds)).node.init process').Marked) ∨
        ∃ failure ∈ (h.next build (.init process succeeds)).failures, failure.2.Marked := by
  have hself : (h.next build (.init process succeeds)).node.init process =
      (tvnInitStep build succeeds h.node.segment (h.node.globals process)
        (h.node.init process)).call := Function.update_self ..
  have hring : h.node.segment.ringInitialized = true →
      (h.next build (.init process succeeds)).node.segment.ringInitialized = true :=
    tvnInitStep_ringInitialized
  constructor
  · intro hmark
    rcases tvnInitStep_marks hmark with hold | hopen
    · rcases hinv.marked.mp hold with hcompleted | ⟨process', hwindow⟩ | ⟨failure, hmem, hopen⟩
      · exact .inl (NodeState.completed_next.mpr (.inl hcompleted))
      · by_cases hsame : process' = process
        · obtain rfl := hsame
          rcases tvnInitStep_closes build succeeds h.node.segment
            (h.node.globals process') hwindow with hstill | hstore | hfails
          · exact .inr (.inl ⟨process', hself ▸ hstill⟩)
          · exact .inl (NodeState.completed_next.mpr (.inr hstore))
          · exact .inr (.inr ⟨_, NodeHistory.mem_failures_next.mpr (.inr ⟨rfl, hfails⟩), hwindow⟩)
        · refine .inr (.inl ⟨process', ?_⟩)
          simpa [NodeHistory.next, NodeState.next, hsame] using hwindow
      · exact .inr (.inr ⟨failure, NodeHistory.mem_failures_next.mpr (.inl hmem), hopen⟩)
    · exact .inr (.inl ⟨process, hself ▸ hopen⟩)
  · rintro (hcompleted | ⟨process', hwindow⟩ | ⟨failure, hmem, hopen⟩)
    · rcases NodeState.completed_next.mp hcompleted with hold | hstore
      · exact hring (hinv.marked.mpr (.inl hold))
      · exact hring (hinv.marked.mpr (.inr (.inl ⟨process, by simp [InitCall.Marked, hstore]⟩)))
    · by_cases hsame : process' = process
      · obtain rfl := hsame
        rw [hself] at hwindow
        rcases tvnInitStep_opens hwindow with hold | hmark
        · exact hring (hinv.marked.mpr (.inr (.inl ⟨process', hold⟩)))
        · exact hmark
      · have hold : (h.node.init process').Marked := by
          simpa [NodeHistory.next, NodeState.next, hsame] using hwindow
        exact hring (hinv.marked.mpr (.inr (.inl ⟨process', hold⟩)))
    · rcases NodeHistory.mem_failures_next.mp hmem with hold | ⟨rfl, -⟩
      · exact hring (hinv.marked.mpr (.inr (.inr ⟨failure, hold, hopen⟩)))
      · exact hring (hinv.marked.mpr (.inr (.inl ⟨process, hopen⟩)))

theorem HistoryInvariant.failed_next (hinv : HistoryInvariant h) {call : InitCall}
    (hmem : (process', call) ∈ (h.next build (.init process succeeds)).failures) :
    call = .shmget ∨
      ((h.next build (.init process succeeds)).node.init process' = .idle ∧
        ((h.next build (.init process succeeds)).node.globals process').tvnlRingbuffer =
          if call = .shmat then .failed else .attached) := by
  rcases NodeHistory.mem_failures_next.mp hmem with hold | ⟨hnew, hfails⟩
  · refine (hinv.failed process' call hold).imp_right fun hstays => ?_
    by_cases hsame : process' = process
    · obtain rfl := hsame
      have hset : (h.node.globals process').tvnlRingbuffer ≠ .null := by
        rw [hstays.2]
        split <;> decide
      simp only [NodeHistory.next, NodeState.next, Function.update_self, hstays.1,
        tvnInitStep_set hset, hstays.2, and_self]
    · simpa [NodeHistory.next, NodeState.next, hsame] using hstays
  · obtain ⟨rfl, rfl⟩ := Prod.mk.inj hnew
    have hdone := hinv.done process'
    rcases tvnInitStep_cases build succeeds h.node.segment (h.node.globals process')
      (h.node.init process') with ⟨-, hstep⟩ | ⟨-, nodeId, hstep⟩ |
        ⟨hcall, globals', hstep, hglobals⟩ | ⟨-, hstep⟩
    · simp [hstep] at hfails
    · simp [hstep] at hfails
    · by_cases hshmget : h.node.init process' = .shmget
      · exact .inl hshmget
      · refine .inr ?_
        simp only [NodeHistory.next, NodeState.next, Function.update_self, hstep, hglobals,
          true_and]
        split
        case isTrue => rfl
        case isFalse hshmat =>
          revert hdone
          cases hinit : h.node.init process' <;> simp_all [InitCall.Done]
    · simp [hstep] at hfails

theorem HistoryInvariant.retried_next (hinv : HistoryInvariant h)
    (hidle : (h.next build (.init process succeeds)).node.init process' = .idle)
    (hset : ((h.next build (.init process succeeds)).node.globals process').tvnlRingbuffer ≠
      .null) :
    (h.next build (.init process succeeds)).node.Initialized process' ∨
      ∃ call, call ≠ .shmget ∧
        (process', call) ∈ (h.next build (.init process succeeds)).failures := by
  by_cases hsame : process' = process
  · obtain rfl := hsame
    simp only [NodeHistory.next, NodeState.next, Function.update_self] at hidle hset
    rcases tvnInitStep_cases build succeeds h.node.segment (h.node.globals process')
      (h.node.init process') with ⟨-, hstep⟩ | ⟨-, nodeId, hstep⟩ | ⟨-, globals', hstep, hglobals⟩ |
        ⟨hcall, -⟩
    · exact .inl (.inl (NodeState.mem_returned_next.mpr (.inr ⟨rfl, by rw [hstep]⟩)))
    · exact .inl (.inr (NodeState.mem_returned_next.mpr (.inr ⟨rfl, by rw [hstep]⟩)))
    · refine .inr ⟨h.node.init process', fun hshmget => ?_,
        NodeHistory.mem_failures_next.mpr (.inr ⟨rfl, by rw [hstep]⟩)⟩
      have hdone := hinv.done process'
      rw [hshmget] at hdone hglobals
      rw [hstep] at hset
      exact hset (hglobals.trans hdone)
    · exact absurd hidle hcall
  · simp only [NodeHistory.next, NodeState.next, Function.update_of_ne hsame] at hidle hset
    rcases hinv.retried process' hidle hset with hinit | ⟨call, hcall, hmem⟩
    · exact .inl (hinit.imp (fun hmem => NodeState.mem_returned_next.mpr (.inl hmem))
        fun hmem => NodeState.mem_returned_next.mpr (.inl hmem))
    · exact .inr ⟨call, hcall, NodeHistory.mem_failures_next.mpr (.inl hmem)⟩

theorem HistoryInvariant.next (hinv : HistoryInvariant h) (build : Build)
    (action : NodeAction Process Thread) :
    HistoryInvariant (h.next build action) := by
  cases action with
  | cuid thread tvuTime =>
      exact ⟨hinv.done, hinv.pointers, hinv.stored, hinv.marked, hinv.failed, hinv.retried⟩
  | init process succeeds =>
      constructor
      · exact NodeState.forall_next_init (fun _ call globals => call.Done globals)
          (tvnInitStep_done (hinv.done process)) fun process' _ => hinv.done process'
      · exact NodeState.forall_next_init
          (fun _ _ globals => globals.tvnlRingbuffer = .attached →
            globals.tvnCuidState = .attached)
          (tvnInitStep_pointers (hinv.pointers process)) fun process' _ => hinv.pointers process'
      · refine Iff.trans ?_ NodeState.completed_next.symm
        simp [NodeHistory.next, NodeState.next, hinv.stored]
      · exact hinv.marked_next
      · exact fun process' call hmem => hinv.failed_next hmem
      · exact fun process' hidle hset => hinv.retried_next hidle hset

private theorem historyInvariant_after (build : Build)
    (actions : List (NodeAction Process Thread)) :
    HistoryInvariant (NodeHistory.after build actions) := by
  induction actions using List.reverseRecOn with
  | nil => exact historyInvariant_initial
  | append_singleton actions action ih =>
      rw [NodeHistory.after, List.foldl_append]
      exact ih.next build action

/-! ## One more step -/

theorem HistoryInvariant.prepared_next (hinv : HistoryInvariant h)
    (hattached : (h.node.globals process').tvnlRingbuffer = .attached)
    (hstored : h.node.nodeIdStored = true ∨ h.node.init process = .storeNodeId) :
    (h.next build (.init process succeeds)).node.Prepared process' := by
  have hnext := hinv.next build (.init process succeeds)
  have hcompleted : (h.next build (.init process succeeds)).node.Completed :=
    NodeState.completed_next.mpr (hstored.imp_left hinv.stored.mp)
  have hpointer : ((h.next build (.init process succeeds)).node.globals process').tvnlRingbuffer =
      .attached :=
    NodeState.forall_next_init
      (fun process' _ globals => (h.node.globals process').tvnlRingbuffer = .attached →
        globals.tvnlRingbuffer = .attached)
      (tvnInitStep_attached (hinv.done process)) (fun _ _ => id) process' hattached
  exact ⟨hpointer, hnext.pointers process' hpointer, hnext.marked.mpr (.inl hcompleted),
    hnext.stored.mpr hcompleted⟩

/-- A cautious step takes no failure for success. -/
theorem HistoryInvariant.faithful_next (hinv : HistoryInvariant h)
    (hfaithful : h.node.Faithful) (hcautious : h.Cautious (.init process succeeds)) :
    (h.next build (.init process succeeds)).node.Faithful := by
  intro process' hinit
  rcases initialized_next hinit with hold | ⟨rfl, (⟨hidle, hset⟩ | ⟨htest, hmark⟩) | hstore⟩
  · have hprepared := hfaithful process' hold
    exact hinv.prepared_next hprepared.tvnlRingbuffer (.inl hprepared.nodeIdStored)
  · rcases hinv.retried process' hidle hset with hold | ⟨call, hshmget, hmem⟩
    · have hprepared := hfaithful process' hold
      exact hinv.prepared_next hprepared.tvnlRingbuffer (.inl hprepared.nodeIdStored)
    · obtain ⟨hshmat, hcompleted⟩ := (hcautious.1 hidle call hmem).resolve_left hshmget
      have hpointer := ((hinv.failed process' call hmem).resolve_left hshmget).2
      exact hinv.prepared_next (hpointer.trans (if_neg hshmat)) (.inl (hinv.stored.mpr hcompleted))
  · have hdone := hinv.done process'
    rw [htest] at hdone
    have hcompleted : h.node.Completed := by
      rcases hinv.marked.mp hmark with hcompleted | ⟨other, hopen⟩ | ⟨failure, hmem, hopen⟩
      · exact hcompleted
      · exact (hcautious.2 htest).resolve_right fun hclosed => hclosed.1 other hopen
      · exact (hcautious.2 htest).resolve_right fun hclosed => hclosed.2 failure hmem hopen
    exact hinv.prepared_next hdone (.inl (hinv.stored.mpr hcompleted))
  · have hdone := hinv.done process'
    rw [hstore] at hdone
    exact hinv.prepared_next hdone (.inr hstore)

theorem HistoryInvariant.cautious_of_faithful (hinv : HistoryInvariant h)
    (hfaithful : (h.next build (.init process succeeds)).node.Faithful) :
    h.Cautious (.init process succeeds) := by
  have hzero (hreturns : h.node.ReturnsZero process) :
      (h.next build (.init process succeeds)).node.Prepared process := by
    refine hfaithful process (.inl (NodeState.mem_returned_next.mpr (.inr ⟨rfl, ?_⟩)))
    rcases hreturns with ⟨hidle, hset⟩ | ⟨htest, hmark⟩
    · simp [tvnInitStep, hidle, hset]
    · simp [tvnInitStep, htest, hmark]
  have hcompleted (hprepared : (h.next build (.init process succeeds)).node.Prepared process)
      (hinit : h.node.init process ≠ .storeNodeId) : h.node.Completed :=
    have hnext := (hinv.next build _).stored.mp hprepared.nodeIdStored
    (NodeState.completed_next.mp hnext).resolve_right hinit
  refine ⟨fun hidle call hmem => ?_, fun htest => ?_⟩
  · by_cases hshmget : call = .shmget
    · exact .inl hshmget
    · have hpointer := ((hinv.failed process call hmem).resolve_left hshmget).2
      have hset : (h.node.globals process).tvnlRingbuffer ≠ .null := by
        rw [hpointer]
        split <;> decide
      have hprepared := hzero (.inl ⟨hidle, hset⟩)
      refine .inr ⟨fun hshmat => ?_, hcompleted hprepared (by simp [hidle])⟩
      have hattached := hprepared.tvnlRingbuffer
      simp only [NodeHistory.next, NodeState.next, Function.update_self, hidle,
        tvnInitStep_set hset, hpointer, if_pos hshmat] at hattached
      cases hattached
  · by_cases hmark : h.node.segment.ringInitialized = true
    · exact .inl (hcompleted (hzero (.inr ⟨htest, hmark⟩)) (by simp [htest]))
    · rw [hinv.marked] at hmark
      push Not at hmark
      exact .inr hmark.2

theorem HistoryInvariant.faithful_next_iff (hinv : HistoryInvariant h)
    (hfaithful : h.node.Faithful) (build : Build) (action : NodeAction Process Thread) :
    (h.next build action).node.Faithful ↔ h.Cautious action := by
  cases action with
  | cuid thread tvuTime =>
      refine iff_of_true (fun process hinit => ?_) trivial
      have hprepared := hfaithful process hinit
      exact ⟨hprepared.1, hprepared.2, hprepared.3, hprepared.4⟩
  | init process succeeds => exact ⟨hinv.cautious_of_faithful, hinv.faithful_next hfaithful⟩

/-! ## Every run -/

theorem NodeHistory.node_after (build : Build) (actions : List (NodeAction Process Thread)) :
    (NodeHistory.after build actions).node = actions.foldl (NodeState.next build) .initial := by
  induction actions using List.reverseRecOn with
  | nil => rfl
  | append_singleton actions action ih =>
      rw [List.foldl_append, ← ih, NodeHistory.after, List.foldl_append]
      rfl

/-- No failure is taken for success in a run if and only if all of its steps are cautious. -/
theorem failure_reported_iff {actions : List (NodeAction Process Thread)} :
    (∀ earlier, earlier <+: actions →
        (earlier.foldl (NodeState.next build) .initial).Faithful) ↔
      ∀ earlier action, earlier ++ [action] <+: actions →
        (NodeHistory.after build earlier).Cautious action := by
  induction actions using List.reverseRecOn with
  | nil =>
      refine iff_of_true (fun earlier hearlier => ?_) fun earlier action hearlier => ?_
      · rw [List.prefix_nil.mp hearlier]
        simp [NodeState.Faithful, NodeState.Initialized, NodeState.initial]
      · simp at hearlier
  | append_singleton actions action ih =>
      have hinv := historyInvariant_after build actions
      have hafter : (NodeHistory.after build (actions ++ [action])).node =
          ((NodeHistory.after build actions).next build action).node := by
        rw [NodeHistory.after, List.foldl_append]
        rfl
      simp only [← NodeHistory.node_after] at ih ⊢
      constructor
      · intro hall earlier action' hearlier
        have hfaithful := hall actions (List.prefix_append _ _)
        rcases List.prefix_concat_iff.mp hearlier with heq | hold
        · obtain ⟨rfl, hsame⟩ := List.append_inj' heq rfl
          obtain rfl := List.singleton_inj.mp hsame
          exact (hinv.faithful_next_iff hfaithful build action').mp
            (hafter ▸ hall _ List.prefix_rfl)
        · exact ih.mp (fun earlier h => hall earlier (h.trans (List.prefix_append _ _)))
            earlier action' hold
      · intro hall earlier hearlier
        have hbefore := ih.mpr fun earlier action h =>
          hall earlier action (h.trans (List.prefix_append _ _))
        rcases List.prefix_concat_iff.mp hearlier with rfl | hold
        · rw [hafter]
          exact (hinv.faithful_next_iff (hbefore actions List.prefix_rfl) build action).mpr
            (hall actions action List.prefix_rfl)
        · exact hbefore earlier hold

end Step

/-! ## Two failures -/

def failingSteps (succeeding : Nat) : List (NodeAction Bool Bool) :=
  initSteps true succeeding ++ [.init true false]

/--
`shmat` fails, and the next call of the process returns 0 with `(void *)-1` for
a ring buffer; `socket` fails, and a call of another process returns 0 without
a node id.
-/
theorem not_failure_reported_shmat :
    ¬ ((failingSteps 2 ++ initSteps true 1).foldl
        (NodeState.next (.tipc nodeFive)) .initial).Faithful ∧
      ¬ ((failingSteps 5 ++ initSteps false 4).foldl
        (NodeState.next (.tipc nodeFive)) .initial).Faithful := by
  constructor
  · intro hfaithful
    have hprepared := hfaithful true (by decide)
    exact absurd hprepared.tvnlRingbuffer (by decide)
  · intro hfaithful
    have hprepared := hfaithful false (by decide)
    exact absurd hprepared.nodeIdStored (by decide)

end Libtvnet
