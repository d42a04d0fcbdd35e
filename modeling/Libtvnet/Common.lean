import Libtvnet.Cuid

/-!
# `common.c`

A call of `tvn_init` is cut where it calls the system or the ring buffer, and
where it looks at or writes to the shared segment.  A node is any number of
processes, each with its own globals, and their threads, which call `tvn_cuid`.
They share one segment and take their steps in any order.
-/

namespace Libtvnet

/-! ## The segment and the globals -/

/-- What `tipc_node` gives for the address of a TIPC node. -/
structure TipcNode where
  nodeId : Int16
  pos : 0 < nodeId.toInt
  lt : nodeId.toInt < 4096

/-- Whether `TVU_HAVE_TIPC` is defined, and then the node that the program runs on. -/
inductive Build where
  | unix
  | tipc (node : TipcNode)

/-- The shared memory, as far as `tvn_init` and `tvn_cuid` look at it. -/
structure SharedSegment where
  ringInitialized : Bool
  nodeId : Int16
  prevCuid : Int64

/-- A global pointer: `NULL`, `(void *)-1`, or into the segment. -/
inductive SharedPointer where
  | null
  | failed
  | attached
  deriving DecidableEq

structure Globals where
  tvnlRingbuffer : SharedPointer
  tvnCuidState : SharedPointer

/-! ## A call of `tvn_init` -/

/-- What a call of `tvn_init` does next; `idle` is before it and behind it. -/
inductive InitCall where
  | idle
  | shmget
  | shmat
  | ringIsInitialized
  | ringInit
  | socket
  | getsockname
  | close
  | storeNodeId
  deriving DecidableEq

structure InitStep where
  call : InitCall
  segment : SharedSegment
  globals : Globals
  returned : Option Int

/-- One step; `succeeds` is the answer of what may fail in it. -/
def tvnInitStep (build : Build) (succeeds : Bool) (segment : SharedSegment) (globals : Globals) :
    InitCall → InitStep
  | .idle =>
      if globals.tvnlRingbuffer ≠ .null then ⟨.idle, segment, globals, some 0⟩
      else ⟨.shmget, segment, globals, none⟩
  | .shmget =>
      if succeeds then ⟨.shmat, segment, globals, none⟩
      else ⟨.idle, segment, globals, some (-1)⟩
  | .shmat =>
      if succeeds then ⟨.ringIsInitialized, segment, ⟨.attached, .attached⟩, none⟩
      else ⟨.idle, segment, { globals with tvnlRingbuffer := .failed }, some (-1)⟩
  | .ringIsInitialized =>
      if segment.ringInitialized then ⟨.idle, segment, globals, some 0⟩
      else ⟨.ringInit, segment, globals, none⟩
  | .ringInit =>
      if succeeds then
        let segment := { segment with ringInitialized := true }
        match build with
        | .unix => ⟨.storeNodeId, segment, globals, none⟩
        | .tipc _ => ⟨.socket, segment, globals, none⟩
      else ⟨.idle, segment, globals, some (-1)⟩
  | .socket =>
      if succeeds then ⟨.getsockname, segment, globals, none⟩
      else ⟨.idle, segment, globals, some (-1)⟩
  | .getsockname =>
      if succeeds then ⟨.close, segment, globals, none⟩
      else ⟨.idle, segment, globals, some (-1)⟩
  | .close =>
      if succeeds then ⟨.storeNodeId, segment, globals, none⟩
      else ⟨.idle, segment, globals, some (-1)⟩
  | .storeNodeId =>
      match build with
      | .unix => ⟨.idle, { segment with nodeId := 0 }, globals, some 1⟩
      | .tipc node => ⟨.idle, { segment with nodeId := node.nodeId }, globals, some 1⟩

/-! ## A node -/

structure LocalIssue (Thread : Type) where
  thread : Thread
  id : Int64
  deriving DecidableEq

/-- `nodeIdStored` says whether a `tvn_init` has written `node_id`. -/
structure NodeState (Process Thread : Type) where
  segment : SharedSegment
  nodeIdStored : Bool
  globals : Process → Globals
  init : Process → InitCall
  returned : Process → List Int
  cuid : Thread → CuidCall
  issued : List (LocalIssue Thread)

inductive NodeAction (Process Thread : Type) where
  | init (process : Process) (succeeds : Bool)
  | cuid (thread : Thread) (tvuTime : Int64)

variable {Process Thread : Type}

namespace NodeState

def initial : NodeState Process Thread where
  segment := ⟨false, 0, 0⟩
  nodeIdStored := false
  globals _ := ⟨.null, .null⟩
  init _ := .idle
  returned _ := []
  cuid _ := .idle
  issued := []

def Initialized (s : NodeState Process Thread) (process : Process) : Prop :=
  0 ∈ s.returned process ∨ 1 ∈ s.returned process

instance (s : NodeState Process Thread) (process : Process) :
    Decidable (s.Initialized process) := inferInstanceAs (Decidable (_ ∨ _))

section Steps

variable [DecidableEq Process] [DecidableEq Thread] (home : Thread → Process) (build : Build)

/-- `tvn_cuid` is called behind a `tvn_init` that returned 0 or 1, and goes through the pointer. -/
def Enabled (s : NodeState Process Thread) : NodeAction Process Thread → Prop
  | .init _ _ => True
  | .cuid thread _ =>
      (s.globals (home thread)).tvnCuidState = .attached ∧
        (s.cuid thread = .idle → s.Initialized (home thread))

omit [DecidableEq Process] [DecidableEq Thread] in
instance (s : NodeState Process Thread) : DecidablePred (s.Enabled home)
  | .init _ _ => isTrue trivial
  | .cuid _ _ => inferInstanceAs (Decidable (_ ∧ (_ → _)))

def next (s : NodeState Process Thread) : NodeAction Process Thread → NodeState Process Thread
  | .init process succeeds =>
      let step := tvnInitStep build succeeds s.segment (s.globals process) (s.init process)
      { s with
        segment := step.segment
        nodeIdStored := s.nodeIdStored || decide (s.init process = .storeNodeId)
        globals := Function.update s.globals process step.globals
        init := Function.update s.init process step.call
        returned := Function.update s.returned process
          (step.returned.toList ++ s.returned process) }
  | .cuid thread tvuTime =>
      let step := tvnCuidStep s.segment.nodeId tvuTime s.segment.prevCuid (s.cuid thread)
      { s with
        segment := { s.segment with prevCuid := step.prevCuid }
        cuid := Function.update s.cuid thread step.call
        issued := (step.returned.toList.map fun id => ⟨thread, id⟩) ++ s.issued }

end Steps

end NodeState

section Runs

variable [DecidableEq Process] [DecidableEq Thread] (home : Thread → Process) (build : Build)

inductive NodeStep (Allowed : NodeState Process Thread → NodeAction Process Thread → Prop) :
    NodeState Process Thread → NodeState Process Thread → Prop
  | mk {s : NodeState Process Thread} (action : NodeAction Process Thread) :
      s.Enabled home action → Allowed s action →
      NodeStep Allowed s (s.next build action)

def NodeReachable (Allowed : NodeState Process Thread → NodeAction Process Thread → Prop)
    (s : NodeState Process Thread) : Prop :=
  Relation.ReflTransGen (NodeStep home build Allowed) .initial s

variable {home build} {Allowed : NodeState Process Thread → NodeAction Process Thread → Prop}

variable (home build Allowed) in
def NodeState.Admits (s : NodeState Process Thread) :
    List (NodeAction Process Thread) → Prop
  | [] => True
  | action :: actions =>
      s.Enabled home action ∧ Allowed s action ∧ Admits (s.next build action) actions

instance NodeState.decidableAdmits [∀ s, DecidablePred (Allowed s)] :
    ∀ (actions : List (NodeAction Process Thread)) (s : NodeState Process Thread),
      Decidable (s.Admits home build Allowed actions)
  | [], _ => isTrue trivial
  | action :: actions, s =>
      have := decidableAdmits actions (s.next build action)
      inferInstanceAs
        (Decidable (_ ∧ _ ∧ (s.next build action).Admits home build Allowed actions))

theorem NodeReachable.foldl {s : NodeState Process Thread}
    {actions : List (NodeAction Process Thread)} (h : NodeReachable home build Allowed s)
    (hadmits : s.Admits home build Allowed actions) :
    NodeReachable home build Allowed (actions.foldl (NodeState.next build) s) := by
  induction actions generalizing s with
  | nil => exact h
  | cons action actions ih =>
      obtain ⟨henabled, hallowed, hrest⟩ := hadmits
      exact ih (h.tail (.mk action henabled hallowed)) hrest

end Runs

end Libtvnet
