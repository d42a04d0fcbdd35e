import Libtvnet.Foundation.Transducer
import Libtvnet.LogDelivery
import Mathlib.Data.List.Destutter

/-!
# `loop.c`, the loop

The log server from its first test of `running` to its last.  A signal may
arrive between any two steps of the loop.  Hours are those of the clock, which
may be set back.
-/

namespace Libtvnet

open Libtvnet.Foundation

/-! ## The program -/

inductive Signal where
  | sigint
  | sigterm
  | sighup
  | sigusr1
  | sigusr2
  deriving DecidableEq, Repr

/-- The messages of the server itself; `now` is not in the text. -/
inductive Mark where
  | started
  | hour (now : Int)
  | terminated
  | usr1
  | usr2
  | hup
  | unknown
  deriving DecidableEq, Repr

def Mark.fmt : Mark → CString
  | .started => ⟨ascii "Logging service has started.".toList, by decide⟩
  | .hour _ => ⟨ascii "--- HOUR MARK ---".toList, by decide⟩
  | .terminated => ⟨ascii "Logging service has terminated.".toList, by decide⟩
  | .usr1 => ⟨ascii "--- USR1 MARK ---".toList, by decide⟩
  | .usr2 => ⟨ascii "--- USR2 MARK ---".toList, by decide⟩
  | .hup => ⟨ascii "--- HUP MARK ---".toList, by decide⟩
  | .unknown => ⟨ascii "--- UNKNOWN MARK ---".toList, by decide⟩

/-- The macro `TVNL_INFO`, with the file name and the line at which it stands. -/
def tvnlInfo (tvnInfo : TvnInfo) (timestamp : Int64) (filename : CString) (lineno : Int64)
    (mark : Mark) : LogCall :=
  ⟨tvnInfo, timestamp, filename, lineno, 4, mark.fmt, []⟩

theorem tvnlInfo_loggable {tvnInfo : TvnInfo} {filename : CString}
    (hservice : tvnInfo.service.1.length < 2 ^ 32) (hfilename : filename.1.length < 2 ^ 32)
    (timestamp lineno : Int64) (mark : Mark) :
    (tvnlInfo tvnInfo timestamp filename lineno mark).Loggable := by
  have htypes : (tvnlInfo tvnInfo timestamp filename lineno mark).types = [] := by
    cases mark <;> rfl
  have hfmt : mark.fmt.1.length < 2 ^ 32 := by
    cases mark <;> simp [Mark.fmt, ascii]
  have hmatching : Matching (tvnlInfo tvnInfo timestamp filename lineno mark).types [] := by
    rw [htypes]
    exact .nil
  exact ⟨⟨hservice, hfilename, hfmt, hmatching, by simp [htypes]⟩,
    (by decide : (4 : UInt32).toNat ≤ 5)⟩

inductive LoopPc where
  | test
  | iterate
  | opening
  | clock
  | sleep
  | ended
  deriving DecidableEq, Repr

structure LoopState where
  pc : LoopPc
  running : Bool
  openingMarkSend : Bool
  lastHourMark : Int
  deriving DecidableEq, Repr

/-- A step has what `iteration` and the clock give to it, if it asks for them. -/
inductive LoopInput where
  | step (logged : Bool) (now : Int)
  | signal (sig : Signal)

inductive LoopEvent where
  | iterated (logged : Bool)
  | polled (now : Int)
  | sent (mark : Mark)
  deriving DecidableEq, Repr

def LoopState.start (now : Int) : LoopState := ⟨.test, true, false, now⟩

def killHandler (s : LoopState) : LoopState × List LoopEvent :=
  ({ s with running := false }, [.sent .terminated])

def userHandler : Signal → Mark
  | .sigusr1 => .usr1
  | .sigusr2 => .usr2
  | .sighup => .hup
  | _ => .unknown

/-- The handlers as `loop` has set them. -/
def handleSignal (s : LoopState) : Signal → LoopState × List LoopEvent
  | .sigint | .sigterm => killHandler s
  | sig => (s, [.sent (userHandler sig)])

def loopStep (s : LoopState) : LoopInput → LoopState × List LoopEvent
  | .signal sig => handleSignal s sig
  | .step logged now =>
      match s.pc with
      | .test => ({ s with pc := if s.running then .iterate else .ended }, [])
      | .iterate => ({ s with pc := if logged then .test else .opening }, [.iterated logged])
      | .opening =>
          if s.openingMarkSend then ({ s with pc := .clock }, [])
          else ({ s with pc := .clock, openingMarkSend := true }, [.sent .started])
      | .clock =>
          if s.lastHourMark < now then
            ({ s with pc := .sleep, lastHourMark := now }, [.polled now, .sent (.hour now)])
          else ({ s with pc := .sleep }, [.polled now])
      | .sleep => ({ s with pc := .test }, [])
      | .ended => (s, [])

def logLoop : Transducer LoopState LoopInput LoopEvent := ⟨loopStep⟩

/-! ## What is seen of a run -/

def LoopEvent.poll : LoopEvent → Option Int
  | .polled now => some now
  | _ => none

def LoopEvent.loopMark : LoopEvent → Option Mark
  | .sent .started => some .started
  | .sent (.hour now) => some (.hour now)
  | _ => none

def LoopEvent.handlerMark : LoopEvent → Option Mark
  | .sent .started | .sent (.hour _) => none
  | .sent mark => some mark
  | _ => none

def Signal.mark : Signal → Mark
  | .sigint | .sigterm => .terminated
  | sig => userHandler sig

def LoopInput.signalMark : LoopInput → Option Mark
  | .signal sig => some sig.mark
  | .step _ _ => none

def LoopInput.isStep : LoopInput → Bool
  | .signal _ => false
  | .step _ _ => true

def LoopEvent.isIteration : LoopEvent → Bool
  | .iterated _ => true
  | _ => false

/-! ## Marks -/

def LoopState.Opened (s : LoopState) : Prop := s.pc = .clock → s.openingMarkSend = true

/-- What the loop has to send between two states, where the clock has shown `polls`. -/
def marksBetween (s s' : LoopState) (polls : List Int) : List Mark :=
  (if s.openingMarkSend = s'.openingMarkSend then [] else [.started]) ++
    (polls.destutter' (· < ·) s.lastHourMark).tail.map .hour

private theorem destutter'_eq_cons {α : Type} {R : α → α → Prop} [DecidableRel R] (a : α)
    (l : List α) :
    l.destutter' R a = a :: (l.destutter' R a).tail := by
  induction l with
  | nil => rfl
  | cons b l ih =>
      rw [List.destutter'_cons]
      split
      case isTrue => rfl
      case isFalse => exact ih

theorem LoopState.Opened.step {s : LoopState} (h : s.Opened) (input : LoopInput) :
    (loopStep s input).1.Opened ∧
      (s.openingMarkSend = true → (loopStep s input).1.openingMarkSend = true) := by
  cases input with
  | signal sig => cases sig <;> exact ⟨h, id⟩
  | step logged now =>
      cases hpc : s.pc <;> simp only [loopStep, hpc]
      case opening => split <;> simp_all [LoopState.Opened]
      case clock => split <;> simp_all [LoopState.Opened]
      case test => cases s.running <;> simp [LoopState.Opened]
      case iterate => cases logged <;> simp [LoopState.Opened]
      case sleep => simp [LoopState.Opened]
      case ended => exact ⟨h, id⟩

theorem LoopState.Opened.run {s : LoopState} (h : s.Opened) (inputs : List LoopInput) :
    (logLoop.state s inputs).Opened ∧
      (s.openingMarkSend = true → (logLoop.state s inputs).openingMarkSend = true) := by
  induction inputs generalizing s with
  | nil => exact ⟨h, id⟩
  | cons input inputs ih =>
      obtain ⟨hopened, hsend⟩ := h.step input
      obtain ⟨hlast, hlater⟩ := ih hopened
      exact ⟨hlast, hlater ∘ hsend⟩

theorem LoopState.Opened.marks_step {s s' : LoopState} (h : s.Opened) (input : LoopInput)
    (hlater : (loopStep s input).1.openingMarkSend = true → s'.openingMarkSend = true)
    (polls : List Int) :
    (loopStep s input).2.filterMap LoopEvent.loopMark ++
        marksBetween (loopStep s input).1 s' polls =
      marksBetween s s' ((loopStep s input).2.filterMap LoopEvent.poll ++ polls) := by
  cases input with
  | signal sig => cases sig <;> rfl
  | step logged now =>
      cases hpc : s.pc <;> simp only [loopStep, hpc] at hlater ⊢
      case test => rfl
      case iterate => rfl
      case sleep => rfl
      case ended => rfl
      case opening =>
        by_cases hsent : s.openingMarkSend = true
        · simp [hsent, marksBetween]
        · have hlast := hlater (by rw [if_neg hsent])
          simp [hsent, hlast, marksBetween, List.filterMap_cons, LoopEvent.loopMark,
            LoopEvent.poll]
      case clock =>
        have hsent := h hpc
        by_cases hlt : s.lastHourMark < now
        · have hlast := hlater (by rw [if_pos hlt]; exact hsent)
          have hfirst := congrArg (List.map Mark.hour) (destutter'_eq_cons (R := (· < ·)) now polls)
          simpa [hlt, hsent, hlast, marksBetween, List.filterMap_cons, LoopEvent.loopMark,
            LoopEvent.poll] using hfirst.symm
        · have hlast := hlater (by rw [if_neg hlt]; exact hsent)
          simp [hlt, hsent, hlast, marksBetween, List.filterMap_cons, LoopEvent.loopMark,
            LoopEvent.poll]

theorem LoopState.Opened.marks_run {s : LoopState} (h : s.Opened) (inputs : List LoopInput) :
    (logLoop.output s inputs).filterMap LoopEvent.loopMark =
      marksBetween s (logLoop.state s inputs)
        ((logLoop.output s inputs).filterMap LoopEvent.poll) := by
  induction inputs generalizing s with
  | nil => simp [marksBetween]
  | cons input inputs ih =>
      obtain ⟨hopened, -⟩ := h.step input
      have hlater := (hopened.run inputs).2
      rw [Transducer.output_cons, Transducer.state_cons, List.filterMap_append,
        List.filterMap_append]
      exact (congrArg _ (ih hopened)).trans (h.marks_step input hlater _)

private theorem handlerMark_run (s : LoopState) (inputs : List LoopInput) :
    (logLoop.output s inputs).filterMap LoopEvent.handlerMark =
      inputs.filterMap LoopInput.signalMark := by
  induction inputs generalizing s with
  | nil => rfl
  | cons input inputs ih =>
      have hstep : (loopStep s input).2.filterMap LoopEvent.handlerMark =
          [input].filterMap LoopInput.signalMark := by
        cases input with
        | signal sig => cases sig <;> rfl
        | step logged now =>
            cases hpc : s.pc <;> simp only [loopStep, hpc]
            case opening => split <;> rfl
            case clock => split <;> rfl
            all_goals rfl
      rw [Transducer.output_cons, List.filterMap_append, ih]
      exact (congrArg (· ++ _) hstep).trans (List.filterMap_append ..).symm

/-- The empty iterations behind which the loop has not come to its opening mark. -/
def LoopPc.beforeMark : LoopPc → Nat
  | .opening => 1
  | _ => 0

/-- The empty iterations behind which the loop has not come to the clock. -/
def LoopPc.beforeClock : LoopPc → Nat
  | .opening => 1
  | .clock => 1
  | _ => 0

private theorem loopStep_opens (s : LoopState) (input : LoopInput) :
    (loopStep s input).1.pc.beforeMark ≤
        (loopStep s input).2.count (.iterated false) + s.pc.beforeMark ∧
      ((loopStep s input).1.openingMarkSend = true ↔ s.openingMarkSend = true ∨
        (loopStep s input).1.pc.beforeMark <
          (loopStep s input).2.count (.iterated false) + s.pc.beforeMark) := by
  cases input with
  | signal sig => cases sig <;> simp [loopStep, handleSignal, killHandler]
  | step logged now =>
      cases hpc : s.pc <;> simp only [loopStep, hpc]
      case test => cases s.running <;> simp [LoopPc.beforeMark]
      case iterate => cases logged <;> simp [LoopPc.beforeMark]
      case opening => split <;> simp_all [LoopPc.beforeMark]
      case clock => split <;> simp [LoopPc.beforeMark]
      case sleep => simp [LoopPc.beforeMark]
      case ended => simp [LoopPc.beforeMark]

private theorem logLoop_opens (s : LoopState) (inputs : List LoopInput) :
    (logLoop.state s inputs).pc.beforeMark ≤
        (logLoop.output s inputs).count (.iterated false) + s.pc.beforeMark ∧
      ((logLoop.state s inputs).openingMarkSend = true ↔ s.openingMarkSend = true ∨
        (logLoop.state s inputs).pc.beforeMark <
          (logLoop.output s inputs).count (.iterated false) + s.pc.beforeMark) := by
  induction inputs generalizing s with
  | nil => simp
  | cons input inputs ih =>
      obtain ⟨hstep, hsent⟩ := loopStep_opens s input
      obtain ⟨hrest, hlater⟩ := ih (loopStep s input).1
      have hsame : logLoop.step s input = loopStep s input := rfl
      rw [Transducer.state_cons, Transducer.output_cons, hsame, List.count_append, hlater, hsent]
      constructor
      · omega
      · rw [or_assoc]
        refine or_congr_right ?_
        omega

private theorem logLoop_polls (s : LoopState) (inputs : List LoopInput) :
    ((logLoop.output s inputs).filterMap LoopEvent.poll).length +
        (logLoop.state s inputs).pc.beforeClock =
      (logLoop.output s inputs).count (.iterated false) + s.pc.beforeClock := by
  induction inputs generalizing s with
  | nil => simp
  | cons input inputs ih =>
      have hstep : ((loopStep s input).2.filterMap LoopEvent.poll).length +
          (loopStep s input).1.pc.beforeClock =
            (loopStep s input).2.count (.iterated false) + s.pc.beforeClock := by
        cases input with
        | signal sig => cases sig <;> rfl
        | step logged now =>
            cases hpc : s.pc <;> simp only [loopStep, hpc]
            case test => cases s.running <;> rfl
            case iterate => cases logged <;> rfl
            case opening => split <;> rfl
            case clock => split <;> rfl
            case sleep => rfl
            case ended => simp
      have hrest := ih (loopStep s input).1
      have hsame : logLoop.step s input = loopStep s input := rfl
      rw [Transducer.state_cons, Transducer.output_cons, hsame, List.count_append,
        List.filterMap_append, List.length_append]
      omega

/--
The loop sends its opening mark first, once, and exactly if it has gone on from
an iteration that found the ring empty.  It looks at the clock once for each
such iteration, and sends an hour mark for each hour above all hours before it,
in this order.  The handlers send one mark for each signal.
-/
theorem logLoop_marks (now : Int) (inputs : List LoopInput) :
    let output := logLoop.output (.start now) inputs
    let last := logLoop.state (.start now) inputs
    output.filterMap LoopEvent.loopMark =
        (if last.pc.beforeMark < output.count (.iterated false) then [.started] else []) ++
          ((output.filterMap LoopEvent.poll).destutter' (· < ·) now).tail.map .hour ∧
      (output.filterMap LoopEvent.poll).length + last.pc.beforeClock =
        output.count (.iterated false) ∧
      output.filterMap LoopEvent.handlerMark = inputs.filterMap LoopInput.signalMark := by
  intro output last
  have hopened : (LoopState.start now).Opened := by
    intro hpc
    cases hpc
  obtain ⟨-, hsent⟩ := logLoop_opens (.start now) inputs
  refine ⟨(hopened.marks_run inputs).trans ?_, logLoop_polls (.start now) inputs,
    handlerMark_run _ inputs⟩
  have hiff : last.openingMarkSend = true ↔
      last.pc.beforeMark < output.count (.iterated false) :=
    hsent.trans (by simp [LoopState.start, LoopPc.beforeMark, last, output])
  unfold marksBetween
  congr 1
  by_cases hopening : last.openingMarkSend = true
  · rw [if_pos (hiff.mp hopening)]
    exact if_neg fun hsame => absurd (hsame.trans hopening) Bool.false_ne_true
  · rw [if_neg (mt hiff.mpr hopening)]
    exact if_pos (eq_false_of_ne_true hopening).symm

/-! ## The end -/

def LoopPc.left : LoopPc → Nat
  | .iterate => 5
  | .opening => 4
  | .clock => 3
  | .sleep => 2
  | .test => 1
  | .ended => 0

def LoopPc.iterations : LoopPc → Nat
  | .iterate => 1
  | _ => 0

private theorem loopStep_stopped {s : LoopState} (h : s.running = false) (input : LoopInput) :
    (loopStep s input).1.running = false ∧
      (loopStep s input).1.pc.left ≤ s.pc.left - [input].countP LoopInput.isStep ∧
      (loopStep s input).2.countP LoopEvent.isIteration +
        (loopStep s input).1.pc.iterations = s.pc.iterations := by
  cases input with
  | signal sig =>
      have hidle : [LoopInput.signal sig].countP LoopInput.isStep = 0 := rfl
      cases sig <;> simp [loopStep, handleSignal, killHandler, h, hidle, LoopEvent.isIteration]
  | step logged now =>
      have hcount : [LoopInput.step logged now].countP LoopInput.isStep = 1 := rfl
      rw [hcount]
      cases hpc : s.pc <;> simp only [loopStep, hpc]
      case test => simp [h, LoopPc.left, LoopPc.iterations]
      case iterate => cases logged <;> exact ⟨h, by decide, rfl⟩
      case opening => split <;> exact ⟨h, le_rfl, rfl⟩
      case clock => split <;> exact ⟨h, le_rfl, rfl⟩
      case sleep => exact ⟨h, le_rfl, rfl⟩
      case ended => simp [h, LoopPc.left, LoopPc.iterations]

theorem logLoop_stopped {s : LoopState} (h : s.running = false) (inputs : List LoopInput) :
    (logLoop.state s inputs).pc.left ≤ s.pc.left - inputs.countP LoopInput.isStep ∧
      (logLoop.output s inputs).countP LoopEvent.isIteration +
        (logLoop.state s inputs).pc.iterations = s.pc.iterations := by
  induction inputs generalizing s with
  | nil => simp
  | cons input inputs ih =>
      obtain ⟨hstopped, hleft, hiterations⟩ := loopStep_stopped h input
      obtain ⟨hlast, hrest⟩ := ih hstopped
      have hcount : (input :: inputs).countP LoopInput.isStep =
          [input].countP LoopInput.isStep + inputs.countP LoopInput.isStep := by
        rw [← List.countP_append, List.singleton_append]
      have hstep : logLoop.step s input = loopStep s input := rfl
      rw [Transducer.state_cons, Transducer.output_cons, hstep, List.countP_append, hcount]
      omega

/--
Behind a signal to stop, the loop makes one iteration at most, and it has come
to its end after five of its steps, whatever it was doing.
-/
theorem logLoop_stops (now : Int) (before after : List LoopInput) {sig : Signal}
    (h : sig = .sigint ∨ sig = .sigterm) :
    let stopped := logLoop.state (.start now) (before ++ [.signal sig])
    (logLoop.output stopped after).countP LoopEvent.isIteration ≤ 1 ∧
      (5 ≤ after.countP LoopInput.isStep → (logLoop.state stopped after).pc = .ended) := by
  intro stopped
  have hstopped : stopped.running = false := by
    simp only [stopped, Transducer.state_append, Transducer.state_cons, Transducer.state_nil]
    rcases h with rfl | rfl <;> rfl
  obtain ⟨hleft, hiterations⟩ := logLoop_stopped hstopped after
  have hpc : stopped.pc.left ≤ 5 ∧ stopped.pc.iterations ≤ 1 := by
    cases stopped.pc <;> decide
  refine ⟨by omega, fun hsteps => ?_⟩
  have hnone : (logLoop.state stopped after).pc.left = 0 := by omega
  cases hend : (logLoop.state stopped after).pc <;> simp [hend, LoopPc.left] at hnone ⊢

theorem logLoop_stops_iterate :
    let stopped := logLoop.state (.start 0) [.step true 0, .signal .sigterm]
    let after := List.replicate 5 (LoopInput.step false 1)
    (logLoop.output stopped after).countP LoopEvent.isIteration ≤ 1 ∧
      (logLoop.state stopped after).pc = .ended := by
  intro stopped after
  obtain ⟨honce, hended⟩ := logLoop_stops 0 [.step true 0] after (.inr rfl)
  exact ⟨honce, hended (by decide)⟩

end Libtvnet
