import Libtvnet.LogLoop
import Libtvnet.LogProgress

/-!
# The log server in the log system

The loop and its handlers log messages of their own, through the ring that they
read.  A handler interrupts whatever the server is at, also a message of the
loop or of another handler.  When a server has come to its end, another one may
be started.
-/

namespace Libtvnet

open Libtvnet.Foundation

/-! ## Calls -/

section Calls

variable {buffer : RingBuffer} {Thread : Type} [DecidableEq Thread]
  (undefined : Binary64 → Int)

inductive CallStep (thread : Thread) (call : LogCall) :
    Bool → LogSystem buffer Thread → LogSystem buffer Thread → Prop
  | refuse {s : LogSystem buffer Thread} {size : UInt64} {ring : buffer.State} :
      s.sending thread = none → tvnlVmessageSize undefined call call.types = some size →
      buffer.tvuRingHead s.ring size = (none, ring) →
      CallStep thread call true s { s with ring := ring }
  | reserve {s : LogSystem buffer Thread} {size : UInt64} {number : Nat} {packet : TvuBuffer}
      {ring : buffer.State} :
      s.sending thread = none → (tvnpFmtParse call.fmt.chars).2 ≠ -1 →
      tvnlVmessageSize undefined call call.types = some size →
      buffer.tvuRingHead s.ring size = (some (number, packet), ring) →
      CallStep thread call false s { s with
        ring := ring
        sending := Function.update s.sending thread (some ⟨number, packet, call⟩)
        calls := s.calls ++ [call] }
  | mark {s : LogSystem buffer Thread} {sending : Sending} {written : TvuBuffer} :
      s.sending thread = some sending → sending.call = call →
      tvnlVmessage undefined (fun _ => some sending.packet) call = some (some written) →
      CallStep thread call true s { s with
        ring := buffer.tvuRingpacketMarkdata s.ring sending.number written
        sending := Function.update s.sending thread none }

variable {undefined} {thread : Thread} {call : LogCall} {returned : Bool}
  {s s' : LogSystem buffer Thread}

theorem CallStep.logStep (h : CallStep undefined thread call returned s s')
    (hcall : call.Loggable) (indeterminate : TvnpToken) (lib : Formatters)
    (optionLogdir : List UInt8) : LogStep undefined indeterminate lib optionLogdir s s' := by
  cases h with
  | refuse _ hsize hhead => exact .refuse hsize hhead
  | reserve hthread hparse hsize hhead => exact .reserve hthread hcall hparse hsize hhead
  | mark hthread hsame hwritten =>
      subst hsame
      exact .mark hthread hwritten

theorem CallStep.keeps (h : CallStep undefined thread call returned s s') :
    s'.taken = s.taken ∧ s'.entries = s.entries ∧ s'.aborts = s.aborts ∧
      (∀ other, other ≠ thread → s'.sending other = s.sending other) ∧
        (returned = true → s'.sending thread = none) := by
  cases h with
  | refuse hthread => exact ⟨rfl, rfl, rfl, fun _ _ => rfl, fun _ => hthread⟩
  | reserve =>
      refine ⟨rfl, rfl, rfl, fun other hother => Function.update_of_ne hother .., ?_⟩
      intro hreturned
      cases hreturned
  | mark =>
      exact ⟨rfl, rfl, rfl, fun other hother => Function.update_of_ne hother ..,
        fun _ => Function.update_self ..⟩

def IsMark (mark : Mark) (call : LogCall) : Prop :=
  ∃ tvnInfo timestamp filename lineno,
    call = tvnlInfo tvnInfo timestamp filename lineno mark ∧
      tvnInfo.service.1.length < 2 ^ 32 ∧ filename.1.length < 2 ^ 32

theorem IsMark.loggable {mark : Mark} (h : IsMark mark call) : call.Loggable := by
  obtain ⟨tvnInfo, timestamp, filename, lineno, rfl, hservice, hfilename⟩ := h
  exact tvnlInfo_loggable hservice hfilename timestamp lineno mark

end Calls

/-! ## The server -/

/--
In the log system the loop is the thread `none` of the server, a handler the
thread of its signal.  `now` is the variable of the loop, `handlers` are those
that run, the innermost first.
-/
structure LogService (buffer : RingBuffer) (Thread : Type) where
  log : LogSystem buffer (Thread ⊕ Option Signal)
  loop : LoopState
  now : Int
  handlers : List Signal

def LogService.sends {buffer : RingBuffer} {Thread : Type} (s : LogService buffer Thread) :
    List Mark :=
  (loopStep s.loop (.step false s.now)).2.filterMap LoopEvent.loopMark

section Server

variable {buffer : RingBuffer} {Thread : Type} [DecidableEq Thread]
  (undefined : Binary64 → Int) (indeterminate : TvnpToken) (lib : Formatters)
  (optionLogdir : List UInt8)

/-- A step of another thread, of a handler, or of the loop where no handler runs. -/
inductive ServerStep : LogService buffer Thread → LogService buffer Thread → Prop
  | other {s : LogService buffer Thread} {thread : Thread} {call : LogCall} {returned : Bool}
      {log : LogSystem buffer (Thread ⊕ Option Signal)} :
      call.Loggable → CallStep undefined (.inl thread) call returned s.log log →
      ServerStep s { s with log := log }
  | signal {s : LogService buffer Thread} {sig : Signal} :
      sig ∉ s.handlers → ServerStep s { s with handlers := sig :: s.handlers }
  | handlerCalls {s : LogService buffer Thread} {sig : Signal} {rest : List Signal}
      {call : LogCall} {log : LogSystem buffer (Thread ⊕ Option Signal)} :
      s.handlers = sig :: rest → IsMark sig.mark call →
      CallStep undefined (.inr (some sig)) call false s.log log →
      ServerStep s { s with log := log }
  | handlerReturns {s : LogService buffer Thread} {sig : Signal} {rest : List Signal}
      {call : LogCall} {log : LogSystem buffer (Thread ⊕ Option Signal)} :
      s.handlers = sig :: rest → IsMark sig.mark call →
      CallStep undefined (.inr (some sig)) call true s.log log →
      ServerStep s { s with
        log := log
        loop := (loopStep s.loop (.signal sig)).1
        handlers := rest }
  | looks {s : LogService buffer Thread} {ring : buffer.State} :
      s.handlers = [] → s.loop.pc = .iterate → s.log.taken = none →
      buffer.tvuRingTail s.log.ring = (none, ring) →
      ServerStep s { s with
        log := { s.log with ring := ring }
        loop := (loopStep s.loop (.step false s.now)).1 }
  | logs {s : LogService buffer Thread} {number : Nat}
      {log : LogSystem buffer (Thread ⊕ Option Signal)} :
      s.handlers = [] → s.loop.pc = .iterate → s.log.taken = none →
      LogStep undefined indeterminate lib optionLogdir s.log log → log.taken = some number →
      ServerStep s { s with log := log }
  | frees {s : LogService buffer Thread} {number : Nat} :
      s.handlers = [] → s.loop.pc = .iterate → s.log.taken = some number →
      ServerStep s { s with
        log := { s.log with
          ring := buffer.tvuRingAdvanceFree (buffer.tvuRingpacketMarkfree s.log.ring number)
          taken := none }
        loop := (loopStep s.loop (.step true s.now)).1 }
  | loopCalls {s : LogService buffer Thread} {mark : Mark} {call : LogCall}
      {log : LogSystem buffer (Thread ⊕ Option Signal)} :
      s.handlers = [] → s.sends = [mark] → IsMark mark call →
      CallStep undefined (.inr none) call false s.log log →
      ServerStep s { s with log := log }
  | loopReturns {s : LogService buffer Thread} {mark : Mark} {call : LogCall} {now : Int}
      {log : LogSystem buffer (Thread ⊕ Option Signal)} :
      s.handlers = [] → s.sends = [mark] → IsMark mark call →
      CallStep undefined (.inr none) call true s.log log →
      ServerStep s { s with
        log := log
        loop := (loopStep s.loop (.step false s.now)).1
        now := now }
  | moves {s : LogService buffer Thread} {now : Int} :
      s.handlers = [] → s.loop.pc ≠ .iterate → s.sends = [] →
      ServerStep s { s with
        loop := (loopStep s.loop (.step false s.now)).1
        now := now }

/-- A step of a server, or the start of the next one behind its end or its `abort`. -/
inductive LifeStep : LogService buffer Thread → LogService buffer Thread → Prop
  | serve {s s' : LogService buffer Thread} :
      ServerStep undefined indeterminate lib optionLogdir s s' → LifeStep s s'
  | restart {s : LogService buffer Thread} {now : Int} :
      s.loop.pc = .ended → s.handlers = [] →
      LifeStep s ⟨{ s.log with server := .start }, .start now, now, []⟩
  | abort {s : LogService buffer Thread} {now : Int}
      {log : LogSystem buffer (Thread ⊕ Option Signal)} :
      s.handlers = [] → s.loop.pc = .iterate → s.log.taken = none →
      LogStep undefined indeterminate lib optionLogdir s.log log →
      log.aborts = s.log.aborts + 1 → LifeStep s ⟨log, .start now, now, []⟩

structure LogService.Initial (s : LogService buffer Thread) : Prop where
  log : s.log.Initial
  loop : ∃ now, s.loop = .start now
  handlers : s.handlers = []

end Server

section Runs

variable {buffer : RingBuffer} {Thread : Type} [DecidableEq Thread]
  {undefined : Binary64 → Int} {indeterminate : TvnpToken} {lib : Formatters}
  {optionLogdir : List UInt8}

/-! ## What a step does -/

theorem LogStep.takes {Caller : Type} [DecidableEq Caller] {s s' : LogSystem buffer Caller}
    {number : Nat} (h : LogStep undefined indeterminate lib optionLogdir s s')
    (htaken : s.taken = none) (htakes : s'.taken = some number) :
    s'.entries.length = s.entries.length + 1 ∧ s'.sending = s.sending ∧
      s'.aborts = s.aborts := by
  cases h with
  | log => exact ⟨List.length_append, rfl, rfl⟩
  | free => cases htakes
  | _ => exact absurd (htaken.symm.trans htakes) (by simp)

theorem LogStep.aborts {Caller : Type} [DecidableEq Caller] {s s' : LogSystem buffer Caller}
    (h : LogStep undefined indeterminate lib optionLogdir s s')
    (haborts : s'.aborts = s.aborts + 1) : s'.taken = s.taken ∧ s'.sending = s.sending := by
  cases h with
  | abort => exact ⟨rfl, rfl⟩
  | _ => exact absurd haborts (by simp)

variable {s s' : LogService buffer Thread}

omit [DecidableEq Thread] in
theorem LogService.sends_eq_nil (hopening : s.loop.pc ≠ .opening) (hclock : s.loop.pc ≠ .clock) :
    s.sends = [] := by
  unfold sends
  cases hpc : s.loop.pc <;> simp only [loopStep, hpc]
  case opening => exact absurd hpc hopening
  case clock => exact absurd hpc hclock
  all_goals rfl

omit [DecidableEq Thread] in
theorem LogService.sends_iterate (hpc : s.loop.pc = .iterate) : s.sends = [] :=
  LogService.sends_eq_nil (by simp [hpc]) (by simp [hpc])

private theorem loopStep_events (loop : LoopState) (running logged : Bool) (now : Int) :
    (loopStep { loop with running := running } (.step logged now)).2 =
      (loopStep loop (.step logged now)).2 := by
  cases hpc : loop.pc <;> simp only [loopStep, hpc]
  case opening => cases loop.openingMarkSend <;> rfl
  case clock => by_cases hlt : loop.lastHourMark < now <;> simp [hlt]

private theorem loopStep_signal (loop : LoopState) (sig : Signal) :
    (loopStep loop (.signal sig)).1.pc = loop.pc ∧
      ∀ logged now, (loopStep (loopStep loop (.signal sig)).1 (.step logged now)).2 =
        (loopStep loop (.step logged now)).2 := by
  cases sig with
  | sigint | sigterm => exact ⟨rfl, loopStep_events loop false⟩
  | _ => exact ⟨rfl, fun _ _ => rfl⟩

structure LogService.Coherent (s : LogService buffer Thread) : Prop where
  taken : s.log.taken ≠ none → s.loop.pc = .iterate
  calling : s.log.sending (.inr none) ≠ none → s.sends ≠ []
  handling : ∀ sig, s.log.sending (.inr (some sig)) ≠ none → sig ∈ s.handlers

theorem ServerStep.coherent (h : ServerStep undefined indeterminate lib optionLogdir s s')
    (hs : s.Coherent) : s'.Coherent := by
  cases h with
  | other _ hcall =>
      obtain ⟨htaken, -, -, hsending, -⟩ := hcall.keeps
      refine ⟨?_, ?_, fun sig => ?_⟩
      · rw [htaken]
        exact hs.taken
      · rw [hsending _ Sum.inr_ne_inl]
        exact hs.calling
      · rw [hsending _ Sum.inr_ne_inl]
        exact hs.handling sig
  | signal _ =>
      exact ⟨hs.taken, hs.calling, fun sig hsig => List.mem_cons_of_mem _ (hs.handling sig hsig)⟩
  | @handlerCalls sig rest call log hhandlers _ hcall =>
      obtain ⟨htaken, -, -, hsending, -⟩ := hcall.keeps
      refine ⟨?_, ?_, fun other hother => ?_⟩
      · rw [htaken]
        exact hs.taken
      · rw [hsending _ (by simp)]
        exact hs.calling
      · by_cases hsame : other = sig
        · rw [hhandlers, hsame]
          exact List.mem_cons_self
        · rw [hsending _ (by simpa using hsame)] at hother
          exact hs.handling other hother
  | @handlerReturns sig rest call log hhandlers _ hcall =>
      obtain ⟨htaken, -, -, hsending, hreturned⟩ := hcall.keeps
      obtain ⟨hpc, hevents⟩ := loopStep_signal s.loop sig
      refine ⟨?_, ?_, fun other hother => ?_⟩
      · rw [htaken, hpc]
        exact hs.taken
      · rw [hsending _ (by simp), LogService.sends, hevents]
        exact hs.calling
      · have hne : other ≠ sig := by
          rintro rfl
          exact hother (hreturned rfl)
        rw [hsending _ (by simpa using hne)] at hother
        have hmem := hs.handling other hother
        rw [hhandlers] at hmem
        exact List.mem_of_ne_of_mem hne hmem
  | looks _ hpc htaken =>
      refine ⟨fun h => absurd htaken h, fun h => ?_, hs.handling⟩
      exact absurd (LogService.sends_iterate hpc) (hs.calling h)
  | logs _ hpc htaken hlog htakes =>
      obtain ⟨-, hsending, -⟩ := hlog.takes htaken htakes
      refine ⟨fun _ => hpc, ?_, ?_⟩
      · rw [hsending]
        exact hs.calling
      · rw [hsending]
        exact hs.handling
  | frees _ hpc _ =>
      refine ⟨fun h => absurd rfl h, fun h => ?_, hs.handling⟩
      exact absurd (LogService.sends_iterate hpc) (hs.calling h)
  | loopCalls _ hsends _ hcall =>
      obtain ⟨htaken, -, -, hsending, -⟩ := hcall.keeps
      refine ⟨?_, fun _ => ?_, fun sig => ?_⟩
      · rw [htaken]
        exact hs.taken
      · exact hsends ▸ List.cons_ne_nil _ _
      · rw [hsending _ (by simp)]
        exact hs.handling sig
  | loopReturns _ hsends _ hcall =>
      obtain ⟨htaken, -, -, hsending, hreturned⟩ := hcall.keeps
      refine ⟨fun h => ?_, fun h => absurd (hreturned rfl) h, fun sig => ?_⟩
      · have hnone := LogService.sends_iterate (hs.taken (htaken ▸ h))
        rw [hsends] at hnone
        cases hnone
      · rw [hsending _ (by simp)]
        exact hs.handling sig
  | moves _ hpc hsends =>
      exact ⟨fun h => absurd (hs.taken h) hpc, fun h => absurd hsends (hs.calling h), hs.handling⟩

omit [DecidableEq Thread] in
theorem LogService.Initial.coherent (h : s.Initial) : s.Coherent where
  taken htaken := absurd h.log.taken htaken
  calling hcalling := absurd (h.log.sending _) hcalling
  handling _ hhandling := absurd (h.log.sending _) hhandling

/-! ## Both components -/

def LogService.inHand (s : LogService buffer Thread) : Nat := s.log.taken.toList.length

/--
The way from `s` to `s'`, as the log system and the loop see it.  An iteration
that returns `true` has logged one message.
-/
structure Refines (undefined : Binary64 → Int) (indeterminate : TvnpToken) (lib : Formatters)
    (optionLogdir : List UInt8) (s s' : LogService buffer Thread) (inputs : List LoopInput) :
    Prop where
  log : Relation.ReflTransGen (LogStep undefined indeterminate lib optionLogdir) s.log s'.log
  loop : s'.loop = logLoop.state s.loop inputs
  aborts : s'.log.aborts = s.log.aborts
  logged : s'.log.entries.length + s.inHand = s.log.entries.length + s'.inHand +
    (logLoop.output s.loop inputs).count (.iterated true)

theorem Refines.trans {s'' : LogService buffer Thread} {inputs inputs' : List LoopInput}
    (h : Refines undefined indeterminate lib optionLogdir s s' inputs)
    (h' : Refines undefined indeterminate lib optionLogdir s' s'' inputs') :
    Refines undefined indeterminate lib optionLogdir s s'' (inputs ++ inputs') where
  log := h.log.trans h'.log
  loop := by rw [h'.loop, h.loop, Transducer.state_append]
  aborts := h'.aborts.trans h.aborts
  logged := by
    have hfirst := h.logged
    have hrest := h'.logged
    rw [Transducer.output_append, List.count_append, ← h.loop]
    omega

theorem Refines.of_keeps {inputs : List LoopInput}
    (hlog : Relation.ReflTransGen (LogStep undefined indeterminate lib optionLogdir) s.log s'.log)
    (hloop : s'.loop = logLoop.state s.loop inputs)
    (hnone : (logLoop.output s.loop inputs).count (.iterated true) = 0)
    (htaken : s'.log.taken = s.log.taken) (hentries : s'.log.entries = s.log.entries)
    (haborts : s'.log.aborts = s.log.aborts) :
    Refines undefined indeterminate lib optionLogdir s s' inputs := by
  refine ⟨hlog, hloop, haborts, ?_⟩
  rw [LogService.inHand, LogService.inHand, htaken, hentries, hnone]
  rfl

theorem CallStep.refines {thread : Thread ⊕ Option Signal} {call : LogCall} {returned : Bool}
    {inputs : List LoopInput} (h : CallStep undefined thread call returned s.log s'.log)
    (hcall : call.Loggable) (hloop : s'.loop = logLoop.state s.loop inputs)
    (hnone : (logLoop.output s.loop inputs).count (.iterated true) = 0) :
    Refines undefined indeterminate lib optionLogdir s s' inputs := by
  obtain ⟨htaken, hentries, haborts, -⟩ := h.keeps
  exact .of_keeps (.single (h.logStep hcall ..)) hloop hnone htaken hentries haborts

omit [DecidableEq Thread] in
theorem LogService.count_moves (h : s.loop.pc ≠ .iterate) :
    (logLoop.output s.loop [.step false s.now]).count (.iterated true) = 0 := by
  cases hpc : s.loop.pc <;> simp only [logLoop, Transducer.output, loopStep, hpc]
  case iterate => exact absurd hpc h
  case opening => split <;> rfl
  case clock => split <;> rfl
  all_goals rfl

theorem ServerStep.refines (h : ServerStep undefined indeterminate lib optionLogdir s s') :
    ∃ inputs, Refines undefined indeterminate lib optionLogdir s s' inputs := by
  cases h with
  | other hcall h => exact ⟨[], h.refines hcall rfl rfl⟩
  | signal _ => exact ⟨[], .of_keeps .refl rfl rfl rfl rfl rfl⟩
  | handlerCalls _ hmark h => exact ⟨[], h.refines hmark.loggable rfl rfl⟩
  | @handlerReturns sig _ _ _ _ hmark h =>
      have hnone : (logLoop.output s.loop [.signal sig]).count (.iterated true) = 0 := by
        cases sig <;> rfl
      exact ⟨[.signal sig], h.refines hmark.loggable rfl hnone⟩
  | looks _ hpc htaken htail =>
      have hnone : (logLoop.output s.loop [.step false s.now]).count (.iterated true) = 0 := by
        simp [logLoop, loopStep, hpc]
      exact ⟨[.step false s.now], .of_keeps (.single (.wait htaken htail)) rfl hnone rfl rfl rfl⟩
  | logs _ _ htaken hlog htakes =>
      obtain ⟨hentries, -, haborts⟩ := hlog.takes htaken htakes
      refine ⟨[], .single hlog, rfl, haborts, ?_⟩
      simp [LogService.inHand, htaken, htakes, hentries]
  | frees _ hpc htaken =>
      refine ⟨[.step true s.now], .single (.free htaken), rfl, rfl, ?_⟩
      simp [LogService.inHand, htaken, logLoop, loopStep, hpc]
  | loopCalls _ _ hmark h => exact ⟨[], h.refines hmark.loggable rfl rfl⟩
  | loopReturns _ hsends hmark h =>
      have hpc : s.loop.pc ≠ .iterate := by
        intro hpc
        rw [LogService.sends_iterate hpc] at hsends
        cases hsends
      exact ⟨[.step false s.now],
        h.refines hmark.loggable rfl (LogService.count_moves hpc)⟩
  | moves _ hpc _ =>
      exact ⟨[.step false s.now], .of_keeps .refl rfl (LogService.count_moves hpc) rfl rfl rfl⟩

theorem ServerStep.run_projects
    (hrun : Relation.ReflTransGen (ServerStep undefined indeterminate lib optionLogdir) s s') :
    ∃ inputs, Refines undefined indeterminate lib optionLogdir s s' inputs := by
  induction hrun with
  | refl => exact ⟨[], .of_keeps .refl rfl rfl rfl rfl rfl⟩
  | tail _ hstep ih =>
      obtain ⟨inputs, h⟩ := ih
      obtain ⟨inputs', h'⟩ := hstep.refines
      exact ⟨inputs ++ inputs', h.trans h'⟩

theorem ServerStep.run_coherent (hs : s.Coherent)
    (hrun : Relation.ReflTransGen (ServerStep undefined indeterminate lib optionLogdir) s s') :
    s'.Coherent := by
  induction hrun with
  | refl => exact hs
  | tail _ hstep ih => exact hstep.coherent ih

omit [DecidableEq Thread] in
theorem LogService.Coherent.taken_ended (hs : s.Coherent) (hpc : s.loop.pc = .ended) :
    s.log.taken = none := by
  by_contra htaken
  have hiterate := hs.taken htaken
  rw [hpc] at hiterate
  cases hiterate

omit [DecidableEq Thread] in
theorem LogService.Coherent.sending_ended (hs : s.Coherent) (hpc : s.loop.pc = .ended)
    (hhandlers : s.handlers = []) (server : Option Signal) :
    s.log.sending (.inr server) = none := by
  by_contra hsending
  cases server with
  | none => exact hs.calling hsending (LogService.sends_eq_nil (by simp [hpc]) (by simp [hpc]))
  | some sig =>
      have hmem := hs.handling sig hsending
      rw [hhandlers] at hmem
      cases hmem

theorem LifeStep.run_projects (hs : s.Coherent)
    (hrun : Relation.ReflTransGen (LifeStep undefined indeterminate lib optionLogdir) s s') :
    s'.Coherent ∧
      Relation.ReflTransGen (LogStep undefined indeterminate lib optionLogdir) s.log s'.log := by
  induction hrun with
  | refl => exact ⟨hs, .refl⟩
  | tail _ hstep ih =>
      obtain ⟨hcoherent, hlog⟩ := ih
      cases hstep with
      | serve hstep =>
          obtain ⟨inputs, h⟩ := hstep.refines
          exact ⟨hstep.coherent hcoherent, hlog.trans h.log⟩
      | restart hpc hhandlers =>
          have htaken := hcoherent.taken_ended hpc
          refine ⟨⟨fun h => absurd htaken h, fun h => ?_, fun sig h => ?_⟩,
            hlog.tail (.restart htaken)⟩
          · exact absurd (hcoherent.sending_ended hpc hhandlers none) h
          · exact absurd (hcoherent.sending_ended hpc hhandlers (some sig)) h
      | abort hhandlers hpc htaken hstep haborts =>
          obtain ⟨hkept, hsending⟩ := hstep.aborts haborts
          refine ⟨⟨fun h => absurd (hkept.trans htaken) h, fun h => ?_, fun sig h => ?_⟩,
            hlog.tail hstep⟩
          · rw [hsending] at h
            exact absurd (LogService.sends_iterate hpc) (hcoherent.calling h)
          · rw [hsending] at h
            have hmem := hcoherent.handling sig h
            rw [hhandlers] at hmem
            cases hmem

/-! ## The end of a server -/

omit [DecidableEq Thread] in
theorem LogService.Coherent.inHand_le (hs : s.Coherent) : s.inHand ≤ s.loop.pc.iterations := by
  rw [inHand]
  cases htaken : s.log.taken with
  | none => exact Nat.zero_le _
  | some number =>
      have hpc := hs.taken (by rw [htaken]; exact Option.some_ne_none number)
      rw [hpc]
      exact le_rfl

theorem ServerStep.run_stopped (hs : s.Coherent) (hstop : s.loop.running = false)
    (hrun : Relation.ReflTransGen (ServerStep undefined indeterminate lib optionLogdir) s s') :
    s'.log.entries.length ≤ s.log.entries.length + 1 := by
  obtain ⟨inputs, h⟩ := ServerStep.run_projects hrun
  obtain ⟨-, hiterations⟩ := logLoop_stopped hstop inputs
  have hlogged := h.logged
  have hinHand := (ServerStep.run_coherent hs hrun).inHand_le
  rw [h.loop] at hinHand
  have hcount : (logLoop.output s.loop inputs).count (.iterated true) ≤
      (logLoop.output s.loop inputs).countP LoopEvent.isIteration :=
    List.countP_mono_left fun event _ hevent => by simp_all [LoopEvent.isIteration]
  have hone : s.loop.pc.iterations ≤ 1 := by cases s.loop.pc <;> decide
  omega

/-! ## The next server -/

structure LogService.Ready (s : LogService buffer Thread) : Prop where
  pc : s.loop.pc = .test
  running : s.loop.running = true
  handlers : s.handlers = []
  taken : s.log.taken = none

structure Serves (undefined : Binary64 → Int) (indeterminate : TvnpToken) (lib : Formatters)
    (optionLogdir : List UInt8) (s s' : LogService buffer Thread) : Prop where
  steps : Relation.ReflTransGen (ServerStep undefined indeterminate lib optionLogdir) s s'
  calls : s'.log.calls = s.log.calls
  sending : s'.log.sending = s.log.sending

theorem Serves.trans {s'' : LogService buffer Thread}
    (h : Serves undefined indeterminate lib optionLogdir s s')
    (h' : Serves undefined indeterminate lib optionLogdir s' s'') :
    Serves undefined indeterminate lib optionLogdir s s'' :=
  ⟨h.steps.trans h'.steps, h'.calls.trans h.calls, h'.sending.trans h.sending⟩

theorem LogService.Ready.exists_round (h : s.Ready) (hring : RingHolds undefined s.log)
    (indeterminate : TvnpToken) (lib : Formatters) (optionLogdir : List UInt8)
    (htail : (buffer.tvuRingTail s.log.ring).1 ≠ none) :
    ∃ s', Serves undefined indeterminate lib optionLogdir s s' ∧ s'.Ready ∧
      s'.log.entries.length = s.log.entries.length + 1 := by
  obtain ⟨⟨number, packet⟩, hpacket⟩ := Option.ne_none_iff_exists'.mp htail
  obtain ⟨log, hlog, hentries, hcalls, hsending, htakes, -⟩ :=
    hring.exists_log indeterminate lib optionLogdir h.taken (Prod.ext hpacket rfl)
      (by decide : (3 : Int) ≠ -1) ⟨0, 0, 0, 0, 0, 0, 0, 0, 0, []⟩
  have hsends : s.sends = [] := LogService.sends_eq_nil (by simp [h.pc]) (by simp [h.pc])
  have hiterate : (loopStep s.loop (.step false s.now)).1 = { s.loop with pc := .iterate } := by
    simp [loopStep, h.pc, h.running]
  have htest : ServerStep undefined indeterminate lib optionLogdir s
      ⟨s.log, { s.loop with pc := .iterate }, s.now, s.handlers⟩ :=
    hiterate ▸ .moves h.handlers (by simp [h.pc]) hsends
  have hlogs : ServerStep undefined indeterminate lib optionLogdir
      ⟨s.log, { s.loop with pc := .iterate }, s.now, s.handlers⟩
      ⟨log, { s.loop with pc := .iterate }, s.now, s.handlers⟩ :=
    .logs h.handlers rfl h.taken hlog htakes
  have hfrees : ServerStep undefined indeterminate lib optionLogdir
      ⟨log, { s.loop with pc := .iterate }, s.now, s.handlers⟩ _ :=
    .frees h.handlers rfl htakes
  exact ⟨_, ⟨((Relation.ReflTransGen.single htest).tail hlogs).tail hfrees, hcalls, hsending⟩,
    ⟨rfl, h.running, h.handlers, rfl⟩, hentries⟩

theorem LogService.Ready.exists_drained (hprompt : buffer.Prompt) (indeterminate : TvnpToken)
    (lib : Formatters) (optionLogdir : List UInt8) {left : Nat} {s : LogService buffer Thread}
    (h : s.Ready) (hring : RingHolds undefined s.log) (hslots : SlotsOwned s.log)
    (hleft : s.log.calls.length ≤ s.log.entries.length + left) :
    ∃ s', Serves undefined indeterminate lib optionLogdir s s' ∧
      (s'.log.AllLogged ∨ s'.log.HeldUp) := by
  induction left generalizing s with
  | zero =>
      have hle : s.log.entries.length ≤ s.log.calls.length := by
        rw [← hring.taken, ← hring.next]
        exact Nat.le_add_right _ _
      exact ⟨s, ⟨.refl, rfl, rfl⟩, .inl (Nat.le_antisymm hle hleft)⟩
  | succ left ih =>
      by_cases htail : (buffer.tvuRingTail s.log.ring).1 = none
      · exact ⟨s, ⟨.refl, rfl, rfl⟩, (hring.tail_iff hslots hprompt).mp htail⟩
      · obtain ⟨s₁, hround, hready, hentries⟩ :=
          h.exists_round hring indeterminate lib optionLogdir htail
        obtain ⟨inputs, hrefines⟩ := ServerStep.run_projects hround.steps
        obtain ⟨hring₁, hslots₁⟩ := hring.run_slotsOwned hslots hrefines.log
        obtain ⟨s', hrun, hdrained⟩ := ih hready hring₁ hslots₁ (by rw [hround.calls]; omega)
        exact ⟨s', hround.trans hrun, hdrained⟩

/-! ## Shutdown -/

end Runs

/-! ## A server that is terminated at once -/

def emptyService : LogService slotRing Unit :=
  ⟨⟨.empty, fun _ => none, none, .start, fun _ => [], [], [], 0⟩, .start 0, 0, []⟩

private theorem emptyService_initial : emptyService.Initial :=
  ⟨⟨rfl, fun _ => rfl, rfl, rfl, rfl, rfl, rfl⟩, ⟨0, rfl⟩, rfl⟩

def terminatedCall : LogCall :=
  tvnlInfo sampleInfo 4096 ⟨[0x41], nul_notMem_letter⟩ 17 .terminated

private theorem terminatedCall_isMark : IsMark Signal.sigterm.mark terminatedCall :=
  ⟨_, _, _, _, rfl, by decide, by decide⟩

theorem sigterm_run : ∃ stopping last,
    Relation.ReflTransGen (LifeStep (fun _ => 0) .zeroFilled dayFormatters []) emptyService
        stopping ∧
      stopping.loop.running = false ∧
      Relation.ReflTransGen (ServerStep (fun _ => 0) .zeroFilled dayFormatters []) stopping
        last ∧
      last.loop.pc = .ended ∧ last.handlers = [] ∧ last.log.calls.length = 1 ∧
      last.log.entries = [] := by
  have hproper := terminatedCall_isMark.loggable.proper
  obtain ⟨size, hsize, hhead⟩ := slotRing_head hproper (by decide) fun _ => 0
  obtain ⟨-, -, hoffset, hblock⟩ := slotRing.head_reserves _ _ _ _ _ (hhead .empty)
  have hpacket : PacketFor (fun _ => 0) terminatedCall (zeroAlloc size) := by
    refine ⟨hoffset, fun size' hsize' => ?_⟩
    obtain rfl : size = size' := by simpa [hsize] using hsize'
    exact hblock
  obtain ⟨written, hwritten⟩ := hpacket.tvnlVmessage_isSome hproper
  have hsignal : ServerStep (fun _ => 0) .zeroFilled dayFormatters [] emptyService
      { emptyService with handlers := [.sigterm] } :=
    .signal List.not_mem_nil
  obtain ⟨called, hcalls, hsending, hhandlers, hloop, hlength, hentries⟩ :
      ∃ called, ServerStep (fun _ => 0) .zeroFilled dayFormatters []
          { emptyService with handlers := [.sigterm] } called ∧
        called.log.sending (.inr (some .sigterm)) =
          some ⟨0, zeroAlloc size, terminatedCall⟩ ∧
        called.handlers = [.sigterm] ∧ called.loop = .start 0 ∧ called.log.calls.length = 1 ∧
        called.log.entries = [] :=
    ⟨_, .handlerCalls rfl terminatedCall_isMark (.reserve rfl (by decide) hsize (hhead _)),
      by simp [emptyService, SlotQueue.next, SlotQueue.empty], rfl, rfl, rfl, rfl⟩
  have hreturns : ServerStep (fun _ => 0) .zeroFilled dayFormatters [] called _ :=
    .handlerReturns hhandlers terminatedCall_isMark (.mark hsending rfl hwritten)
  rw [hloop] at hreturns
  have hrun := ((Relation.ReflTransGen.single (LifeStep.serve hsignal)).tail
    (.serve hcalls)).tail (.serve hreturns)
  have hmoves (log : LogSystem slotRing (Unit ⊕ Option Signal)) (now : Int) :
      ServerStep (fun _ => 0) .zeroFilled dayFormatters []
        ⟨log, ⟨.test, false, false, 0⟩, now, []⟩ ⟨log, ⟨.ended, false, false, 0⟩, now, []⟩ :=
    .moves rfl (by simp) rfl
  exact ⟨_, _, hrun, rfl, .single (hmoves _ _), rfl, rfl, hlength, hentries⟩

end Libtvnet
