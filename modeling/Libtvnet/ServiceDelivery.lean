import Libtvnet.ServiceMailboxes

/-!
# Delivery

While a socket keeps a number, what is sent to the number comes out of the
socket: all of it, once, in order, with the number of the client it is from.
-/

namespace Libtvnet

open Libtvnet.Foundation

section Reports

variable {Thread Socket : Type}

def sentTo (n : ServiceNr) : List (Report Socket) → List (Socket × List UInt8) :=
  List.filterMap fun
    | .sent socket number buffer => if number = n.number then some (socket, buffer) else none
    | _ => none

def receivedOn [DecidableEq Socket] (socket : Socket) :
    List (Report Socket) → List (Int64 × List UInt8) :=
  List.filterMap fun
    | .received socket' number buffer _ => if socket' = socket then some (number, buffer) else none
    | _ => none

/-! ## Numbers that nobody touches -/

def Request.unlinks : Request Socket → Option ServiceNr
  | .close _ n => some n
  | request => request.binds.map Prod.snd

def ServiceAction.Unlinks (n : ServiceNr) : ServiceAction Thread Socket → Prop
  | .step _ request _ _ => request.unlinks = some n
  | .exit _ => False

/-- The call is between the two halves of `tvns_bind`. -/
def ServiceCall.Binds (n : ServiceNr) : ServiceCall Socket → Prop
  | .bind _ n' _ => n' = n
  | _ => False

/-- A `recvfrom` on the socket takes datagrams, has room for so much, and for the name. -/
def ServiceAction.Receives (socket : Socket) (length : Nat) :
    ServiceAction Thread Socket → Prop
  | .step _ (.recvfrom socket' length' flags) stack _ =>
      socket' = socket → length' = length ∧ flags &&& Unix.msgPeek = 0 ∧ stack.NameFits
  | _ => True

variable {mail mail' : Mailboxes Socket} {request : Request Socket} {stack : Stack}
  {call call' : ServiceCall Socket} {report : Option (Report Socket)}
  {events : List (MailEvent Socket)} {n : ServiceNr}

theorem Request.unlinks_of_binds {socket : Socket} (h : request.binds = some (socket, n)) :
    request.unlinks = some n := by
  cases request with
  | bind | clientBind => simpa [unlinks, binds] using congrArg (Option.map Prod.snd) h
  | _ => cases h

theorem Told.untouched (h : Told mail request stack call report events call')
    (hrequest : request.unlinks ≠ some n) (hcall : ¬ call.Binds n) :
    (∀ event ∈ events, ¬ event.Rebinds n) ∧ ¬ call'.Binds n := by
  cases h with
  | @bind socket n' events hbinds hevents =>
      have hother : n' ≠ n := by
        rintro rfl
        exact hrequest (Request.unlinks_of_binds hbinds)
      refine ⟨fun event hevent => ?_, hother⟩
      rcases hevents with rfl | rfl
      · cases hevent
      · rw [List.mem_singleton.mp hevent]
        exact hother
  | @close socket n' events hclose hevents =>
      refine ⟨fun event hevent => ?_, id⟩
      rcases hevents with rfl | rfl
      · cases hevent
      · rw [List.mem_singleton.mp hevent]
        rintro rfl
        exact hrequest (by rw [hclose]; rfl)
  | bound =>
      refine ⟨fun event hevent => ?_, id⟩
      rw [List.mem_singleton.mp hevent]
      exact hcall
  | received hrecvfrom hpeek hcall' =>
      refine ⟨fun event hevent => ?_, ?_⟩
      · rw [List.mem_singleton.mp hevent]
        exact id
      · rcases hcall' with rfl | rfl <;> exact id
  | peeked hrecvfrom hpeek hcall' =>
      refine ⟨fun event hevent => (by cases hevent), ?_⟩
      rcases hcall' with rfl | rfl <;> exact id
  | sent | closed =>
      refine ⟨fun event hevent => ?_, id⟩
      rw [List.mem_singleton.mp hevent]
      exact id
  | failed | unbound | aborted => exact ⟨fun event hevent => (by cases hevent), id⟩

/-! ## One step -/

theorem ReportsLetter.sentTo_eq_nil {socket : Socket} {length : Nat} {flags : UInt32}
    {letter : Letter ServiceNr (List UInt8)} {report : Report Socket}
    (h : ReportsLetter socket length flags stack letter report) : sentTo n [report] = [] := by
  rcases h.kind with rfl | rfl | ⟨number, returned, rfl⟩ <;> rfl

variable [DecidableEq Socket]

theorem ReportsLetter.receivedOn_eq_nil {socket socket' : Socket} {length : Nat}
    {flags : UInt32} {letter : Letter ServiceNr (List UInt8)} {report : Report Socket}
    (h : ReportsLetter socket' length flags stack letter report) (hother : socket' ≠ socket) :
    receivedOn socket [report] = [] := by
  rcases h.kind with rfl | rfl | ⟨number, returned, rfl⟩
  · rfl
  · rfl
  · simp [receivedOn, hother]

def letterTold (length : Nat) (letter : Letter ServiceNr (List UInt8)) : Int64 × List UInt8 :=
  (letter.sender.elim 0 ServiceNr.number, letter.data.take length)

theorem ReportsLetter.receivedOn_eq {socket : Socket} {length : Nat} {flags : UInt32}
    {letter : Letter ServiceNr (List UInt8)} {report : Report Socket}
    (h : ReportsLetter socket length flags stack letter report) (hfits : stack.NameFits)
    (hsender : ∃ m, ServiceNr.IsClient m ∧ letter.sender = some m) :
    receivedOn socket [report] = [letterTold length letter] := by
  obtain ⟨m, hclient, hm⟩ := hsender
  rw [h.sender hfits m hm, ServiceNr.reported, if_pos hclient]
  simp [receivedOn, letterTold, hm]

theorem Told.deliveredTo (h : Told mail request stack call report events call')
    (hrun : Registry.Run mail events mail') (hmail : mail.Consistent) {target : Socket}
    (howner : mail.owner n = some target) :
    Registry.deliveredTo target events =
      (sentTo n report.toList).map fun message => ⟨mail.name message.1, message.2⟩ := by
  cases h with
  | @sent socket target' n' buffer flags hsendto =>
      have howner' : mail.owner n' = some target' := by
        cases hrun with
        | cons hstep _ => exact hstep.owner_of_delivered
      by_cases hsame : n' = n
      · obtain rfl := hsame
        obtain rfl : target' = target := by simpa [howner] using howner'.symm
        simp [Registry.deliveredTo, sentTo]
      · have hnumber : n'.number ≠ n.number := fun hnumber =>
          hsame (ServiceNr.ext hnumber)
        have htarget' : target' ≠ target := by
          rintro rfl
          have hname := hmail.name_of_owner n' target' howner'
          rw [hmail.name_of_owner n target' howner] at hname
          exact hsame (Option.some.inj hname).symm
        simp [Registry.deliveredTo, sentTo, hnumber, htarget']
  | peeked _ _ _ _ hletter | received _ _ _ hletter =>
      rw [Option.toList_some, hletter.sentTo_eq_nil]
      rfl
  | bind _ hevents | close _ hevents => rcases hevents with rfl | rfl <;> rfl
  | closed hreport => rcases hreport with rfl | ⟨errno, rfl⟩ <;> rfl
  | _ => rfl

theorem Told.receivedOn_eq (h : Told mail request stack call report events call') {socket : Socket}
    {length : Nat}
    (hreceives : ∀ length' flags, request = .recvfrom socket length' flags →
      length' = length ∧ flags &&& Unix.msgPeek = 0 ∧ stack.NameFits)
    (hsenders : ∀ letter ∈ Registry.receivedBy socket events,
      ∃ m, ServiceNr.IsClient m ∧ letter.sender = some m) :
    receivedOn socket report.toList =
      (Registry.receivedBy socket events).map (letterTold length) := by
  cases h with
  | @received socket' length' flags call' letter report hrecvfrom hpeek hcall' hletter =>
      by_cases hself : socket' = socket
      · obtain rfl := hself
        obtain ⟨rfl, -, hfits⟩ := hreceives length' flags hrecvfrom
        have hsender := hsenders letter (by simp [Registry.receivedBy])
        rw [Option.toList_some, hletter.receivedOn_eq hfits hsender]
        simp [Registry.receivedBy]
      · rw [Option.toList_some, hletter.receivedOn_eq_nil hself]
        simp [Registry.receivedBy, hself]
  | @peeked socket' length' flags call' letter report hrecvfrom hpeek hcall' hmem hletter =>
      have hother : socket' ≠ socket := by
        rintro rfl
        exact hpeek (hreceives length' flags hrecvfrom).2.1
      rw [Option.toList_some, hletter.receivedOn_eq_nil hother]
      rfl
  | bind _ hevents | close _ hevents => rcases hevents with rfl | rfl <;> rfl
  | closed hreport => rcases hreport with rfl | ⟨errno, rfl⟩ <;> rfl
  | _ => rfl

/-! ## Every run -/

variable [DecidableEq Thread] {s s' : MailSystem Thread Socket}
  {action : ServiceAction Thread Socket} {actions : List (ServiceAction Thread Socket)}
  {reports : List (Report Socket)}

theorem MailStep.run (h : MailStep s action report events s') :
    Registry.Run s.mail events s'.mail := by
  cases h with
  | step htold hrun => exact hrun
  | exit socket => exact (Registry.Step.close socket).run

theorem MailRun.run (h : MailRun s actions reports events s') :
    Registry.Run s.mail events s'.mail := by
  induction h with
  | nil => exact .nil
  | cons hstep _ ih => exact hstep.run.append ih

theorem MailStep.untouched (h : MailStep s action report events s')
    (haction : ¬ action.Unlinks n) (hcalls : ∀ thread, ¬ (s.call thread).Binds n) :
    (∀ event ∈ events, ¬ event.Rebinds n) ∧ ∀ thread, ¬ (s'.call thread).Binds n := by
  cases h with
  | exit socket => exact ⟨by simp [Registry.Event.Rebinds], hcalls⟩
  | @step thread _ _ _ _ _ call _ htold hrun =>
      obtain ⟨hevents, hcall⟩ := htold.untouched haction (hcalls thread)
      refine ⟨hevents, fun thread' => ?_⟩
      by_cases hself : thread' = thread
      · simpa [hself] using hcall
      · simpa [hself] using hcalls thread'

theorem MailRun.untouched (h : MailRun s actions reports events s')
    (hactions : ∀ action ∈ actions, ¬ action.Unlinks n)
    (hcalls : ∀ thread, ¬ (s.call thread).Binds n) :
    ∀ event ∈ events, ¬ event.Rebinds n := by
  induction h with
  | nil => simp
  | cons hstep _ ih =>
      obtain ⟨hevents, hcalls'⟩ := hstep.untouched (hactions _ List.mem_cons_self) hcalls
      have hrest := ih (fun action h => hactions action (List.mem_cons_of_mem _ h)) hcalls'
      intro event hevent
      cases List.mem_append.mp hevent with
      | inl hfirst => exact hevents event hfirst
      | inr hlater => exact hrest event hlater

theorem MailStep.deliveredTo (h : MailStep s action report events s')
    (hmail : s.mail.Consistent) {target : Socket} (howner : s.mail.owner n = some target) :
    Registry.deliveredTo target events =
      (sentTo n report.toList).map fun message => ⟨s.mail.name message.1, message.2⟩ := by
  cases h with
  | step htold hrun => exact htold.deliveredTo hrun hmail howner
  | exit socket => rfl

theorem MailRun.deliveredTo (h : MailRun s actions reports events s')
    (hmail : s.mail.Consistent) {target : Socket} (howner : s.mail.owner n = some target)
    (hevents : ∀ event ∈ events, ¬ event.Rebinds n)
    (hnamed : ∀ message ∈ sentTo n reports, ∃ m, s.mail.name message.1 = some m) :
    Registry.deliveredTo target events =
      (sentTo n reports).map fun message => ⟨s.mail.name message.1, message.2⟩ := by
  induction h with
  | nil => rfl
  | @cons s s' s'' action actions report reports events events' hstep hrun ih =>
      have hsent : sentTo n (report.toList ++ reports) =
          sentTo n report.toList ++ sentTo n reports := List.filterMap_append
      have hdelivered : Registry.deliveredTo target (events ++ events') =
          Registry.deliveredTo target events ++ Registry.deliveredTo target events' :=
        List.filterMap_append
      rw [hsent] at hnamed
      have howner' : s'.mail.owner n = some target := by
        rw [hstep.run.owner_eq fun event h => hevents event (List.mem_append_left _ h), howner]
      have hnames : ∀ message ∈ sentTo n reports,
          s'.mail.name message.1 = s.mail.name message.1 := by
        intro message hmessage
        obtain ⟨m, hm⟩ := hnamed message (List.mem_append_right _ hmessage)
        rw [hm, hstep.run.name_mono hm]
      have hrest := ih (hstep.run.consistent hmail) howner'
        (fun event h => hevents event (List.mem_append_right _ h)) (by
          intro message hmessage
          rw [hnames message hmessage]
          exact hnamed message (List.mem_append_right _ hmessage))
      rw [hsent, hdelivered, hstep.deliveredTo hmail howner, hrest, List.map_append]
      congr 1
      exact List.map_congr_left fun message hmessage => by rw [hnames message hmessage]

theorem MailStep.receivedOn_eq (h : MailStep s action report events s') {socket : Socket}
    {length : Nat} (haction : action.Receives socket length)
    (hsenders : ∀ letter ∈ Registry.receivedBy socket events,
      ∃ m, ServiceNr.IsClient m ∧ letter.sender = some m) :
    receivedOn socket report.toList =
      (Registry.receivedBy socket events).map (letterTold length) := by
  cases h with
  | exit socket => rfl
  | step htold hrun =>
      refine htold.receivedOn_eq (fun length' flags hrequest => ?_) hsenders
      rw [hrequest] at haction
      exact haction rfl

theorem MailRun.receivedOn_eq (h : MailRun s actions reports events s') {socket : Socket}
    {length : Nat} (hactions : ∀ action ∈ actions, action.Receives socket length)
    (hsenders : ∀ letter ∈ Registry.receivedBy socket events,
      ∃ m, ServiceNr.IsClient m ∧ letter.sender = some m) :
    receivedOn socket reports = (Registry.receivedBy socket events).map (letterTold length) := by
  induction h with
  | nil => rfl
  | @cons s s' s'' action actions report reports events events' hstep hrun ih =>
      have hreceived : receivedOn socket (report.toList ++ reports) =
          receivedOn socket report.toList ++ receivedOn socket reports := List.filterMap_append
      have htaken : Registry.receivedBy socket (events ++ events') =
          Registry.receivedBy socket events ++ Registry.receivedBy socket events' :=
        List.filterMap_append
      rw [htaken] at hsenders
      have hfirst := hstep.receivedOn_eq (hactions _ List.mem_cons_self)
        fun letter h => hsenders letter (List.mem_append_left _ h)
      have hrest := ih (fun action h => hactions action (List.mem_cons_of_mem _ h))
        fun letter h => hsenders letter (List.mem_append_right _ h)
      rw [hreceived, htaken, hfirst, hrest, List.map_append]

theorem MailRun.delivers (h : MailRun s actions reports events s') (hmail : s.mail.Consistent)
    {socket : Socket} (howner : s.mail.owner n = some socket)
    (hempty : s.mail.inbox socket = []) (hcalls : ∀ thread, ¬ (s.call thread).Binds n)
    {length : Nat} (hactions : ∀ action ∈ actions, ¬ action.Unlinks n)
    (hreceives : ∀ action ∈ actions, action.Receives socket length)
    {client : Socket → ServiceNr} (hclients : ∀ message ∈ sentTo n reports,
      (client message.1).IsClient ∧ s.mail.name message.1 = some (client message.1))
    (hopen : s'.mail.closed socket = false) :
    (sentTo n reports).map (fun message => ((client message.1).number, message.2.take length)) =
      receivedOn socket reports ++ (s'.mail.inbox socket).map (letterTold length) := by
  have hdelivered := h.deliveredTo hmail howner (h.untouched hactions hcalls)
    fun message hmessage => ⟨_, (hclients message hmessage).2⟩
  have hledger := h.run.ledger hopen
  rw [hempty, List.nil_append, hdelivered] at hledger
  have hsenders : ∀ letter ∈ Registry.receivedBy socket events,
      ∃ m, ServiceNr.IsClient m ∧ letter.sender = some m := by
    intro letter hletter
    have hmem := List.mem_append_left (s'.mail.inbox socket) hletter
    rw [← hledger] at hmem
    obtain ⟨message, hmessage, rfl⟩ := List.mem_map.mp hmem
    exact ⟨_, hclients message hmessage⟩
  rw [h.receivedOn_eq hreceives hsenders, ← List.map_append, ← hledger, List.map_map]
  refine List.map_congr_left fun message hmessage => ?_
  simp [letterTold, (hclients message hmessage).2]

/-! ## Sockets -/

def ServiceSystem.Reachable (s : ServiceSystem Thread Socket) : Prop :=
  ∃ actions, s = (ServiceSystem.initial.run actions).2

theorem ServiceSystem.Reachable.represents {s : ServiceSystem Thread Socket}
    (h : s.Reachable) : ∃ s' : MailSystem Thread Socket, Represents s s' ∧ s'.mail.Consistent := by
  obtain ⟨actions, rfl⟩ := h
  obtain ⟨events, s', hrun, hs'⟩ := run_mailRun represents_initial actions
  exact ⟨s', hs', hrun.run.consistent Registry.consistent_empty⟩

omit [DecidableEq Thread] [DecidableEq Socket] in
theorem Represents.name_eq {s : ServiceSystem Thread Socket} {s' : MailSystem Thread Socket}
    (h : Represents s s') {socket : Socket} (hname : s.host.name socket = some n.path) :
    s'.mail.name socket = some n := by
  rw [h.renames.name] at hname
  obtain ⟨m, hm, hpath⟩ := Option.map_eq_some_iff.mp hname
  rw [hm, ServiceNr.path_injective hpath]

omit [DecidableEq Thread] [DecidableEq Socket] in
theorem Represents.inbox_eq_nil {s : ServiceSystem Thread Socket} {s' : MailSystem Thread Socket}
    (h : Represents s s') {socket : Socket} (hempty : s.host.inbox socket = []) :
    s'.mail.inbox socket = [] := by
  have hmap := h.renames.inbox socket
  rw [hempty] at hmap
  exact List.map_eq_nil_iff.mp hmap.symm

theorem ServiceSystem.Reachable.delivers {s : ServiceSystem Thread Socket} (hs : s.Reachable)
    {n : ServiceNr} {socket : Socket} (howner : s.host.owner n.path = some socket)
    (hempty : s.host.inbox socket = []) (hcalls : ∀ thread, ¬ (s.call thread).Binds n)
    {length : Nat} {actions : List (ServiceAction Thread Socket)}
    (hactions : ∀ action ∈ actions, ¬ action.Unlinks n ∧ action.Receives socket length)
    (client : Socket → ServiceNr) (hclients : ∀ message ∈ sentTo n (s.run actions).1,
      (client message.1).IsClient ∧ s.host.name message.1 = some (client message.1).path)
    (hopen : (s.run actions).2.host.closed socket = false) :
    ∃ waiting : List (Int64 × List UInt8),
      (sentTo n (s.run actions).1).map
          (fun message => ((client message.1).number, message.2.take length)) =
        receivedOn socket (s.run actions).1 ++ waiting ∧
      waiting.map Prod.snd =
        ((s.run actions).2.host.inbox socket).map fun letter => letter.data.take length := by
  obtain ⟨s₁, h₁, hmail⟩ := hs.represents
  obtain ⟨events, s₂, hrun, h₂⟩ := run_mailRun h₁ actions
  have hdelivers := hrun.delivers hmail (h₁.renames.owner n ▸ howner) (h₁.inbox_eq_nil hempty)
    (h₁.call ▸ hcalls) (fun action h => (hactions action h).1)
    (fun action h => (hactions action h).2)
    (fun message h => (hclients message h).imp_right h₁.name_eq)
    (h₂.renames.closed socket ▸ hopen)
  refine ⟨_, hdelivers, ?_⟩
  rw [h₂.renames.inbox]
  simp [letterTold, Letter.rename, Function.comp_def]

/--
After any steps in any order: while a socket keeps a number, what clients send
to the number is received on the socket or waits in it, all of it, once, in
order, and with the number of the client.
-/
theorem ServiceSystem.run_delivers (before actions : List (ServiceAction Thread Socket))
    {n : ServiceNr} {socket : Socket} {length : Nat}
    (howner : (ServiceSystem.initial.run before).2.host.owner n.path = some socket)
    (hempty : (ServiceSystem.initial.run before).2.host.inbox socket = [])
    (hcalls : ∀ thread, ¬ ((ServiceSystem.initial.run before).2.call thread).Binds n)
    (hactions : ∀ action ∈ actions, ¬ action.Unlinks n ∧ action.Receives socket length)
    (client : Socket → ServiceNr)
    (hclients : ∀ message ∈ sentTo n ((ServiceSystem.initial.run before).2.run actions).1,
      (client message.1).IsClient ∧
        (ServiceSystem.initial.run before).2.host.name message.1 = some (client message.1).path)
    (hopen : ((ServiceSystem.initial.run before).2.run actions).2.host.closed socket = false) :
    ∃ waiting : List (Int64 × List UInt8),
      (sentTo n ((ServiceSystem.initial.run before).2.run actions).1).map
          (fun message => ((client message.1).number, message.2.take length)) =
        receivedOn socket ((ServiceSystem.initial.run before).2.run actions).1 ++ waiting ∧
      waiting.map Prod.snd =
        (((ServiceSystem.initial.run before).2.run actions).2.host.inbox socket).map
          fun letter => letter.data.take length :=
  ServiceSystem.Reachable.delivers ⟨before, rfl⟩ howner hempty hcalls hactions client hclients
    hopen

end Reports

def serviceFive : ServiceNr := ⟨5, by decide⟩

def pidOne : Pid := ⟨1, by decide, by decide⟩

def zeroStack : Stack := ⟨⟨0, List.replicate 62 '\x00'⟩, 64, 0, []⟩

def twoBinds : List (ServiceAction Bool Bool) := [
  .step false (.bind false serviceFive) zeroStack none,
  .step true (.clientBind true pidOne 7) zeroStack none,
  .step true (.clientBind true pidOne 7) zeroStack none,
  .step false (.bind false serviceFive) zeroStack none]

def serviceAndClient : ServiceSystem Bool Bool := (ServiceSystem.initial.run twoBinds).2

theorem serviceAndClient_reachable : serviceAndClient.Reachable := ⟨_, rfl⟩

theorem serviceAndClient_binds (thread : Bool) :
    ¬ (serviceAndClient.call thread).Binds serviceFive := by
  cases thread with
  | false | true => exact id

theorem serviceAndClient_client : (clientServiceNr pidOne 7).IsClient ∧
    serviceAndClient.host.name true = some (clientServiceNr pidOne 7).path := by
  decide +kernel

def twoRequests : List (ServiceAction Bool Bool) := [
  .step true (.sendto true serviceFive [1, 2, 3] 0) zeroStack none,
  .step false (.recvfrom false 65536 0) zeroStack none,
  .step true (.sendto true serviceFive [4, 5] 0) zeroStack none]

theorem twoRequests_allowed : ∀ action ∈ twoRequests,
    ¬ action.Unlinks serviceFive ∧ action.Receives false 65536 := by
  simp [twoRequests, ServiceAction.Unlinks, ServiceAction.Receives, Request.unlinks,
    Request.binds, Stack.NameFits, zeroStack]

theorem serviceAndClient_delivers :
    ∃ waiting : List (Int64 × List UInt8),
      (sentTo serviceFive (serviceAndClient.run twoRequests).1).map
          (fun message => (clientNumber pidOne 7, message.2.take 65536)) =
        receivedOn false (serviceAndClient.run twoRequests).1 ++ waiting ∧
      waiting.map Prod.snd =
        ((serviceAndClient.run twoRequests).2.host.inbox false).map
          fun letter => letter.data.take 65536 :=
  ServiceSystem.run_delivers twoBinds twoRequests (by decide +kernel) (by decide +kernel)
    serviceAndClient_binds twoRequests_allowed (fun _ => clientServiceNr pidOne 7)
    (by decide +kernel) (by decide +kernel)

end Libtvnet
