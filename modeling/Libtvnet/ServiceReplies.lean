import Libtvnet.ServiceDelivery

/-!
# Replies of a service

A service replies from the socket that it has bound.  `tvns_parse_address` does
not know the path of a service, so a program that receives such a reply aborts:
of the replies that are sent to it, none is ever received.
-/

namespace Libtvnet

open Libtvnet.Foundation

section Mailboxes

variable {Thread Socket : Type} [DecidableEq Thread] [DecidableEq Socket]
  {mail : Mailboxes Socket} {request : Request Socket} {stack : Stack}
  {call call' : ServiceCall Socket} {report : Option (Report Socket)}
  {events : List (MailEvent Socket)} {n : ServiceNr}

def FromService (letter : Letter ServiceNr (List UInt8)) : Prop :=
  ∃ m, ¬ ServiceNr.IsClient m ∧ letter.sender = some m

/-! ## One step -/

omit [DecidableEq Thread] [DecidableEq Socket] in
theorem ReportsLetter.eq_aborted {socket : Socket} {length : Nat} {flags : UInt32}
    {letter : Letter ServiceNr (List UInt8)} {report : Report Socket}
    (h : ReportsLetter socket length flags stack letter report) (hfits : stack.NameFits)
    (hservice : FromService letter) : report = .aborted socket := by
  obtain ⟨m, hm, hsender⟩ := hservice
  rw [h.sender hfits m hsender, ServiceNr.reported, if_neg hm]

omit [DecidableEq Thread] in
theorem ReportsLetter.count_aborted {socket socket' : Socket} {length : Nat} {flags : UInt32}
    {letter : Letter ServiceNr (List UInt8)} {report : Report Socket}
    (h : ReportsLetter socket' length flags stack letter report) (hother : socket' ≠ socket) :
    [report].count (.aborted socket) = 0 := by
  rcases h.kind with rfl | rfl | ⟨number, returned, rfl⟩ <;> simp [hother]

omit [DecidableEq Thread] in
theorem Told.aborts (h : Told mail request stack call report events call') {socket : Socket}
    (hreceives : ∀ length flags, request = .recvfrom socket length flags →
      flags &&& Unix.msgPeek = 0 ∧ stack.NameFits)
    (hsenders : ∀ letter ∈ Registry.receivedBy socket events, FromService letter) :
    receivedOn socket report.toList = [] ∧
      report.toList.count (.aborted socket) = (Registry.receivedBy socket events).length := by
  cases h with
  | @received socket' length flags call' letter report hrecvfrom hpeek hcall' hletter =>
      by_cases hself : socket' = socket
      · obtain rfl := hself
        obtain ⟨-, hfits⟩ := hreceives length flags hrecvfrom
        have hservice := hsenders letter (by simp [Registry.receivedBy])
        obtain rfl := hletter.eq_aborted hfits hservice
        simp [receivedOn, Registry.receivedBy]
      · rw [Option.toList_some, hletter.receivedOn_eq_nil hself, hletter.count_aborted hself]
        simp [Registry.receivedBy, hself]
  | @peeked socket' length flags call' letter report hrecvfrom hpeek hcall' hmem hletter =>
      have hother : socket' ≠ socket := by
        rintro rfl
        exact hpeek (hreceives length flags hrecvfrom).1
      rw [Option.toList_some, hletter.receivedOn_eq_nil hother, hletter.count_aborted hother]
      exact ⟨rfl, rfl⟩
  | bind _ hevents | close _ hevents => rcases hevents with rfl | rfl <;> exact ⟨rfl, rfl⟩
  | closed hreport =>
      rcases hreport with rfl | ⟨errno, rfl⟩ <;> simp [receivedOn, Registry.receivedBy]
  | _ => simp [receivedOn, Registry.receivedBy]

/-! ## Every run -/

variable {s s' : MailSystem Thread Socket} {action : ServiceAction Thread Socket}
  {actions : List (ServiceAction Thread Socket)} {reports : List (Report Socket)}

theorem MailStep.aborts (h : MailStep s action report events s') {socket : Socket}
    (haction : ∃ length, action.Receives socket length)
    (hsenders : ∀ letter ∈ Registry.receivedBy socket events, FromService letter) :
    receivedOn socket report.toList = [] ∧
      report.toList.count (.aborted socket) = (Registry.receivedBy socket events).length := by
  cases h with
  | exit socket => exact ⟨rfl, rfl⟩
  | step htold hrun =>
      obtain ⟨length, haction⟩ := haction
      refine htold.aborts (fun length' flags hrequest => ?_) hsenders
      rw [hrequest] at haction
      exact (haction rfl).2

theorem MailRun.aborts (h : MailRun s actions reports events s') {socket : Socket}
    (hactions : ∀ action ∈ actions, ∃ length, action.Receives socket length)
    (hsenders : ∀ letter ∈ Registry.receivedBy socket events, FromService letter) :
    receivedOn socket reports = [] ∧
      reports.count (.aborted socket) = (Registry.receivedBy socket events).length := by
  induction h with
  | nil => exact ⟨rfl, rfl⟩
  | @cons s s' s'' action actions report reports events events' hstep hrun ih =>
      have hreceived : receivedOn socket (report.toList ++ reports) =
          receivedOn socket report.toList ++ receivedOn socket reports := List.filterMap_append
      have htaken : Registry.receivedBy socket (events ++ events') =
          Registry.receivedBy socket events ++ Registry.receivedBy socket events' :=
        List.filterMap_append
      rw [htaken] at hsenders
      obtain ⟨hnone, hcount⟩ := hstep.aborts (hactions _ List.mem_cons_self)
        fun letter h => hsenders letter (List.mem_append_left _ h)
      obtain ⟨hnone', hcount'⟩ := ih (fun action h => hactions action (List.mem_cons_of_mem _ h))
        fun letter h => hsenders letter (List.mem_append_right _ h)
      rw [hreceived, hnone, hnone', List.count_append, hcount, hcount', htaken,
        List.length_append]
      exact ⟨rfl, rfl⟩

theorem MailRun.replies_lost (h : MailRun s actions reports events s')
    (hmail : s.mail.Consistent) {socket : Socket} (howner : s.mail.owner n = some socket)
    (hempty : s.mail.inbox socket = []) (hcalls : ∀ thread, ¬ (s.call thread).Binds n)
    (hactions : ∀ action ∈ actions, ¬ action.Unlinks n)
    (hreceives : ∀ action ∈ actions, ∃ length, action.Receives socket length)
    {service : Socket → ServiceNr} (hservices : ∀ message ∈ sentTo n reports,
      ¬ (service message.1).IsClient ∧ s.mail.name message.1 = some (service message.1))
    (hopen : s'.mail.closed socket = false) :
    receivedOn socket reports = [] ∧
      (sentTo n reports).length =
        reports.count (.aborted socket) + (s'.mail.inbox socket).length := by
  have hdelivered := h.deliveredTo hmail howner (h.untouched hactions hcalls)
    fun message hmessage => ⟨_, (hservices message hmessage).2⟩
  have hledger := h.run.ledger hopen
  rw [hempty, List.nil_append, hdelivered] at hledger
  have hsenders : ∀ letter ∈ Registry.receivedBy socket events, FromService letter := by
    intro letter hletter
    have hmem := List.mem_append_left (s'.mail.inbox socket) hletter
    rw [← hledger] at hmem
    obtain ⟨message, hmessage, rfl⟩ := List.mem_map.mp hmem
    exact ⟨_, hservices message hmessage⟩
  obtain ⟨hnone, hcount⟩ := h.aborts hreceives hsenders
  have hlength := congrArg List.length hledger
  rw [List.length_map, List.length_append, ← hcount] at hlength
  exact ⟨hnone, hlength⟩

end Mailboxes

/-! ## A service that replies -/

def twoReplies : List (ServiceAction Bool Bool) := [
  .step false (.sendto false (clientServiceNr pidOne 7) [6] 0) zeroStack none,
  .step true (.recvfrom true 65536 0) zeroStack none,
  .step false (.sendto false (clientServiceNr pidOne 7) [7] 0) zeroStack none]

end Libtvnet
