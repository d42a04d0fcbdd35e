import Libtvnet.ServiceDelivery

/-!
# Services that stay available

`tvns_bind` and `tvns_close` unlink the path of their number, whoever it belongs
to.  Where programs only do that with numbers that are theirs or nobody's, a
socket can be sent to for as long as it is open.
-/

namespace Libtvnet

open Libtvnet.Foundation

section Polite

variable {Thread Socket : Type}

def ServiceCall.Closes (socket : Socket) : ServiceCall Socket → Prop
  | .close socket' _ => socket' = socket
  | _ => False

def Request.closes : Request Socket → Option Socket
  | .close socket _ => some socket
  | _ => none

/-- No open socket has the number that a call is about to unlink, but for the one that it closes. -/
def ServiceSystem.Polite (s : ServiceSystem Thread Socket) :
    ServiceAction Thread Socket → Prop
  | .step thread request _ _ =>
      s.call thread = .idle → ∀ n, request.unlinks = some n →
        ∀ socket, s.host.name socket = some n.path →
          s.host.closed socket = true ∨ (∃ thread, (s.call thread).Closes socket) ∨
            request.closes = some socket
  | .exit _ => True

variable [DecidableEq Thread] [DecidableEq Socket]

inductive ServiceSystem.PolitelyReachable : ServiceSystem Thread Socket → Prop
  | initial : PolitelyReachable .initial
  | next {s : ServiceSystem Thread Socket} {action : ServiceAction Thread Socket} :
      PolitelyReachable s → s.Polite action → PolitelyReachable (s.next action).2

/-! ## One step -/

def MailSystem.GivenUp (s : MailSystem Thread Socket) (socket : Socket) : Prop :=
  ∃ thread, (s.call thread).Closes socket

def MailSystem.Polite (s : MailSystem Thread Socket) : ServiceAction Thread Socket → Prop
  | .step thread request _ _ =>
      s.call thread = .idle → ∀ n, request.unlinks = some n →
        ∀ socket, s.mail.name socket = some n →
          s.mail.closed socket = true ∨ s.GivenUp socket ∨ request.closes = some socket
  | .exit _ => True

variable {mail mail' : Mailboxes Socket} {request : Request Socket} {stack : Stack}
  {call call' : ServiceCall Socket} {report : Option (Report Socket)}
  {events : List (MailEvent Socket)}

omit [DecidableEq Thread] [DecidableEq Socket] in
theorem Request.closes_of_binds {socket : Socket} {n : ServiceNr}
    (h : request.binds = some (socket, n)) : request.closes = none := by
  cases request with
  | close => cases h
  | _ => rfl

omit [DecidableEq Thread] [DecidableEq Socket] in
theorem Told.of_unlinked (h : Told mail request stack call report events call') {n : ServiceNr}
    (hmem : .unlinked n ∈ events) :
    call = .idle ∧ request.unlinks = some n ∧
      ∀ socket, request.closes = some socket → call'.Closes socket := by
  cases h with
  | @bind socket n' events hbinds hevents =>
      rcases hevents with rfl | rfl
      · cases hmem
      · obtain rfl : n = n' := by simpa using hmem
        refine ⟨rfl, Request.unlinks_of_binds hbinds, fun socket hcloses => ?_⟩
        rw [Request.closes_of_binds hbinds] at hcloses
        cases hcloses
  | @close socket n' events hrequest hevents =>
      rcases hevents with rfl | rfl
      · cases hmem
      · obtain rfl : n = n' := by simpa using hmem
        refine ⟨rfl, by rw [hrequest]; rfl, fun socket' hcloses => ?_⟩
        rw [hrequest] at hcloses
        exact Option.some.inj hcloses
  | bound | sent | received | closed => simp at hmem
  | failed | unbound | peeked | aborted => cases hmem

omit [DecidableEq Thread] in
theorem Told.closed_of_closes (h : Told mail request stack call report events call')
    (hrun : Registry.Run mail events mail') {socket : Socket} (hcloses : call.Closes socket) :
    mail'.closed socket = true := by
  cases h with
  | @failed call socket' errno hclosed =>
      cases call with
      | close socket'' n =>
          obtain rfl : socket'' = socket := hcloses
          exact hrun.closed_mono (hclosed _ n rfl)
      | _ => cases hcloses
  | closed hreport =>
      obtain rfl := hcloses
      cases hrun.step with
      | close socket => simp [Registry.close]
  | _ => cases hcloses

omit [DecidableEq Thread] in
theorem Told.served (h : Told mail request stack call report events call')
    (hrun : Registry.Run mail events mail') {givenUp : Socket → Prop}
    (hmail : mail.Served givenUp) (hspares : ∀ n, .unlinked n ∈ events → ∀ socket,
      mail.name socket = some n → mail.closed socket = true ∨ givenUp socket) :
    mail'.Served givenUp := by
  have hone : events = [] ∨ ∃ event, events = [event] := by
    cases h with
    | bind _ hevents | close _ hevents =>
        rcases hevents with rfl | rfl
        · exact .inl rfl
        · exact .inr ⟨_, rfl⟩
    | bound | sent | received | closed => exact .inr ⟨_, rfl⟩
    | failed | unbound | peeked | aborted => exact .inl rfl
  rcases hone with rfl | ⟨event, rfl⟩
  · cases hrun with
    | nil => exact hmail
  · refine hrun.step.served hmail ?_
    cases event with
    | unlinked n => exact hspares n List.mem_cons_self
    | _ => trivial

variable {s s' : MailSystem Thread Socket} {action : ServiceAction Thread Socket}

theorem MailStep.served (h : MailStep s action report events s')
    (hs : s.mail.Served s.GivenUp) (hpolite : s.Polite action) :
    s'.mail.Served s'.GivenUp := by
  cases h with
  | exit socket => exact (Registry.Step.close socket).served hs trivial
  | @step thread request stack refusal report events call mail htold hrun =>
      let s' : MailSystem Thread Socket := ⟨mail, Function.update s.call thread call⟩
      have hserved : mail.Served fun socket => s.GivenUp socket ∨ s'.GivenUp socket := by
        refine htold.served hrun (hs.mono fun socket _ => .inl) fun n hmem socket hname => ?_
        obtain ⟨hidle, hunlinks, hcloses⟩ := htold.of_unlinked hmem
        rcases hpolite hidle n hunlinks socket hname with hclosed | hgiven | hcloses'
        · exact .inl hclosed
        · exact .inr (.inl hgiven)
        · exact .inr (.inr ⟨thread, by simpa [s'] using hcloses socket hcloses'⟩)
      refine hserved.mono fun socket hopen hgiven => ?_
      rcases hgiven with ⟨thread', hcloses⟩ | hgiven
      · by_cases hself : thread' = thread
        · obtain rfl := hself
          have hclosed := htold.closed_of_closes hrun hcloses
          rw [hopen] at hclosed
          cases hclosed
        · exact ⟨thread', by simpa [hself] using hcloses⟩
      · exact hgiven

/-! ## Every run -/

structure ServiceSystem.Serves (s : ServiceSystem Thread Socket) (n : ServiceNr)
    (target : Socket) : Prop where
  sendto : ∀ thread socket buffer flags stack, s.call thread = .idle →
    s.host.closed socket = false →
    (s.next (.step thread (.sendto socket n buffer flags) stack none)).1 =
        some (.sent socket n.number buffer) ∧
      (s.next (.step thread (.sendto socket n buffer flags) stack none)).2.host.inbox target =
        s.host.inbox target ++ [⟨s.host.name socket, buffer⟩]

theorem ServiceSystem.serves_of_owner {s : ServiceSystem Thread Socket} {n : ServiceNr}
    {target : Socket} (howner : s.host.owner n.path = some target)
    (htarget : s.host.closed target = false) : s.Serves n target := by
  constructor
  intro thread socket buffer flags stack hidle hopen
  have hpath := addressPath_tvnsMakeAddress n true stack.address
  have hsendto : Unix.sendto none socket buffer flags
      (tvnsMakeAddress n.number true stack.address) s.host =
        ⟨.ok (), [.delivered target n.path ⟨s.host.name socket, buffer⟩],
          s.host.setInbox target
            (s.host.inbox target ++ [⟨s.host.name socket, buffer⟩])⟩ := by
    simp [Unix.sendto, hpath, howner, hopen, htarget]
  simp only [next, hidle, ServiceCall.step, Request.start, tvnsSendto, hsendto,
    Unix.Answer.finish, Registry.setInbox, Function.update_self, and_self]

theorem ServiceSystem.PolitelyReachable.represents {s : ServiceSystem Thread Socket}
    (h : s.PolitelyReachable) :
    ∃ s' : MailSystem Thread Socket, Represents s s' ∧ s'.mail.Served s'.GivenUp := by
  induction h with
  | initial => exact ⟨.initial, represents_initial, Registry.served_empty _⟩
  | @next s action hs hpolite ih =>
      obtain ⟨s', hs', hserved⟩ := ih
      obtain ⟨events, s'', hstep, hs''⟩ := s.next_refines hs' action
      refine ⟨s'', hs'', hstep.served hserved ?_⟩
      cases action with
      | exit socket => trivial
      | step thread request stack refusal =>
          intro hidle n hunlinks socket hname
          have hname' : s.host.name socket = some n.path := by
            rw [hs'.renames.name, hname, Option.map_some]
          rw [← hs'.renames.closed, MailSystem.GivenUp, ← hs'.call]
          exact hpolite (by rw [hs'.call, hidle]) n hunlinks socket hname'

/--
Where no call unlinks the number of an open socket but to close it, every open
socket that is bound to a number can be sent to, whatever else has happened.
-/
theorem ServiceSystem.PolitelyReachable.serves {s : ServiceSystem Thread Socket}
    (h : s.PolitelyReachable) {n : ServiceNr} {target : Socket}
    (hname : s.host.name target = some n.path) (hopen : s.host.closed target = false)
    (hkept : ∀ thread, ¬ (s.call thread).Closes target) : s.Serves n target := by
  obtain ⟨s', hs', hserved⟩ := h.represents
  have hname' : s'.mail.name target = some n := by
    rw [hs'.renames.name] at hname
    obtain ⟨m, hm, hpath⟩ := Option.map_eq_some_iff.mp hname
    rw [hm, ServiceNr.path_injective hpath]
  have howner := hserved target n hname' (hs'.renames.closed target ▸ hopen) (by
    rintro ⟨thread, hcloses⟩
    rw [← hs'.call] at hcloses
    exact hkept thread hcloses)
  exact serves_of_owner (hs'.renames.owner n ▸ howner) hopen

end Polite

theorem serviceAndClient_serves : serviceAndClient.Serves serviceFive false := by
  have hpolite : serviceAndClient.PolitelyReachable := by
    refine .next (.next (.next (.next .initial ?_) ?_) ?_) ?_
    · intro _ n _ socket hname
      cases hname
    · intro _ n _ socket hname
      cases hname
    · intro hidle
      cases hidle
    · intro hidle
      cases hidle
  refine hpolite.serves (by decide +kernel) (by decide +kernel) fun thread => ?_
  cases thread with
  | false | true => exact id

end Libtvnet
