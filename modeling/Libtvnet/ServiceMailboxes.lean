import Libtvnet.ServiceSockets

/-!
# Numbered mailboxes

What `service.h` is for: a mailbox is bound to a number, what is sent to the
number goes into it, and what is taken out of it says which number to reply to.
The sockets with their paths behave like these mailboxes, step by step.
-/

namespace Libtvnet

open Libtvnet.Foundation

abbrev Mailboxes (Socket : Type) := Registry ServiceNr Socket (List UInt8)

abbrev MailEvent (Socket : Type) := Registry.Event ServiceNr Socket (List UInt8)

def ServiceNr.IsClient (n : ServiceNr) : Prop := n.number.toInt < 0

instance (n : ServiceNr) : Decidable n.IsClient := inferInstanceAs (Decidable (_ < _))

/-! ## Paths -/

def ServiceNr.path (n : ServiceNr) : List Char := pathText n.number

theorem ServiceNr.path_injective : Function.Injective ServiceNr.path := by
  rintro ⟨m, hm⟩ ⟨n, hn⟩ hpath
  obtain rfl := pathText_injective hpath
  rfl

private theorem cString_tvnsMakeAddress (n : ServiceNr) (bind : Bool) (address : SockaddrUn) :
    Unix.cString (tvnsMakeAddress n.number bind address).2.sunPath = n.path :=
  takeWhile_sprintf (nul_notMem_pathText n.number) address.sunPath

theorem addressPath_tvnsMakeAddress (n : ServiceNr) (bind : Bool) (address : SockaddrUn) :
    Unix.addressPath (tvnsMakeAddress n.number bind address) = n.path := by
  have hbytes : pathBytes (tvnsMakeAddress n.number bind address) = sprintf [] n.path := by
    rw [pathBytes_tvnsMakeAddress, sprintf, List.drop_nil]
    rfl
  rw [Unix.addressPath, hbytes]
  exact takeWhile_sprintf (nul_notMem_pathText n.number) []

theorem ServiceNr.path_of_isClient {n : ServiceNr} (h : n.IsClient) :
    n.path = clientPath ++ printUnsigned 19 n.number.toInt.natAbs := by
  have hneg : ¬ 0 ≤ n.number.toInt := not_le.mpr h
  rw [path, pathText, if_neg hneg]

theorem ServiceNr.path_of_not_isClient {n : ServiceNr} (h : ¬ n.IsClient) :
    n.path = servicePath ++ printUnsigned 19 n.number.toInt.natAbs := by
  rw [path, pathText, if_pos (not_lt.mp h)]

theorem ServiceNr.length_path_le (n : ServiceNr) : n.path.length ≤ 35 :=
  length_pathText_le n.abs_lt

/-! ## Names of senders -/

/-- The length of the address has room for the digits of a client. -/
def Stack.NameFits (stack : Stack) : Prop :=
  37 ≤ stack.addressLen.toNat ∧ stack.addressLen.toNat < 2 ^ 31

private theorem sunPath_storeName {addressLen : Nat} {name : List Char} (address : SockaddrUn)
    (h : name.length + sunPathOffset ≤ addressLen) :
    ∃ rest, (Unix.storeName addressLen name address).sunPath = name ++ rest := by
  have hlength : name.length ≤ addressLen - sunPathOffset := by omega
  rw [Unix.storeName, List.take_append, List.take_of_length_le hlength, List.append_assoc]
  exact ⟨_, rfl⟩

theorem tvnsParseAddress_clientPath {n : ServiceNr} (h : n.IsClient) {address : SockaddrUn}
    {rest : List Char} (hpath : address.sunPath = n.path ++ rest) (beyond : List Char)
    (indeterminate : UInt64) : tvnsParseAddress beyond indeterminate address = some n.number := by
  have habs := natAbs_lt n.abs_lt
  rw [n.path_of_isClient h] at hpath
  have hservice : memcmpZero address.sunPath (servicePath ++ '\x00' :: beyond) 17 = false := by
    simp [hpath, memcmpZero, servicePath, clientPath]
  have hclient : memcmpZero address.sunPath (clientPath ++ ['\x00']) 16 = true := by
    simp [hpath, memcmpZero, clientPath]
  have htext : ∀ c ∈ clientPath ++ printUnsigned 19 n.number.toInt.natAbs,
      (c != '\x00') = true := by
    intro c hc
    rw [← n.path_of_isClient h] at hc
    rw [bne_iff_ne]
    rintro rfl
    exact nul_notMem_pathText n.number hc
  have hscan : sscanf address.sunPath clientPath 19 =
      some (UInt64.ofNat n.number.toInt.natAbs) := by
    rw [sscanf, hpath, List.takeWhile_append_of_pos htext, List.append_assoc,
      if_pos (List.prefix_append _ _), List.drop_left,
      scanUnsigned_printUnsigned (by decide) (by omega) (by omega)]
  have hnumber : -(UInt64.ofNat n.number.toInt.natAbs).toInt64 = n.number := by
    have hneg : n.number.toInt < 0 := h
    have hinner : -(n.number.toInt.natAbs : Int) = n.number.toInt := by omega
    rw [UInt64.toInt64_ofNat', ← Int64.ofInt_eq_ofNat, Int64.neg_ofInt, hinner,
      Int64.ofInt_toInt]
  rw [tvnsParseAddress, hservice, hclient, hscan, if_neg (by decide), if_pos rfl,
    Option.getD_some, hnumber]

private theorem tvnsParseAddress_servicePath {n : ServiceNr} (h : ¬ n.IsClient)
    {address : SockaddrUn}
    {rest : List Char} (hpath : address.sunPath = n.path ++ rest) (beyond : List Char)
    (indeterminate : UInt64) : tvnsParseAddress beyond indeterminate address = none := by
  obtain ⟨c, cs, hfield, hc⟩ := printUnsigned_cons 19 n.number.toInt.natAbs
  rw [n.path_of_not_isClient h, hfield] at hpath
  simp [tvnsParseAddress, hpath, memcmpZero, servicePath, clientPath, hc]

/-! ## What the system does -/

namespace Unix

variable {Socket : Type} [DecidableEq Socket] (refusal : Option Errno) (host : Host Socket)

omit [DecidableEq Socket] in
theorem unlink_cases (path : List Char) :
    (∃ errno, unlink refusal path host = refuse errno host) ∨
      unlink refusal path host = ⟨.ok (), [.unlinked path], host.unlink path⟩ := by
  unfold unlink
  cases refusal with
  | some errno => exact .inl ⟨errno, rfl⟩
  | none =>
      by_cases howner : host.owner path = none
      · exact .inl ⟨_, if_pos howner⟩
      · exact .inr (if_neg howner)

theorem bind_cases (socket : Socket) (address : Nat × SockaddrUn) :
    (∃ errno, bind refusal socket address host = refuse errno host) ∨
      (host.closed socket = false ∧ host.name socket = none ∧
        host.owner (addressPath address) = none ∧
        bind refusal socket address host =
          ⟨.ok (), [.bound socket (addressPath address)],
            host.bind socket (addressPath address)⟩) := by
  unfold bind
  cases refusal with
  | some errno => exact .inl ⟨errno, rfl⟩
  | none =>
      split_ifs with hclosed hname howner
      · exact .inl ⟨_, rfl⟩
      · exact .inl ⟨_, rfl⟩
      · exact .inl ⟨_, rfl⟩
      · exact .inr ⟨by simpa using hclosed, by simpa using hname, by simpa using howner, rfl⟩

theorem sendto_cases (socket : Socket) (buffer : List UInt8) (flags : UInt32)
    (address : Nat × SockaddrUn) :
    (∃ errno, sendto refusal socket buffer flags address host = refuse errno host) ∨
      ∃ target, host.closed socket = false ∧
        host.owner (addressPath address) = some target ∧ host.closed target = false ∧
        sendto refusal socket buffer flags address host =
          ⟨.ok (), [.delivered target (addressPath address) ⟨host.name socket, buffer⟩],
            host.setInbox target (host.inbox target ++ [⟨host.name socket, buffer⟩])⟩ := by
  unfold sendto
  cases refusal with
  | some errno => exact .inl ⟨errno, rfl⟩
  | none =>
      by_cases hclosed : host.closed socket = true
      · simp only [if_pos hclosed]
        exact .inl ⟨_, rfl⟩
      · simp only [if_neg hclosed]
        cases howner : host.owner (addressPath address) with
        | none => exact .inl ⟨_, rfl⟩
        | some target =>
            by_cases htarget : host.closed target = true
            · simp only [if_pos htarget]
              exact .inl ⟨_, rfl⟩
            · simp only [if_neg htarget]
              exact .inr ⟨target, by simpa using hclosed, rfl, by simpa using htarget, rfl⟩

theorem recvfrom_cases (socket : Socket) (length : Nat) (flags : UInt32) (address : SockaddrUn)
    (addressLen : UInt32) :
    (∃ errno, recvfrom refusal socket length flags address addressLen host =
        refuse errno host) ∨
      ∃ letter letters, host.closed socket = false ∧ host.inbox socket = letter :: letters ∧
        (recvfrom refusal socket length flags address addressLen host).value =
          (if addressLen.toNat < 2 ^ 31 then
            .ok (copyOut letter length flags address addressLen)
          else .error .einval) ∧
        (recvfrom refusal socket length flags address addressLen host).events =
          (if flags &&& msgPeek ≠ 0 then [] else [.received socket letter]) ∧
        (recvfrom refusal socket length flags address addressLen host).host =
          (if flags &&& msgPeek ≠ 0 then host else host.setInbox socket letters) := by
  unfold recvfrom
  cases refusal with
  | some errno => exact .inl ⟨errno, rfl⟩
  | none =>
      by_cases hclosed : host.closed socket = true
      · simp only [if_pos hclosed]
        exact .inl ⟨_, rfl⟩
      · simp only [if_neg hclosed]
        cases hinbox : host.inbox socket with
        | nil => exact .inl ⟨_, rfl⟩
        | cons letter letters =>
            refine .inr ⟨letter, letters, by simpa using hclosed, rfl, ?_⟩
            by_cases hlen : addressLen.toNat < 2 ^ 31
            · simp only [if_pos hlen, and_self]
            · simp only [if_neg hlen, and_self]

theorem close_cases (socket : Socket) :
    (∃ errno, host.closed socket = true ∧ close refusal socket host = refuse errno host) ∨
      ∃ value, close refusal socket host = ⟨value, [.closed socket], host.close socket⟩ := by
  unfold close
  split
  · exact .inl ⟨_, ‹_›, rfl⟩
  · cases refusal with
    | some errno => exact .inr ⟨_, rfl⟩
    | none => exact .inr ⟨_, rfl⟩

end Unix

/-! ## Mailboxes -/

section Mailboxes

variable {Thread Socket : Type}

def ServiceNr.reported (sender : ServiceNr) (socket : Socket) (length : Nat) (flags : UInt32)
    (data : List UInt8) : Report Socket :=
  if sender.IsClient then
    .received socket sender.number (data.take length)
      (if flags &&& Unix.msgTrunc ≠ 0 then data.length else min length data.length)
  else .aborted socket

/-- The report is of this letter; the number in it is right if the name of the sender fits. -/
structure ReportsLetter (socket : Socket) (length : Nat) (flags : UInt32) (stack : Stack)
    (letter : Letter ServiceNr (List UInt8)) (report : Report Socket) : Prop where
  kind : report = .failed socket .einval ∨ report = .aborted socket ∨
    ∃ number returned, report = .received socket number (letter.data.take length) returned
  sender : stack.NameFits → ∀ n, letter.sender = some n →
    report = n.reported socket length flags letter.data

def Request.binds : Request Socket → Option (Socket × ServiceNr)
  | .bind socket n => some (socket, n)
  | .clientBind socket pid random => some (socket, clientServiceNr pid random)
  | _ => none

/-- What a step of a call reports and does, and what the call does next. -/
inductive Told (mail : Mailboxes Socket) (request : Request Socket) (stack : Stack) :
    ServiceCall Socket → Option (Report Socket) → List (MailEvent Socket) →
      ServiceCall Socket → Prop
  | failed {call : ServiceCall Socket} {socket : Socket} {errno : Errno} :
      (∀ socket n, call = .close socket n → mail.closed socket = true) →
      Told mail request stack call (some (.failed socket errno)) [] .idle
  | bind {socket : Socket} {n : ServiceNr} {events : List (MailEvent Socket)} :
      request.binds = some (socket, n) → events = [] ∨ events = [.unlinked n] →
      Told mail request stack .idle none events (.bind socket n stack.address)
  | bound {socket : Socket} {n : ServiceNr} {address : SockaddrUn} :
      Told mail request stack (.bind socket n address) (some (.bound socket n.number))
        [.bound socket n] .idle
  | unbound {socket : Socket} {n : ServiceNr} :
      request = .unbind socket n →
      Told mail request stack .idle (some (.unbound socket n.number)) [] .idle
  | sent {socket target : Socket} {n : ServiceNr} {buffer : List UInt8} {flags : UInt32} :
      request = .sendto socket n buffer flags →
      Told mail request stack .idle (some (.sent socket n.number buffer))
        [.delivered target n ⟨mail.name socket, buffer⟩] .idle
  | peeked {socket : Socket} {length : Nat} {flags : UInt32} {call : ServiceCall Socket}
      {letter : Letter ServiceNr (List UInt8)} {report : Report Socket} :
      request = .recvfrom socket length flags → flags &&& Unix.msgPeek ≠ 0 →
      call = .idle ∨ call = .aborted → letter ∈ mail.inbox socket →
      ReportsLetter socket length flags stack letter report →
      Told mail request stack .idle (some report) [] call
  | received {socket : Socket} {length : Nat} {flags : UInt32} {call : ServiceCall Socket}
      {letter : Letter ServiceNr (List UInt8)} {report : Report Socket} :
      request = .recvfrom socket length flags → flags &&& Unix.msgPeek = 0 →
      call = .idle ∨ call = .aborted → ReportsLetter socket length flags stack letter report →
      Told mail request stack .idle (some report) [.received socket letter] call
  | close {socket : Socket} {n : ServiceNr} {events : List (MailEvent Socket)} :
      request = .close socket n → events = [] ∨ events = [.unlinked n] →
      Told mail request stack .idle none events (.close socket n)
  | closed {socket : Socket} {n : ServiceNr} {report : Report Socket} :
      report = .closed socket n.number ∨ (∃ errno, report = .failed socket errno) →
      Told mail request stack (.close socket n) (some report) [.closed socket] .idle
  | aborted : Told mail request stack .aborted none [] .aborted

structure MailSystem (Thread Socket : Type) where
  mail : Mailboxes Socket
  call : Thread → ServiceCall Socket

variable [DecidableEq Thread] [DecidableEq Socket]

inductive MailStep : MailSystem Thread Socket → ServiceAction Thread Socket →
    Option (Report Socket) → List (MailEvent Socket) → MailSystem Thread Socket → Prop
  | step {s : MailSystem Thread Socket} {thread : Thread} {request : Request Socket}
      {stack : Stack} {refusal : Option Errno} {report : Option (Report Socket)}
      {events : List (MailEvent Socket)} {call : ServiceCall Socket} {mail : Mailboxes Socket} :
      Told s.mail request stack (s.call thread) report events call →
      Registry.Run s.mail events mail →
      MailStep s (.step thread request stack refusal) report events
        ⟨mail, Function.update s.call thread call⟩
  | exit {s : MailSystem Thread Socket} (socket : Socket) :
      MailStep s (.exit socket) none [.closed socket] ⟨s.mail.close socket, s.call⟩

inductive MailRun : MailSystem Thread Socket → List (ServiceAction Thread Socket) →
    List (Report Socket) → List (MailEvent Socket) → MailSystem Thread Socket → Prop
  | nil {s : MailSystem Thread Socket} : MailRun s [] [] [] s
  | cons {s s' s'' : MailSystem Thread Socket} {action : ServiceAction Thread Socket}
      {actions : List (ServiceAction Thread Socket)} {report : Option (Report Socket)}
      {reports : List (Report Socket)} {events events' : List (MailEvent Socket)} :
      MailStep s action report events s' → MailRun s' actions reports events' s'' →
      MailRun s (action :: actions) (report.toList ++ reports) (events ++ events') s''

def MailSystem.initial : MailSystem Thread Socket := ⟨.empty, fun _ => .idle⟩

/-- The sockets are the mailboxes, and the paths are for their numbers. -/
structure Represents (s : ServiceSystem Thread Socket) (s' : MailSystem Thread Socket) :
    Prop where
  renames : Registry.Renames ServiceNr.path s.host s'.mail
  call : s.call = s'.call

/-! ## Each call -/

def ServiceStep.Refines (step : ServiceStep Socket) (mail : Mailboxes Socket)
    (request : Request Socket) (stack : Stack) (call : ServiceCall Socket) : Prop :=
  ∃ events mail', Registry.Run mail events mail' ∧
    Told mail request stack call step.report events step.call ∧
    Registry.Renames ServiceNr.path step.host mail'

section Calls

omit [DecidableEq Thread]

variable {host : Host Socket} {mail : Mailboxes Socket} {request : Request Socket}
  {stack : Stack} {call : ServiceCall Socket} (refusal : Option Errno) (socket : Socket)
  (n : ServiceNr) (address : SockaddrUn)

theorem ServiceStep.Refines.of_same {step : ServiceStep Socket}
    (h : Registry.Renames ServiceNr.path host mail) (hhost : step.host = host)
    (htold : Told mail request stack call step.report [] step.call) :
    step.Refines mail request stack call :=
  ⟨[], mail, .nil, htold, by rw [hhost]; exact h⟩

omit [DecidableEq Socket] in
theorem Told.failed_idle {socket : Socket} {errno : Errno} :
    Told mail request stack .idle (some (.failed socket errno)) [] .idle :=
  .failed fun _ _ hcall => by cases hcall

theorem tvnsBind_refines (h : Registry.Renames ServiceNr.path host mail)
    (hrequest : request.binds = some (socket, n)) :
    (tvnsBind refusal socket n stack.address host).Refines mail request stack .idle := by
  unfold tvnsBind
  simp only [cString_tvnsMakeAddress]
  rcases Unix.unlink_cases refusal host n.path with ⟨errno, hunlink⟩ | hunlink
  · simp only [hunlink, Unix.refuse]
    by_cases henoent : errno = .enoent
    · rw [if_neg (not_not.mpr henoent)]
      exact .of_same h rfl (.bind hrequest (.inl rfl))
    · rw [if_pos henoent]
      exact .of_same h rfl .failed_idle
  · rw [hunlink]
    exact ⟨_, _, (Registry.Step.unlink n).run, .bind hrequest (.inr rfl),
      h.unlink ServiceNr.path_injective n⟩

theorem tvnsBindAddress_refines (h : Registry.Renames ServiceNr.path host mail) :
    (tvnsBindAddress refusal socket n address host).Refines mail request stack
      (.bind socket n address) := by
  unfold tvnsBindAddress
  rcases Unix.bind_cases refusal host socket (tvnsMakeAddress n.number true address)
    with ⟨errno, hbind⟩ | ⟨hclosed, hname, howner, hbind⟩
  · rw [hbind]
    exact .of_same h rfl (.failed fun _ _ hcall => by cases hcall)
  · rw [addressPath_tvnsMakeAddress] at howner hbind
    rw [hbind]
    have hname' : mail.name socket = none := by simpa [h.name] using hname
    exact ⟨_, _, (Registry.Step.bind (h.closed socket ▸ hclosed) hname' (h.owner n ▸ howner)).run,
      .bound, h.bind ServiceNr.path_injective socket n⟩

theorem tvnsSendto_refines (h : Registry.Renames ServiceNr.path host mail)
    {buffer : List UInt8} {flags : UInt32} (hrequest : request = .sendto socket n buffer flags) :
    (tvnsSendto refusal socket n buffer flags address host).Refines mail request stack
      .idle := by
  unfold tvnsSendto
  rcases Unix.sendto_cases refusal host socket buffer flags
      (tvnsMakeAddress n.number true address)
    with ⟨errno, hsendto⟩ | ⟨target, hclosed, howner, htarget, hsendto⟩
  · rw [hsendto]
    exact .of_same h rfl .failed_idle
  · rw [addressPath_tvnsMakeAddress] at howner hsendto
    rw [hsendto]
    have hinbox : host.inbox target ++ [⟨host.name socket, buffer⟩] =
        List.map (Letter.rename ServiceNr.path)
          (mail.inbox target ++ [⟨mail.name socket, buffer⟩]) := by
      simp [h.inbox, h.name, Letter.rename]
    refine ⟨_, _, (Registry.Step.send buffer (h.closed socket ▸ hclosed) (h.owner n ▸ howner)
      (h.closed target ▸ htarget)).run, .sent hrequest, ?_⟩
    simp only [Unix.Answer.finish, hinbox]
    exact h.setInbox target _

theorem tvnsClose_refines (h : Registry.Renames ServiceNr.path host mail)
    (hrequest : request = .close socket n) :
    (tvnsClose refusal socket n address host).Refines mail request stack .idle := by
  unfold tvnsClose
  simp only [cString_tvnsMakeAddress]
  rcases Unix.unlink_cases refusal host n.path with ⟨errno, hunlink⟩ | hunlink
  · rw [hunlink]
    exact .of_same h rfl (.close hrequest (.inl rfl))
  · rw [hunlink]
    exact ⟨_, _, (Registry.Step.unlink n).run, .close hrequest (.inr rfl),
      h.unlink ServiceNr.path_injective n⟩

theorem tvnsCloseSocket_refines (h : Registry.Renames ServiceNr.path host mail) :
    (tvnsCloseSocket refusal socket n host).Refines mail request stack (.close socket n) := by
  unfold tvnsCloseSocket
  rcases Unix.close_cases refusal host socket with ⟨errno, hclosed, hclose⟩ | ⟨value, hclose⟩
  · rw [hclose]
    refine .of_same h rfl (.failed fun socket' n' hcall => ?_)
    cases hcall
    exact h.closed socket ▸ hclosed
  · rw [hclose]
    refine ⟨_, _, (Registry.Step.close socket).run, ?_, h.close socket⟩
    cases value with
    | error errno => exact .closed (.inr ⟨errno, rfl⟩)
    | ok _ => exact .closed (.inl rfl)

theorem storeName_parsed {n : ServiceNr} {stack : Stack} (hfits : stack.NameFits) :
    tvnsParseAddress stack.beyond stack.indeterminate
        (Unix.storeName stack.addressLen.toNat n.path stack.address) =
      if n.IsClient then some n.number else none := by
  have hlength := n.length_path_le
  have hoffset : n.path.length + sunPathOffset ≤ stack.addressLen.toNat := by
    have hroom := hfits.1
    unfold sunPathOffset
    omega
  obtain ⟨rest, hpath⟩ := sunPath_storeName stack.address hoffset
  by_cases hclient : n.IsClient
  · rw [if_pos hclient, tvnsParseAddress_clientPath hclient hpath]
  · rw [if_neg hclient, tvnsParseAddress_servicePath hclient hpath]

private theorem tvnsRecvfrom_reports {length : Nat} {flags : UInt32} {stack : Stack}
    {letter : Letter ServiceNr (List UInt8)}
    (hvalue : (Unix.recvfrom refusal socket length flags stack.address stack.addressLen
        host).value =
      if stack.addressLen.toNat < 2 ^ 31 then
        .ok (Unix.copyOut (letter.rename ServiceNr.path) length flags stack.address
          stack.addressLen)
      else .error .einval) :
    ∃ report, (tvnsRecvfrom refusal socket length flags stack host).report = some report ∧
      ReportsLetter socket length flags stack letter report := by
  unfold tvnsRecvfrom
  simp only [hvalue]
  by_cases hlen : stack.addressLen.toNat < 2 ^ 31
  · simp only [if_pos hlen]
    have hparsed (n : ServiceNr) (hfits : stack.NameFits) (hn : letter.sender = some n) :
        tvnsParseAddress stack.beyond stack.indeterminate
            (Unix.copyOut (letter.rename ServiceNr.path) length flags stack.address
              stack.addressLen).address =
          if n.IsClient then some n.number else none := by
      rw [← storeName_parsed hfits]
      simp only [Unix.copyOut, Letter.rename, hn, Option.map_some, Option.elim_some]
    cases hparse : tvnsParseAddress stack.beyond stack.indeterminate
        (Unix.copyOut (letter.rename ServiceNr.path) length flags stack.address
          stack.addressLen).address with
    | none =>
        refine ⟨.aborted socket, rfl, .inr (.inl rfl), fun hfits n hn => ?_⟩
        have hservice := hparsed n hfits hn
        rw [hparse] at hservice
        rw [ServiceNr.reported, if_neg fun hclient => by simp [hclient] at hservice]
    | some number =>
        refine ⟨_, rfl, .inr (.inr ⟨number, _, rfl⟩), fun hfits n hn => ?_⟩
        have hclient := hparsed n hfits hn
        rw [hparse] at hclient
        split_ifs at hclient with hn'
        · obtain rfl := Option.some.inj hclient
          rw [ServiceNr.reported, if_pos hn']
          rfl
  · simp only [if_neg hlen]
    exact ⟨_, rfl, .inl rfl, fun hfits => absurd hfits.2 hlen⟩

private theorem tvnsRecvfrom_call {length : Nat} {flags : UInt32} :
    (tvnsRecvfrom refusal socket length flags stack host).call = .idle ∨
      (tvnsRecvfrom refusal socket length flags stack host).call = .aborted := by
  simp only [tvnsRecvfrom]
  split
  · exact .inl rfl
  · split
    · exact .inr rfl
    · exact .inl rfl

theorem tvnsRecvfrom_refines (h : Registry.Renames ServiceNr.path host mail) {length : Nat}
    {flags : UInt32} (hrequest : request = .recvfrom socket length flags) :
    (tvnsRecvfrom refusal socket length flags stack host).Refines mail request stack .idle := by
  have hhost : (tvnsRecvfrom refusal socket length flags stack host).host =
      (Unix.recvfrom refusal socket length flags stack.address stack.addressLen host).host := by
    simp only [tvnsRecvfrom]
    split
    · rfl
    · split <;> rfl
  rcases Unix.recvfrom_cases refusal host socket length flags stack.address stack.addressLen
    with ⟨errno, hrecvfrom⟩ | ⟨letter, letters, hclosed, hinbox, hvalue, -, hhost'⟩
  · have hreport : (tvnsRecvfrom refusal socket length flags stack host).report =
        some (.failed socket errno) := by
      simp only [tvnsRecvfrom, hrecvfrom, Unix.refuse]
    refine .of_same h (by rw [hhost, hrecvfrom]; rfl) ?_
    have hcall : (tvnsRecvfrom refusal socket length flags stack host).call = .idle := by
      simp only [tvnsRecvfrom, hrecvfrom, Unix.refuse]
    rw [hreport, hcall]
    exact .failed_idle
  · rw [h.inbox] at hinbox
    obtain ⟨letter, letters, hmail, rfl, rfl⟩ := List.map_eq_cons_iff.mp hinbox
    obtain ⟨report, hreport, hletter⟩ := tvnsRecvfrom_reports refusal socket hvalue
    rw [hhost'] at hhost
    by_cases hpeek : flags &&& Unix.msgPeek = 0
    · rw [if_neg (not_not.mpr hpeek)] at hhost
      refine ⟨_, _, (Registry.Step.receive (h.closed socket ▸ hclosed) hmail).run, ?_, ?_⟩
      · rw [hreport]
        exact .received hrequest hpeek (tvnsRecvfrom_call refusal socket) hletter
      · rw [hhost]
        exact h.setInbox socket letters
    · rw [if_pos hpeek] at hhost
      refine .of_same h hhost ?_
      rw [hreport]
      exact .peeked hrequest hpeek (tvnsRecvfrom_call refusal socket) (by simp [hmail]) hletter

end Calls

/-! ## Every run -/

variable {s : ServiceSystem Thread Socket} {s' : MailSystem Thread Socket}

theorem ServiceSystem.next_refines (h : Represents s s')
    (action : ServiceAction Thread Socket) :
    ∃ events s'', MailStep s' action (s.next action).1 events s'' ∧
      Represents (s.next action).2 s'' := by
  obtain ⟨mail, call⟩ := s'
  obtain rfl : s.call = call := h.call
  cases action with
  | exit socket => exact ⟨_, _, .exit socket, h.renames.close socket, rfl⟩
  | step thread request stack refusal =>
      have hstep : ((s.call thread).step request stack refusal s.host).Refines mail request
          stack (s.call thread) := by
        cases s.call thread with
        | idle =>
            cases request with
            | bind socket n => exact tvnsBind_refines refusal socket n h.renames rfl
            | clientBind socket pid random =>
                exact tvnsBind_refines refusal socket (clientServiceNr pid random) h.renames rfl
            | unbind socket n => exact .of_same h.renames rfl (.unbound rfl)
            | sendto socket n buffer flags =>
                exact tvnsSendto_refines refusal socket n stack.address h.renames rfl
            | recvfrom socket length flags =>
                exact tvnsRecvfrom_refines refusal socket h.renames rfl
            | close socket n => exact tvnsClose_refines refusal socket n stack.address h.renames rfl
        | bind socket n address => exact tvnsBindAddress_refines refusal socket n address h.renames
        | close socket n => exact tvnsCloseSocket_refines refusal socket n h.renames
        | aborted => exact .of_same h.renames rfl .aborted
      obtain ⟨events, mail', hrun, htold, hrenames⟩ := hstep
      exact ⟨events, _, .step htold hrun, hrenames, rfl⟩

theorem ServiceSystem.run_mailRun (h : Represents s s')
    (actions : List (ServiceAction Thread Socket)) :
    ∃ events s'', MailRun s' actions (s.run actions).1 events s'' ∧
      Represents (s.run actions).2 s'' := by
  induction actions generalizing s s' with
  | nil => exact ⟨[], s', .nil, h⟩
  | cons action actions ih =>
      obtain ⟨events, s₁, hstep, h₁⟩ := s.next_refines h action
      obtain ⟨events', s₂, hrun, h₂⟩ := ih h₁
      exact ⟨_, s₂, .cons hstep hrun, h₂⟩

omit [DecidableEq Thread] [DecidableEq Socket] in
theorem represents_initial :
    Represents (ServiceSystem.initial : ServiceSystem Thread Socket) MailSystem.initial :=
  ⟨Registry.renames_empty ServiceNr.path, rfl⟩

end Mailboxes

end Libtvnet
