import Libtvnet.LogSystem

/-!
# From a message to its line

The ring keeps the messages in order and the server writes a line for each of
them, so every file has the lines of its class and day in the order in which
the messages got their packets.
-/

namespace Libtvnet

open Libtvnet.Foundation

/-! ## The line of a message -/

def LogCall.line (lib : Formatters) (call : LogCall) (message : List UInt8) : List UInt8 :=
  lib.tvuFmtTimestamp call.timestamp ++ ascii [' '] ++ severityText call.severity ++
    ascii [' '] ++ lib.tvuI64ToBase85 call.tvnInfo.user ++ ascii [' '] ++
    lib.tvuI64ToBase85 call.tvnInfo.session ++ ascii [' '] ++
    lib.tvuI64ToBase85 call.tvnInfo.transaction ++ ascii [' '] ++
    call.tvnInfo.service.1 ++ ascii [':'] ++ call.filename.1 ++ ascii [':'] ++
    ascii (printSigned call.lineno.toInt) ++ ascii [' '] ++ message ++ ascii ['\n']

private theorem loglineText_eq_line {call : LogCall} {data : List UInt8} {locals : Locals}
    (h : HeaderRead call data locals) (lib : Formatters) (beyond : List UInt8) :
    loglineText lib locals (severityText call.severity) data beyond =
      call.line lib (locals.messageS.takeWhile (· != 0)) := by
  unfold loglineText LogCall.line
  rw [stringAt_of_cString h.service, stringAt_of_cString h.filename, h.timestamp, h.user,
    h.session, h.transaction, h.lineno]

theorem LogCall.Proper.narrow_eq {call : LogCall} (h : call.Proper) : call.narrow = call := by
  have hservice : call.tvnInfo.service.narrow = call.tvnInfo.service :=
    Subtype.ext (Token.narrowString_of_lt h.service)
  have hfilename : call.filename.narrow = call.filename :=
    Subtype.ext (Token.narrowString_of_lt h.filename)
  rw [LogCall.narrow, hservice, hfilename]

section Packet

variable (undefined : Binary64 → Int) (indeterminate : TvnpToken) (lib : Formatters)

structure PacketFor (call : LogCall) (packet : TvuBuffer) : Prop where
  offset : packet.offset = 0
  size : ∀ size, tvnlVmessageSize undefined call call.types = some size →
    packet.size = size.toNat

def WrittenBy (call : LogCall) (written : TvuBuffer) : Prop :=
  ∃ packet, PacketFor undefined call packet ∧
    tvnlVmessage undefined (fun _ => some packet) call = some (some written)

/-- The text of the message, from the arguments as the server has received them. -/
def IsMessageOf (call : LogCall) (data message : List UInt8) : Prop :=
  ∃ slots, List.Forall₂ (fun (c, arg) (slot : VaSlot) => slot.Received undefined data c arg)
      (call.types.zip call.ap) slots ∧
    message =
      (snprintfStored 256 (lib.vsnprintf call.fmt.1 slots data)).takeWhile (· != 0)

variable {undefined lib} {call : LogCall} {packet written : TvuBuffer}

theorem PacketFor.ringServes (h : PacketFor undefined call packet) :
    RingServes (fun _ => some packet) call undefined :=
  fun size hsize => ⟨packet, rfl, h.offset, h.size size hsize⟩

theorem PacketFor.tvnlVmessage_isSome (h : PacketFor undefined call packet)
    (hproper : call.Proper) :
    ∃ written, tvnlVmessage undefined (fun _ => some packet) call = some (some written) := by
  obtain ⟨written, -, hwritten, -⟩ := hproper.receivedMessage_eq .zeroFilled
    (fun _ _ heq => Option.some.inj heq ▸ h.offset) h.ringServes
  exact ⟨written, hwritten⟩

theorem WrittenBy.iteration_eq (h : WrittenBy undefined call written) (hcall : call.Loggable)
    (indeterminate : TvnpToken) (lib : Formatters) :
    ∃ message, IsMessageOf undefined lib call written.data message ∧
      ∀ optionLogdir openFile files locals beyond, ∃ run,
        iteration undefined indeterminate lib optionLogdir openFile files locals beyond
          (some written.rewind) = some (some run) ∧
        run.Formats (call.line lib message) ∧
        openLogfile lib.tvuFmtShortdate optionLogdir openFile files call.timestamp
          call.severity = some run.logfile := by
  obtain ⟨packet, hpacket, hwritten⟩ := h
  have hring : RingStarts fun _ => some packet :=
    fun _ _ heq => Option.some.inj heq ▸ hpacket.offset
  obtain ⟨written', slots, hwritten', hslots, hmessage⟩ :=
    hcall.proper.receivedMessage_eq indeterminate hring hpacket.ringServes
  obtain rfl : written' = written := by simpa [hwritten] using hwritten'.symm
  refine ⟨_, ⟨slots, hslots, rfl⟩, fun optionLogdir openFile files locals beyond => ?_⟩
  obtain ⟨outputs, decoded, hdecode, hdecoded, hheader, -⟩ :=
    packet_decodes indeterminate hring hwritten locals
  obtain ⟨text, final, htext, htaken⟩ := exists_text_of_receivedMessage (hmessage lib)
  rw [hcall.proper.narrow_eq] at hdecode hheader htext
  have hformat := formatMessage_message undefined indeterminate lib hheader.messageType
    (severityText (toEnum decoded.severity))
    (written'.rewind.skip (wire (call.headerTokens undefined)).length)
  rw [htext, Option.map_some] at hformat
  obtain ⟨logfile, hlogfile⟩ := Option.isSome_iff_exists.mp
    ((openLogfile_isSome_iff lib.tvuFmtShortdate optionLogdir openFile files decoded.timestamp
      (toEnum decoded.severity)).mpr (hheader.severity ▸ hcall.known))
  have hline : loglineText lib { decoded with messageS := text }
      (severityText (toEnum decoded.severity))
      (written'.rewind.skip (wire (call.headerTokens undefined)).length).data beyond = _ :=
    (hheader.severity ▸ loglineText_eq_line (hheader.message text) lib beyond).trans
      (congrArg (call.line lib) htaken)
  rw [← hheader.timestamp, ← hheader.severity]
  simp only [iteration, hdecode, ← hdecoded, hformat, Option.bind_eq_bind, Option.bind_some,
    Option.getD_some, hlogfile, hline, Option.some.injEq, exists_eq_left', and_true]
  constructor <;> dsimp only

theorem WrittenBy.iterationSafe (h : WrittenBy undefined call written) (hcall : call.Loggable)
    (indeterminate : TvnpToken) (lib : Formatters) (optionLogdir : List UInt8)
    (openFile : List UInt8 → Int) (files : Logfiles) (locals : Locals) (beyond : List UInt8) :
    IterationSafe undefined indeterminate lib optionLogdir openFile files locals beyond
      written.rewind := by
  obtain ⟨packet, hpacket, hwritten⟩ := h
  have hring : RingStarts fun _ => some packet :=
    fun _ _ heq => Option.some.inj heq ▸ hpacket.offset
  obtain ⟨written', slots, hwritten', -, hmessage⟩ :=
    hcall.proper.receivedMessage_eq indeterminate hring hpacket.ringServes
  obtain rfl : written' = written := by simpa [hwritten] using hwritten'.symm
  obtain ⟨suffix, hrest⟩ := exists_rest_of_tvnlVmessage hring hwritten
  obtain ⟨outputs, hdecode, houtputs⟩ :=
    tvnpVdecode_wire_agrees indeterminate header_letterPairs call.narrow_inRange hrest
  obtain ⟨hheader, -⟩ := headerRead houtputs locals
  have hnine : headerVariables.length ≤ outputs.length := by
    rw [← houtputs.length_eq, List.length_zip]
    simp [headerVariables, headerTypes, LogCall.headerArgs]
  obtain ⟨messageS, final, hsnprintp, -⟩ := exists_text_of_receivedMessage (hmessage lib)
  have hformat := formatMessage_message undefined indeterminate lib hheader.messageType
    (severityText (toEnum
      ((headerVariables.zip outputs).foldl Locals.assign locals).severity))
    (written'.rewind.skip (wire (call.narrow.headerTokens undefined)).length)
  rw [hsnprintp] at hformat
  obtain ⟨run, hrun, haccesses, -⟩ := iteration_of_formatMessage optionLogdir beyond openFile
    files hdecode hformat (hheader.severity ▸ hcall.known)
  refine ⟨run, hrun, ?_⟩
  have hassigned : (headerVariables.zip outputs).map (Access.assign ∘ Prod.fst) =
      headerVariables.map Access.assign := by
    rw [← List.map_map, List.map_fst_zip hnine]
  rw [haccesses.trans (congrArg (· ++ _ ++ _ ++ _) hassigned)]
  simp [headerVariables, AssignedFirst]

end Packet

section System

variable {buffer : RingBuffer} {Thread : Type} [DecidableEq Thread]
  {undefined : Binary64 → Int} {indeterminate : TvnpToken} {lib : Formatters}
  {optionLogdir : List UInt8} {s s' : LogSystem buffer Thread}

/-! ## The ring -/

structure RingHolds (undefined : Binary64 → Int) (s : LogSystem buffer Thread) : Prop where
  next : (buffer.queue s.ring).next = s.calls.length
  taken : (buffer.queue s.ring).taken = s.entries.length
  loggable : ∀ call ∈ s.calls, call.Loggable
  filled : ∀ number written, (buffer.queue s.ring).at? number = some (some written) →
    ∃ call, s.calls[number]? = some call ∧ WrittenBy undefined call written
  sending : ∀ thread sending, s.sending thread = some sending →
    (buffer.queue s.ring).at? sending.number = some none ∧
      s.calls[sending.number]? = some sending.call ∧
        PacketFor undefined sending.call sending.packet
  distinct : ∀ thread thread' sending sending', s.sending thread = some sending →
    s.sending thread' = some sending' → sending.number = sending'.number → thread = thread'
  lost : s.entries.countP Option.isNone = s.aborts

omit [DecidableEq Thread] in
theorem LogSystem.Initial.ringHolds (h : s.Initial) : RingHolds undefined s where
  next := by rw [h.queue, h.calls]; rfl
  taken := by rw [h.queue, h.entries]; rfl
  loggable := by simp [h.calls]
  filled number written hat := by simp [h.queue, SlotQueue.at?, SlotQueue.empty] at hat
  sending thread sending hsending := by simp [h.sending] at hsending
  distinct thread thread' sending sending' hsending := by simp [h.sending] at hsending
  lost := by rw [h.entries, h.aborts]; rfl

omit [DecidableEq Thread] in
theorem RingHolds.congr (h : RingHolds undefined s)
    (hqueue : buffer.queue s'.ring = buffer.queue s.ring) (hcalls : s'.calls = s.calls)
    (hsending : s'.sending = s.sending) (hentries : s'.entries = s.entries)
    (haborts : s'.aborts = s.aborts) : RingHolds undefined s' := by
  obtain ⟨hnext, htaken, hloggable, hfilled, hsends, hdistinct, hlost⟩ := h
  constructor
  all_goals
    simp only [hqueue, hcalls, hsending, hentries, haborts]
    assumption

theorem RingHolds.reserve (h : RingHolds undefined s) {thread : Thread} {call : LogCall}
    {size : UInt64} {number : Nat} {packet : TvuBuffer} {ring : buffer.State}
    (hthread : s.sending thread = none) (hcall : call.Loggable)
    (hsize : tvnlVmessageSize undefined call call.types = some size)
    (hhead : buffer.tvuRingHead s.ring size = (some (number, packet), ring)) :
    RingHolds undefined { s with
      ring := ring
      sending := Function.update s.sending thread (some ⟨number, packet, call⟩)
      calls := s.calls ++ [call] } := by
  obtain ⟨hnumber, hqueue, hoffset, hpacket⟩ := buffer.head_reserves _ _ _ _ _ hhead
  have hnew : number = s.calls.length := hnumber.trans h.next
  have hpacketFor : PacketFor undefined call packet := by
    refine ⟨hoffset, fun size' hsize' => ?_⟩
    obtain rfl : size = size' := by simpa [hsize] using hsize'
    exact hpacket
  have hold {number' : Nat} {content : Option TvuBuffer}
      (hat : (buffer.queue s.ring).at? number' = some content) : number' < s.calls.length := by
    rw [← h.next]
    exact (SlotQueue.lt_next_of_at? hat).2
  have hkept {number' : Nat} {call' : LogCall} (hcall' : s.calls[number']? = some call') :
      (s.calls ++ [call])[number']? = some call' := by
    obtain ⟨hlt, -⟩ := List.getElem?_eq_some_iff.mp hcall'
    rw [List.getElem?_append_left hlt, hcall']
  constructor
  · simp [hqueue, h.next]
  · simp [hqueue, h.taken]
  · simpa [or_imp, forall_and] using ⟨h.loggable, hcall⟩
  · intro number' written hat
    rw [hqueue, SlotQueue.at?_reserve] at hat
    split at hat
    · cases hat
    · obtain ⟨call', hcall', hwritten⟩ := h.filled number' written hat
      exact ⟨call', hkept hcall', hwritten⟩
  · intro thread' sending hsending
    rw [hqueue, SlotQueue.at?_reserve, ← hnumber]
    by_cases hself : thread' = thread
    · obtain rfl := hself
      obtain rfl : sending = ⟨number, packet, call⟩ := by simpa using hsending.symm
      exact ⟨if_pos rfl, by simp [hnew], hpacketFor⟩
    · obtain ⟨hat, hcall', hpacket'⟩ := h.sending thread' sending (by
        simpa [hself] using hsending)
      have hne : sending.number ≠ number := by
        have hlt := hold hat
        omega
      rw [if_neg hne]
      exact ⟨hat, hkept hcall', hpacket'⟩
  · have hfresh {thread' : Thread} {sending : Sending}
        (hsending : s.sending thread' = some sending) : sending.number ≠ number := by
      have hlt := hold (h.sending thread' sending hsending).1
      omega
    intro thread₁ thread₂ sending₁ sending₂ h₁ h₂ hsame
    by_cases hself₁ : thread₁ = thread <;> by_cases hself₂ : thread₂ = thread
    · rw [hself₁, hself₂]
    · have hother : s.sending thread₂ = some sending₂ := by simpa [hself₂] using h₂
      have hnumber₁ : sending₁.number = number := by
        have heq : ⟨number, packet, call⟩ = sending₁ := by simpa [hself₁] using h₁
        rw [← heq]
      exact absurd (hsame.symm.trans hnumber₁) (hfresh hother)
    · have hother : s.sending thread₁ = some sending₁ := by simpa [hself₁] using h₁
      have hnumber₂ : sending₂.number = number := by
        have heq : ⟨number, packet, call⟩ = sending₂ := by simpa [hself₂] using h₂
        rw [← heq]
      exact absurd (hsame.trans hnumber₂) (hfresh hother)
    · exact h.distinct thread₁ thread₂ sending₁ sending₂ (by simpa [hself₁] using h₁)
        (by simpa [hself₂] using h₂) hsame
  · exact h.lost

theorem RingHolds.mark (h : RingHolds undefined s) {thread : Thread} {sending : Sending}
    {written : TvuBuffer} (hthread : s.sending thread = some sending)
    (hwritten : tvnlVmessage undefined (fun _ => some sending.packet) sending.call =
      some (some written)) :
    RingHolds undefined { s with
      ring := buffer.tvuRingpacketMarkdata s.ring sending.number written
      sending := Function.update s.sending thread none } := by
  obtain ⟨hat, hcall, hpacket⟩ := h.sending thread sending hthread
  have hqueue := buffer.markdata_fills s.ring sending.number written
  have hothers {thread' : Thread} {sending' : Sending}
      (hsending : Function.update s.sending thread none thread' = some sending') :
      s.sending thread' = some sending' ∧ thread' ≠ thread := by
    by_cases hself : thread' = thread
    · simp [hself] at hsending
    · exact ⟨by simpa [hself] using hsending, hself⟩
  constructor
  · simp [hqueue, h.next]
  · simp [hqueue, h.taken]
  · exact h.loggable
  · intro number written' hat'
    rw [hqueue, SlotQueue.at?_fill hat] at hat'
    split at hat'
    case isTrue hsame =>
      obtain rfl : written = written' := by simpa using hat'
      exact ⟨sending.call, hsame ▸ hcall, sending.packet, hpacket, hwritten⟩
    case isFalse => exact h.filled number written' hat'
  · intro thread' sending' hsending
    obtain ⟨hsending, hne⟩ := hothers hsending
    have hnumber : sending'.number ≠ sending.number := fun hsame =>
      hne (h.distinct thread' thread sending' sending hsending hthread hsame)
    rw [hqueue, SlotQueue.at?_fill hat, if_neg hnumber]
    exact h.sending thread' sending' hsending
  · intro thread₁ thread₂ sending₁ sending₂ h₁ h₂
    exact h.distinct thread₁ thread₂ sending₁ sending₂ (hothers h₁).1 (hothers h₂).1
  · exact h.lost

omit [DecidableEq Thread] in
theorem RingHolds.tail (h : RingHolds undefined s) {number : Nat} {packet : TvuBuffer}
    {ring : buffer.State} (htail : buffer.tvuRingTail s.ring = (some (number, packet), ring)) :
    ∃ call, s.calls[s.entries.length]? = some call ∧ call.Loggable ∧
      WrittenBy undefined call packet := by
  obtain ⟨holdest, -⟩ := buffer.tail_takes _ _ _ _ htail
  obtain ⟨hnumber, hat, -⟩ := SlotQueue.at?_of_oldest holdest
  obtain ⟨call, hcall, hwritten⟩ := h.filled number packet hat
  rw [hnumber, h.taken] at hcall
  exact ⟨call, hcall, h.loggable call (List.mem_of_getElem? hcall), hwritten⟩

omit [DecidableEq Thread] in
theorem RingHolds.take (h : RingHolds undefined s) {number : Nat} {packet : TvuBuffer}
    {ring : buffer.State} (htail : buffer.tvuRingTail s.ring = (some (number, packet), ring))
    {taken : Option Nat} {server : LogServer} {disk : Disk} {outcome : Option Entry} :
    RingHolds undefined { s with
      ring := ring
      taken := taken
      server := server
      disk := disk
      entries := s.entries ++ [outcome]
      aborts := s.aborts + [outcome].countP Option.isNone } := by
  obtain ⟨holdest, hqueue⟩ := buffer.tail_takes _ _ _ _ htail
  obtain ⟨hnumber, hat, hnext⟩ := SlotQueue.at?_of_oldest holdest
  constructor
  · simp [hqueue, hnext, h.next]
  · simp [hqueue, h.taken]
  · exact h.loggable
  · intro number' written hat'
    rw [hqueue, SlotQueue.at?_take] at hat'
    split at hat'
    · cases hat'
    · exact h.filled number' written hat'
  · intro thread sending hsending
    obtain ⟨hat', hrest⟩ := h.sending thread sending hsending
    have hne : sending.number ≠ (buffer.queue s.ring).taken := by
      rintro hsame
      rw [hsame, ← hnumber, hat] at hat'
      cases hat'
    rw [hqueue, SlotQueue.at?_take, if_neg hne]
    exact ⟨hat', hrest⟩
  · exact h.distinct
  · rw [List.countP_append, h.lost]

theorem LogStep.ringHolds (h : LogStep undefined indeterminate lib optionLogdir s s')
    (hs : RingHolds undefined s) : RingHolds undefined s' := by
  cases h with
  | refuse hsize hhead => exact hs.congr (buffer.head_refuses _ _ _ hhead) rfl rfl rfl rfl
  | reserve hthread hcall hparse hsize hhead => exact hs.reserve hthread hcall hsize hhead
  | mark hthread hwritten => exact hs.mark hthread hwritten
  | wait htaken htail => exact hs.congr (buffer.tail_waits _ _ htail) rfl rfl rfl rfl
  | log htaken htail => exact hs.take htail
  | abort htaken htail => exact hs.take htail
  | free htaken => exact hs.congr (buffer.free_keeps _ _) rfl rfl rfl rfl
  | restart htaken => exact hs.congr rfl rfl rfl rfl rfl

/-! ## The files -/

/--
What `write` takes of a line: all of it, or else the first 255 bytes, the NUL
behind them, and as much of the stack as the line is longer.
-/
structure WritesLine (line bytes : List UInt8) : Prop where
  length : bytes.length = line.length
  whole : line.length ≤ 255 → bytes = line
  cut : 255 < line.length → ∃ stack, bytes = line.take 255 ++ 0 :: stack

/-- What the log has of a call: its line, in the file of its class and day. -/
structure EntryFor (undefined : Binary64 → Int) (lib : Formatters) (optionLogdir : List UInt8)
    (call : LogCall) (entry : Entry) : Prop where
  file : entry.file =
    some (logfileName optionLogdir call.severity (lib.tvuFmtShortdate call.timestamp))
  line : ∃ data message, IsMessageOf undefined lib call data message ∧
    WritesLine (call.line lib message) entry.bytes

def writtenTo (entries : List (Option Entry)) (file : List UInt8) : List UInt8 :=
  ((entries.filterMap id).filter fun entry => entry.file = some file).flatMap Entry.bytes

private theorem writtenTo_append (entries entries' : List (Option Entry)) (file : List UInt8) :
    writtenTo (entries ++ entries') file = writtenTo entries file ++ writtenTo entries' file := by
  simp [writtenTo]

theorem Disk.write_apply (disk : Disk) (entry : Entry) (file : List UInt8) :
    disk.write entry file = disk file ++ writtenTo [some entry] file := by
  unfold Disk.write writtenTo
  cases hfile : entry.file with
  | none => simp [hfile]
  | some file' =>
      by_cases hsame : file = file'
      · simp [hfile, hsame]
      · have hother : file' ≠ file := Ne.symm hsame
        simp [hfile, hsame, hother]

private theorem writesLine_snprintfStored {line stack : List UInt8}
    (hstack : line.length ≤ (snprintfStored 256 line ++ stack).length) :
    WritesLine line ((snprintfStored 256 line ++ stack).take line.length) := by
  refine ⟨by rw [List.length_take, min_eq_left hstack], fun hshort => ?_, fun hlong => ?_⟩
  · simp [snprintfStored, List.take_of_length_le hshort]
  · have hlength : (line.take 255).length = 255 := by
      rw [List.length_take, min_eq_left hlong.le]
    obtain ⟨rest, hrest⟩ : ∃ rest, line.length = 255 + (rest + 1) :=
      ⟨line.length - 256, by omega⟩
    have hcut : (line.take 255 ++ 0 :: stack).take ((line.take 255).length + (rest + 1)) =
        line.take 255 ++ 0 :: stack.take rest := List.take_length_add_append ..
    rw [hlength, ← hrest] at hcut
    refine ⟨stack.take rest, ?_⟩
    rw [snprintfStored, List.append_assoc]
    exact hcut

theorem IterationRun.Formats.writesLine {run : IterationRun} {line stack : List UInt8}
    (h : run.Formats line) (hstack : run.loglineLen ≤ (run.loglineS ++ stack).length) :
    WritesLine line ((run.loglineS ++ stack).take run.loglineLen) := by
  rw [h.stored, h.len_eq] at hstack ⊢
  exact writesLine_snprintfStored hstack

private theorem openLogfile_opens {shortdate : Int64 → List UInt8} {files : Logfiles}
    {answer fd : Int} {timestamp : Int64} {severity : TvnlSeverity} {run : LogfileRun}
    (hdates : ∀ timestamp, shortdate timestamp ≠ [])
    (hstart : files.logfileDate = LogServer.start.files.logfileDate)
    (h : openLogfile shortdate optionLogdir (fun _ => answer) files timestamp severity = some run)
    (hret : run.ret = some fd) (opened : List (Int × List UInt8)) :
    openFileName (run.calls.foldl (FileCall.run answer) opened) fd =
        some (logfileName optionLogdir severity (shortdate timestamp)) ∧
      run.files.logfileDate = LogServer.start.files.logfileDate := by
  rcases openLogfile_cases shortdate optionLogdir h hret with
    ⟨hdate, -⟩ | ⟨old, -, -, rfl, hopened, rfl⟩
  · rw [hstart] at hdate
    exact absurd (start_logfileDate hdate) (hdates timestamp)
  · refine ⟨?_, hstart⟩
    simp [openFileName, FileCall.run, hopened]

theorem WrittenBy.entryFor {call : LogCall} {written : TvuBuffer} {answer fd : Int}
    {files : Logfiles} {locals : Locals} {beyond : List UInt8} {run : IterationRun}
    (h : WrittenBy undefined call written) (hcall : call.Loggable)
    (hdates : ∀ timestamp, lib.tvuFmtShortdate timestamp ≠ [])
    (hstart : files.logfileDate = LogServer.start.files.logfileDate)
    (hrun : iteration undefined indeterminate lib optionLogdir (fun _ => answer) files locals
      beyond (some written.rewind) = some (some run))
    (hret : run.logfile.ret = some fd) (opened : List (Int × List UInt8)) {stack : List UInt8}
    (hstack : run.loglineLen ≤ (run.loglineS ++ stack).length) :
    EntryFor undefined lib optionLogdir call
        ⟨openFileName (run.logfile.calls.foldl (FileCall.run answer) opened) fd,
          (run.loglineS ++ stack).take run.loglineLen⟩ ∧
      run.logfile.files.logfileDate = LogServer.start.files.logfileDate := by
  obtain ⟨message, hmessage, hiteration⟩ := h.iteration_eq hcall indeterminate lib
  obtain ⟨run', hrun', hformats, hlogfile⟩ :=
    hiteration optionLogdir (fun _ => answer) files locals beyond
  obtain rfl : run' = run := Option.some.inj (Option.some.inj (hrun'.symm.trans hrun))
  obtain ⟨hfile, hdate⟩ := openLogfile_opens hdates hstart hlogfile hret opened
  exact ⟨⟨hfile, written.data, message, hmessage, hformats.writesLine hstack⟩, hdate⟩

/-- The files have the lines of the calls that the server has handled, and nothing else. -/
structure FilesHold (undefined : Binary64 → Int) (lib : Formatters) (optionLogdir : List UInt8)
    (disk : Disk) (s : LogSystem buffer Thread) : Prop where
  dates : s.server.files.logfileDate = LogServer.start.files.logfileDate
  entries : List.Forall₂
    (fun call outcome => ∀ entry ∈ outcome, EntryFor undefined lib optionLogdir call entry)
    (s.calls.take s.entries.length) s.entries
  disk : ∀ file, s.disk file = disk file ++ writtenTo s.entries file

omit [DecidableEq Thread] in
theorem LogSystem.Initial.filesHold (h : s.Initial) :
    FilesHold undefined lib optionLogdir s.disk s where
  dates := by rw [h.server]
  entries := by simp [h.entries]
  disk file := by simp [h.entries, writtenTo]

omit [DecidableEq Thread] in
theorem FilesHold.entries_le {disk : Disk} (h : FilesHold undefined lib optionLogdir disk s) :
    s.entries.length ≤ s.calls.length := by
  have hlength := h.entries.length_eq
  rw [List.length_take] at hlength
  omega

omit [DecidableEq Thread] in
theorem FilesHold.entries_append {disk : Disk}
    (h : FilesHold undefined lib optionLogdir disk s) {call : LogCall} {outcome : Option Entry}
    (hcall : s.calls[s.entries.length]? = some call)
    (houtcome : ∀ entry ∈ outcome, EntryFor undefined lib optionLogdir call entry) :
    List.Forall₂
      (fun call outcome => ∀ entry ∈ outcome, EntryFor undefined lib optionLogdir call entry)
      (s.calls.take (s.entries ++ [outcome]).length) (s.entries ++ [outcome]) := by
  rw [List.length_append, List.length_singleton, List.take_add_one, hcall]
  exact List.rel_append h.entries (.cons houtcome .nil)

theorem LogStep.filesHold {disk : Disk} (hdates : ∀ timestamp, lib.tvuFmtShortdate timestamp ≠ [])
    (h : LogStep undefined indeterminate lib optionLogdir s s') (hring : RingHolds undefined s)
    (hs : FilesHold undefined lib optionLogdir disk s) :
    FilesHold undefined lib optionLogdir disk s' := by
  cases h with
  | refuse hsize hhead => exact ⟨hs.dates, hs.entries, hs.disk⟩
  | reserve hthread hcall hparse hsize hhead =>
      refine ⟨hs.dates, ?_, hs.disk⟩
      dsimp only
      rw [List.take_append_of_le_length hs.entries_le]
      exact hs.entries
  | mark hthread hwritten => exact ⟨hs.dates, hs.entries, hs.disk⟩
  | wait htaken htail => exact ⟨hs.dates, hs.entries, hs.disk⟩
  | @log ring number packet locals beyond stack answer fd run opened entry htaken htail hrun hret
      hstack hopened hentry =>
      obtain ⟨call, hcall, hloggable, hwritten⟩ := hring.tail htail
      obtain ⟨hnew, hstart⟩ :=
        hwritten.entryFor hloggable hdates hs.dates hrun hret s.server.opened hstack
      rw [← hopened, ← hentry] at hnew
      refine ⟨hstart, hs.entries_append hcall ?_, fun file => ?_⟩
      · rintro entry' heq
        exact Option.mem_some.mp heq ▸ hnew
      · dsimp only
        rw [Disk.write_apply, hs.disk, writtenTo_append, List.append_assoc]
  | abort htaken htail =>
      obtain ⟨call, hcall, -⟩ := hring.tail htail
      refine ⟨rfl, hs.entries_append hcall fun entry hentry => (by cases hentry), fun file => ?_⟩
      dsimp only
      rw [hs.disk, writtenTo_append]
      exact congrArg _ (List.append_nil _).symm
  | free htaken => exact ⟨hs.dates, hs.entries, hs.disk⟩
  | restart htaken => exact ⟨rfl, hs.entries, hs.disk⟩

theorem RingHolds.exists_log (h : RingHolds undefined s) (indeterminate : TvnpToken)
    (lib : Formatters) (optionLogdir : List UInt8) (htaken : s.taken = none) {number : Nat}
    {packet : TvuBuffer} {ring : buffer.State}
    (htail : buffer.tvuRingTail s.ring = (some (number, packet), ring)) {answer : Int}
    (hanswer : answer ≠ -1) (locals : Locals) :
    ∃ s', LogStep undefined indeterminate lib optionLogdir s s' ∧
      s'.entries.length = s.entries.length + 1 ∧ s'.calls = s.calls ∧
        s'.sending = s.sending ∧ s'.taken = some number ∧ s'.aborts = s.aborts := by
  obtain ⟨call, -, hcall, hwritten⟩ := h.tail htail
  obtain ⟨message, -, hiteration⟩ := hwritten.iteration_eq hcall indeterminate lib
  obtain ⟨run, hrun, -, hlogfile⟩ :=
    hiteration optionLogdir (fun _ => answer) s.server.files locals []
  have hret : ∃ fd, run.logfile.ret = some fd := by
    simp only [openLogfile, Option.bind_eq_bind, Option.bind_eq_some_iff] at hlogfile
    obtain ⟨date, -, old, -, hlogfile⟩ := hlogfile
    split at hlogfile
    case isTrue =>
      rw [← Option.some.inj hlogfile]
      exact ⟨old, rfl⟩
    case isFalse =>
      rw [← Option.some.inj hlogfile]
      exact ⟨answer, rfl⟩
  obtain ⟨fd, hfd⟩ := hret
  have hstep : LogStep undefined indeterminate lib optionLogdir s _ :=
    .log htaken htail hrun hfd
      (by simp : run.loglineLen ≤ (run.loglineS ++ List.replicate run.loglineLen 0).length) rfl
      rfl
  exact ⟨_, hstep, List.length_append, rfl, rfl, rfl, rfl⟩

/-! ## Runs -/

theorem LogSystem.Initial.run_ringHolds (hinit : s.Initial)
    (hrun : Relation.ReflTransGen (LogStep undefined indeterminate lib optionLogdir) s s') :
    RingHolds undefined s' := by
  induction hrun with
  | refl => exact hinit.ringHolds
  | tail _ hstep ih => exact hstep.ringHolds ih

theorem LogSystem.Initial.run_filesHold
    (hdates : ∀ timestamp, lib.tvuFmtShortdate timestamp ≠ []) (hinit : s.Initial)
    (hrun : Relation.ReflTransGen (LogStep undefined indeterminate lib optionLogdir) s s') :
    FilesHold undefined lib optionLogdir s.disk s' := by
  induction hrun with
  | refl => exact hinit.filesHold
  | tail hsteps hstep ih => exact hstep.filesHold hdates (hinit.run_ringHolds hsteps) ih

end System

/-! ## A ring without a limit, and one message -/

def slotRing : RingBuffer where
  State := SlotQueue TvuBuffer
  tvuRingHead q size :=
    if size.toNat < 2 ^ 63 then (some (q.next, zeroAlloc size), q.reserve) else (none, q)
  tvuRingpacketMarkdata q number packet := q.fill number packet
  tvuRingTail q := (q.oldest, if q.oldest.isSome then q.take else q)
  tvuRingpacketMarkfree q _ := q
  tvuRingAdvanceFree q := q
  queue q := q
  head_reserves q size number packet q' h := by
    split at h
    case isTrue hsmall =>
      cases h
      refine ⟨rfl, rfl, ?_⟩
      rw [zeroAlloc, dif_pos hsmall]
      exact ⟨rfl, List.length_replicate⟩
    case isFalse => cases h
  head_refuses q size q' h := by
    split at h
    case isTrue => cases h
    case isFalse => exact (Prod.mk.inj h).2.symm
  markdata_fills q number packet := rfl
  tail_takes q number packet q' h := by
    obtain ⟨holdest, rfl⟩ := Prod.mk.inj h
    simp [holdest]
  tail_waits q q' h := by
    obtain ⟨holdest, rfl⟩ := Prod.mk.inj h
    simp [holdest]
  free_keeps q number := rfl

theorem slotRing_head {call : LogCall} (hproper : call.Proper)
    (hletters : call.types.length ≤ 2 ^ 20) (undefined : Binary64 → Int) :
    ∃ size, tvnlVmessageSize undefined call call.types = some size ∧
      ∀ ring, slotRing.tvuRingHead ring size =
        (some (ring.next, zeroAlloc size), ring.reserve) := by
  have hle := hproper.length_packet_le undefined
  have hsmall :
      (UInt64.ofNat (wire (call.packetTokens undefined)).length).toNat < 2 ^ 63 := by
    rw [UInt64.toNat_ofNat_of_lt' (hproper.length_packet_lt undefined)]
    omega
  exact ⟨_, hproper.tvnlVmessageSize_eq undefined, fun _ => if_pos hsmall⟩

def dayFormatters : Formatters := ⟨fun _ => [], leapDay, fun _ => [], fun fmt _ _ => fmt⟩

def letterCall : LogCall := ⟨sampleInfo, 4096, ⟨[0x43], by decide⟩, 17, 4, ⟨[0x62], by decide⟩, []⟩

def emptyLog : LogSystem slotRing Unit :=
  ⟨.empty, fun _ => none, none, .start, fun _ => [], [], [], 0⟩

theorem letterCall_loggable : letterCall.Loggable :=
  ⟨⟨by decide, by decide, by decide, .nil, by decide⟩, by decide⟩

theorem emptyLog_initial : emptyLog.Initial := ⟨rfl, fun _ => rfl, rfl, rfl, rfl, rfl, rfl⟩

theorem letterCall_run : ∃ marked s',
    Relation.ReflTransGen (LogStep (fun _ => 0) .zeroFilled dayFormatters []) emptyLog marked ∧
      (slotRing.tvuRingTail marked.ring).1.isSome = true ∧
      LogStep (fun _ => 0) .zeroFilled dayFormatters [] marked s' ∧
      s'.entries.length = 1 ∧ s'.calls = [letterCall] ∧ s'.aborts = 0 := by
  have hproper := letterCall_loggable.proper
  obtain ⟨size, hsize, hhead⟩ := slotRing_head hproper (by decide) fun _ => 0
  obtain ⟨reserved, hreserve, hsending, hring, htaken, hcalls, hentries, haborts⟩ :
      ∃ reserved, LogStep (fun _ => 0) .zeroFilled dayFormatters [] emptyLog reserved ∧
        reserved.sending () = some ⟨0, zeroAlloc size, letterCall⟩ ∧
        reserved.ring = .reserve .empty ∧ reserved.taken = none ∧
        reserved.calls = [letterCall] ∧ reserved.entries = [] ∧ reserved.aborts = 0 :=
    ⟨_, .reserve (rfl : emptyLog.sending () = none) letterCall_loggable (by decide) hsize
      (hhead _), by simp [emptyLog, SlotQueue.next, SlotQueue.empty], rfl, rfl, rfl, rfl, rfl⟩
  have hreserved := hreserve.ringHolds emptyLog_initial.ringHolds
  obtain ⟨-, -, hpacket⟩ := hreserved.sending () _ hsending
  obtain ⟨written, hwritten⟩ := hpacket.tvnlVmessage_isSome hproper
  have hmark : LogStep (fun _ => 0) .zeroFilled dayFormatters [] reserved _ :=
    .mark hsending hwritten
  have htail : slotRing.tvuRingTail (slotRing.tvuRingpacketMarkdata reserved.ring 0 written) =
      (some (0, written), ⟨1, []⟩) := by
    rw [hring]
    rfl
  obtain ⟨s', hlog, hlogged, hkept, -, -, hstays⟩ :=
    (hmark.ringHolds hreserved).exists_log .zeroFilled dayFormatters [] htaken htail
      (by decide : (3 : Int) ≠ -1) ⟨0, 0, 0, 0, 0, 0, 0, 0, 0, []⟩
  refine ⟨_, s', (Relation.ReflTransGen.single hreserve).tail hmark, ?_, hlog, ?_, ?_, ?_⟩
  · rw [htail]
    rfl
  · rw [hlogged, hentries]
    rfl
  · rw [hkept, hcalls]
  · rw [hstays, haborts]

theorem leapDay_ne_nil (timestamp : Int64) : dayFormatters.tvuFmtShortdate timestamp ≠ [] := by
  change leapDay timestamp ≠ []
  simp [leapDay, ascii]

end Libtvnet
