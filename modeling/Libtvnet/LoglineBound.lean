import Libtvnet.LogPipeline
import Libtvnet.LoopSafe

/-!
# The length of a log line

`snprintf` returns the length of the whole line, and that many bytes of an
array of 256 bytes are written to the log.  The service and the file name are
as long as the sender has them.
-/

namespace Libtvnet

open Libtvnet.Foundation

def LogCall.narrow (call : LogCall) : LogCall :=
  { call with
    tvnInfo := { call.tvnInfo with service := call.tvnInfo.service.narrow }
    filename := call.filename.narrow }

/-! ## The header of any packet -/

theorem LogCall.headerArgs_narrow (call : LogCall) :
    call.narrow.headerArgs = call.headerArgs.map VaArg.narrow :=
  rfl

theorem LogCall.narrow_inRange (call : LogCall) :
    List.Forall₂ VaArg.InRange headerTypes call.narrow.headerArgs :=
  LogCall.headerArgs_inRange (Token.length_narrowString_lt _) (Token.length_narrowString_lt _)

section Packet

variable {undefined : Binary64 → Int} {tvuRingHead : UInt64 → Option TvuBuffer} {call : LogCall}
  {written : TvuBuffer}

private theorem exists_append_of_tvnpVpprintf {buffer c : TvuBuffer} {types : List Char}
    {fmt : CString} {ap : List VaArg} (h : tvnpVpprintf undefined buffer types fmt ap = some c) :
    ∃ bytes, buffer.append bytes = some c := by
  simp only [tvnpVpprintf, Option.bind_eq_bind, Option.bind_eq_some_iff] at h
  obtain ⟨next, hfmt, ⟨ret, final⟩, hargs, h⟩ := h
  cases h
  rw [tvnpEncodeUtf8String_narrow] at hfmt
  obtain ⟨bytes, hbytes⟩ := exists_append_of_tvnpVencode hargs
  exact ⟨_, by rw [← TvuBuffer.append_append, hfmt, Option.bind_some, hbytes]⟩

theorem exists_rest_of_tvnlVmessage (hring : RingStarts tvuRingHead)
    (h : tvnlVmessage undefined tvuRingHead call = some (some written)) :
    ∃ suffix, written.rewind.rest = wire (call.narrow.headerTokens undefined) ++ suffix := by
  unfold tvnlVmessage at h
  split at h
  next types ret hparse =>
    split at h
    next => cases h
    next =>
      obtain ⟨size, hsize, h⟩ := Option.bind_eq_some_iff.mp h
      split at h
      next => cases h
      next packet hpacket =>
        simp only [Option.bind_eq_bind, Option.bind_eq_some_iff] at h
        obtain ⟨⟨ret, header⟩, hheader, final, hmessage, h⟩ := h
        cases h
        rw [← tvnpVencode_narrow, ← LogCall.headerArgs_narrow, tvnpVencode_eq packet
          (call.narrow_inRange.imp fun _ _ harg => harg.1) (by decide)] at hheader
        obtain ⟨header, happend, hpair⟩ := Option.map_eq_some_iff.mp hheader
        cases hpair
        obtain ⟨bytes, hbytes⟩ := exists_append_of_tvnpVpprintf hmessage
        have hwritten : packet.append (wire (call.narrow.headerTokens undefined) ++ bytes) =
            some written := by
          rw [← TvuBuffer.append_append]
          exact (congrArg (Option.bind · _) happend).trans hbytes
        have hrest : written.rewind.rest = _ :=
          TvuBuffer.rest_of_append hwritten (hring size packet hpacket).symm rfl
        exact ⟨_, hrest.trans (List.append_assoc ..)⟩

end Packet

/-! ## What the header says -/

structure HeaderRead (call : LogCall) (data : List UInt8) (locals : Locals) : Prop where
  messageType : locals.messageType = tvnlMessageType
  timestamp : locals.timestamp = call.timestamp
  user : locals.user = call.tvnInfo.user
  session : locals.session = call.tvnInfo.session
  transaction : locals.transaction = call.tvnInfo.transaction
  service : cString data locals.service = some call.tvnInfo.service.1
  severity : toEnum locals.severity = call.severity
  filename : cString data locals.filename = some call.filename.1
  lineno : locals.lineno = call.lineno

theorem VaOutput.Agrees.integer {data : List UInt8} {bits : BitVec 64} {output : VaOutput}
    (h : output.Agrees data 'q' (.gp64 bits)) : ∃ type, output = .integer type bits.toInt := by
  cases output with
  | integer type value =>
      cases h
      exact ⟨type, rfl⟩
  | string p =>
      obtain ⟨s, hs, -⟩ := h
      cases hs
  | float32 x => cases h
  | float64 x => cases h

theorem VaOutput.Agrees.string {data : List UInt8} {s : CString} {output : VaOutput}
    (h : output.Agrees data 's' (.string s)) :
    ∃ p, output = .string p ∧ cString data p = some s.1 := by
  cases output with
  | integer type value => cases h
  | string p =>
      obtain ⟨s, hs, hdata⟩ := h
      cases hs
      exact ⟨p, rfl, hdata⟩
  | float32 x => cases h
  | float64 x => cases h

private theorem toEnum_severity (severity : TvnlSeverity) :
    toEnum (Int64.ofInt (BitVec.ofNat 64 severity.toNat).toInt) = severity := by
  have hbits : Int64.ofInt (BitVec.ofNat 64 severity.toNat).toInt =
      Int64.ofNat severity.toNat := Int64.ofInt_toInt (Int64.ofNat severity.toNat)
  rw [toEnum, hbits, Int64.toUInt64_ofNat', UInt64.toUInt32_ofNat', UInt32.ofNat_toNat]

theorem headerRead {call : LogCall} {data : List UInt8} {outputs : List VaOutput}
    (h : List.Forall₂ (fun (c, arg) output => output.Agrees data c arg)
      (headerTypes.zip call.headerArgs) outputs) (locals : Locals) :
    HeaderRead call data ((headerVariables.zip outputs).foldl Locals.assign locals) ∧
      ((headerVariables.zip outputs).foldl Locals.assign locals).messageS = locals.messageS := by
  match outputs, h with
  | _, .cons h1 (.cons h2 (.cons h3 (.cons h4 (.cons h5 (.cons h6 (.cons h7 (.cons h8
      (.cons h9 .nil)))))))) =>
      obtain ⟨_, rfl⟩ := VaOutput.Agrees.integer h1
      obtain ⟨_, rfl⟩ := VaOutput.Agrees.integer h2
      obtain ⟨_, rfl⟩ := VaOutput.Agrees.integer h3
      obtain ⟨_, rfl⟩ := VaOutput.Agrees.integer h4
      obtain ⟨_, rfl⟩ := VaOutput.Agrees.integer h5
      obtain ⟨service, rfl, hservice⟩ := VaOutput.Agrees.string h6
      obtain ⟨_, rfl⟩ := VaOutput.Agrees.integer h7
      obtain ⟨filename, rfl, hfilename⟩ := VaOutput.Agrees.string h8
      obtain ⟨_, rfl⟩ := VaOutput.Agrees.integer h9
      have hword (x : Int64) : Int64.ofInt x.toBitVec.toInt = x := Int64.ofInt_toInt x
      exact ⟨⟨hword _, hword _, hword _, hword _, hword _, hservice, toEnum_severity _, hfilename,
        hword _⟩, rfl⟩

/-! ## The formatted line -/

/-- The bytes of a line with a message, its newline among them. -/
def LogCall.lineLength (lib : Formatters) (call : LogCall) (message : List UInt8) : Nat :=
  (lib.tvuFmtTimestamp call.timestamp).length + (severityText call.severity).length +
    (lib.tvuI64ToBase85 call.tvnInfo.user).length +
    (lib.tvuI64ToBase85 call.tvnInfo.session).length +
    (lib.tvuI64ToBase85 call.tvnInfo.transaction).length +
    call.tvnInfo.service.1.length + call.filename.1.length +
    (printSigned call.lineno.toInt).length + message.length + 9

theorem stringAt_of_cString {data s : List UInt8} {p : Nat} (h : cString data p = some s)
    (beyond : List UInt8) : stringAt data beyond p = s := by
  unfold cString at h
  split at h
  next hnul =>
    cases h
    have hp : p ≤ data.length := by
      by_contra hp
      rw [List.drop_eq_nil_of_le (by omega)] at hnul
      simp at hnul
    have hstops : ((data.drop p).takeWhile (· != 0)).length ≠ (data.drop p).length := by
      intro hlength
      have hall := List.takeWhile_eq_self_iff.mp ((List.takeWhile_prefix _).eq_of_length hlength)
      exact absurd (hall 0 hnul) (by simp)
    rw [stringAt, List.drop_append_of_le_length hp, List.takeWhile_append, if_neg hstops]
  next => cases h

theorem HeaderRead.message {call : LogCall} {data : List UInt8} {locals : Locals}
    (h : HeaderRead call data locals) (messageS : List UInt8) :
    HeaderRead call data { locals with messageS := messageS } :=
  { h with }

private theorem length_loglineText {call : LogCall} {data : List UInt8} {locals : Locals}
    (h : HeaderRead call data locals) (lib : Formatters) (beyond : List UInt8) :
    (loglineText lib locals (severityText call.severity) data beyond).length =
      call.lineLength lib (locals.messageS.takeWhile (· != 0)) := by
  unfold loglineText LogCall.lineLength
  rw [stringAt_of_cString h.service, stringAt_of_cString h.filename, h.timestamp, h.user,
    h.session, h.transaction, h.lineno]
  simp only [List.length_append, ascii, List.length_map, List.length_cons, List.length_nil]
  omega

/-! ## What is written -/

structure WritesStored (run : IterationRun) : Prop where
  count_le : run.loglineLen ≤ run.loglineS.length - 1
  stored_le : run.loglineS.length - 1 ≤ 255
  isPrefix : ∀ line, run.loglineS = snprintfStored 256 line →
    run.loglineS.take run.loglineLen <+: line

private theorem length_snprintfStored (line : List UInt8) :
    (snprintfStored 256 line).length - 1 = min 255 line.length := by
  simp [snprintfStored]

private theorem writesStored_iff {run : IterationRun} {line : List UInt8} (h : run.Formats line) :
    WritesStored run ↔ line.length ≤ 255 := by
  obtain ⟨hstored, hlength⟩ := h
  have hcount : run.loglineS.length - 1 = min 255 line.length := by
    rw [hstored, length_snprintfStored]
  constructor
  · intro hwrites
    have hle := hwrites.count_le
    omega
  · intro hle
    refine ⟨by omega, by omega, fun other hother => ?_⟩
    rw [hother, snprintfStored, List.take_append_of_le_length]
    · exact (List.take_prefix _ _).trans (List.take_prefix _ _)
    · have hsame := hother.symm.trans hstored
      have hbytes := congrArg List.length hsame
      simp only [snprintfStored, List.length_append, List.length_take] at hbytes ⊢
      omega

section Condition

variable (undefined : Binary64 → Int) (indeterminate : TvnpToken) (lib : Formatters)
  (call : LogCall) (written : TvuBuffer)

/-- The message that `tvnp_snprintp` makes of the packet behind its header, if it makes one. -/
def receivedMessage : Option (List UInt8) := do
  let (text, _) ← tvnpSnprintp undefined indeterminate lib.vsnprintf 256
    (written.rewind.skip (wire (call.narrow.headerTokens undefined)).length)
  text.map (·.takeWhile (· != 0))

def LineFits : Prop :=
  call.severity.toNat ≤ 5 ∧
    ∃ message ∈ receivedMessage undefined indeterminate lib call written,
      call.narrow.lineLength lib message ≤ 255

/--
Whatever its locals, its files and the memory behind the packet hold, the
iteration gets to its `write` and passes on no more than it has stored.
-/
def LineStored (optionLogdir : List UInt8) : Prop :=
  ∀ openFile files locals beyond,
    ∃ run, iteration undefined indeterminate lib optionLogdir openFile files locals beyond
      (some written.rewind) = some (some run) ∧ WritesStored run

end Condition

section Iteration

variable {undefined : Binary64 → Int} {indeterminate : TvnpToken} {lib : Formatters}
  {tvuRingHead : UInt64 → Option TvuBuffer} {call : LogCall} {written : TvuBuffer}

theorem formatMessage_message (undefined : Binary64 → Int) (indeterminate : TvnpToken)
    (lib : Formatters) {locals : Locals} (htype : locals.messageType = tvnlMessageType)
    (severityS : List UInt8) (b : TvuBuffer) :
    formatMessage undefined indeterminate lib locals severityS b =
      (tvnpSnprintp undefined indeterminate lib.vsnprintf 256 b).map fun (text, _) =>
        ({ locals with messageS := text.getD locals.messageS }, severityS,
          if text.isSome then [.assign .messageS] else []) := by
  rw [formatMessage, if_pos (congrArg toEnum htype), Option.map_eq_bind]
  refine Option.bind_congr fun (text, final) _ => ?_
  cases text <;> rfl

theorem packet_decodes (indeterminate : TvnpToken) (hring : RingStarts tvuRingHead)
    (h : tvnlVmessage undefined tvuRingHead call = some (some written)) (locals : Locals) :
    ∃ outputs decoded, tvnpVdecode undefined indeterminate headerTypes written.rewind =
        some (0, outputs, written.rewind.skip
          (wire (call.narrow.headerTokens undefined)).length) ∧
      decoded = (headerVariables.zip outputs).foldl Locals.assign locals ∧
      HeaderRead call.narrow written.data decoded ∧ decoded.messageS = locals.messageS := by
  obtain ⟨suffix, hrest⟩ := exists_rest_of_tvnlVmessage hring h
  obtain ⟨outputs, hdecode, houtputs⟩ :=
    tvnpVdecode_wire_agrees indeterminate header_letterPairs call.narrow_inRange hrest
  exact ⟨outputs, _, hdecode, rfl, headerRead houtputs locals⟩

theorem exists_text_of_receivedMessage {message : List UInt8}
    (h : receivedMessage undefined indeterminate lib call written = some message) :
    ∃ text final, tvnpSnprintp undefined indeterminate lib.vsnprintf 256
        (written.rewind.skip (wire (call.narrow.headerTokens undefined)).length) =
          some (some text, final) ∧
      text.takeWhile (· != 0) = message := by
  simp only [receivedMessage, Option.bind_eq_bind, Option.bind_eq_some_iff,
    Option.map_eq_some_iff] at h
  obtain ⟨⟨text, final⟩, htext, text, rfl, hmessage⟩ := h
  exact ⟨text, final, htext, hmessage⟩

variable (optionLogdir : List UInt8) (openFile : List UInt8 → Int) (files : Logfiles)
  (locals : Locals) (beyond : List UInt8)

private theorem exists_run_of_text (hring : RingStarts tvuRingHead)
    (h : tvnlVmessage undefined tvuRingHead call = some (some written))
    (hseverity : call.severity.toNat ≤ 5) {text : Option (List UInt8)} {final : TvuBuffer}
    (htext : tvnpSnprintp undefined indeterminate lib.vsnprintf 256
      (written.rewind.skip (wire (call.narrow.headerTokens undefined)).length) =
        some (text, final)) :
    ∃ run, iteration undefined indeterminate lib optionLogdir openFile files locals beyond
        (some written.rewind) = some (some run) ∧
      (WritesStored run ↔ call.narrow.lineLength lib
        ((text.getD locals.messageS).takeWhile (· != 0)) ≤ 255) := by
  obtain ⟨outputs, decoded, hdecode, rfl, hheader, hmessageS⟩ :=
    packet_decodes indeterminate hring h locals
  have hformat (severityS : List UInt8) :=
    formatMessage_message undefined indeterminate lib hheader.messageType severityS
      (written.rewind.skip (wire (call.narrow.headerTokens undefined)).length)
  simp only [htext, Option.map_some] at hformat
  obtain ⟨run, hrun, -, hline⟩ := iteration_of_formatMessage optionLogdir beyond openFile files
    hdecode (hformat _) (hheader.severity ▸ hseverity)
  rw [hheader.severity] at hline
  have hstored := writesStored_iff hline
  rw [hmessageS] at hstored
  have hlength := length_loglineText (hheader.message (text.getD locals.messageS)) lib beyond
  exact ⟨run, hrun, hstored.trans (iff_of_eq (congrArg (· ≤ 255) hlength))⟩

variable {optionLogdir openFile files locals beyond}

private theorem known_of_iteration (hring : RingStarts tvuRingHead)
    (h : tvnlVmessage undefined tvuRingHead call = some (some written)) {run : IterationRun}
    (hrun : iteration undefined indeterminate lib optionLogdir openFile files locals beyond
      (some written.rewind) = some (some run)) :
    call.severity.toNat ≤ 5 ∧
      ∃ text final, tvnpSnprintp undefined indeterminate lib.vsnprintf 256
        (written.rewind.skip (wire (call.narrow.headerTokens undefined)).length) =
          some (text, final) := by
  obtain ⟨outputs, decoded, hdecode, hdecoded, hheader, -⟩ :=
    packet_decodes indeterminate hring h locals
  obtain ⟨ret, outputs', message, decoded', locals', severityS, accesses, hdecode', hdecoded',
    hformat, hseverity, -⟩ := iteration_cases _ _ _ _ hrun
  cases hdecode.symm.trans hdecode'
  rw [hdecoded', ← hdecoded, formatMessage_message _ _ _ hheader.messageType] at hformat
  obtain ⟨⟨text, final⟩, htext, hformat⟩ := Option.map_eq_some_iff.mp hformat
  cases hformat
  have hsame : toEnum decoded.severity = call.severity := hheader.severity
  exact ⟨hsame ▸ hseverity, text, final, htext⟩

private theorem lineStored_of_lineFits (hring : RingStarts tvuRingHead)
    (h : tvnlVmessage undefined tvuRingHead call = some (some written))
    (hfits : LineFits undefined indeterminate lib call written) :
    LineStored undefined indeterminate lib written optionLogdir := by
  intro openFile files locals beyond
  obtain ⟨hseverity, message, hmessage, hlength⟩ := hfits
  obtain ⟨text, final, htext, rfl⟩ := exists_text_of_receivedMessage hmessage
  obtain ⟨run, hrun, hstored⟩ := exists_run_of_text optionLogdir openFile files locals beyond
    hring h hseverity htext
  exact ⟨run, hrun, hstored.mpr hlength⟩

private theorem lineFits_of_lineStored (hring : RingStarts tvuRingHead)
    (h : tvnlVmessage undefined tvuRingHead call = some (some written))
    (hstored : LineStored undefined indeterminate lib written optionLogdir) :
    LineFits undefined indeterminate lib call written := by
  -- An array without a NUL in its first 255 bytes, for a message that is not printed.
  have hall := hstored (fun _ => 3) Logfiles.start
    ⟨0, 0, 0, 0, 0, 0, 0, 0, 0, List.replicate 255 0x61 ++ [0]⟩ []
  obtain ⟨run, hrun, hwrites⟩ := hall
  obtain ⟨hseverity, text, final, htext⟩ := known_of_iteration hring h hrun
  obtain ⟨run', hrun', hiff⟩ := exists_run_of_text _ _ _ _ _ hring h hseverity htext
  obtain rfl : run = run' := by simpa using hrun.symm.trans hrun'
  have hlength := hiff.mp hwrites
  refine ⟨hseverity, ?_⟩
  cases text with
  | none =>
      have hfull : ((List.replicate 255 (0x61 : UInt8) ++ [0]).takeWhile (· != 0)).length =
          255 := by decide +kernel
      rw [Option.getD_none, LogCall.lineLength, hfull] at hlength
      omega
  | some text =>
      refine ⟨_, ?_, hlength⟩
      rw [receivedMessage, htext]
      rfl

theorem lineStored_iff_lineFits (hring : RingStarts tvuRingHead)
    (h : tvnlVmessage undefined tvuRingHead call = some (some written)) :
    LineStored undefined indeterminate lib written optionLogdir ↔
      LineFits undefined indeterminate lib call written :=
  ⟨lineFits_of_lineStored hring h, lineStored_of_lineFits hring h⟩

theorem LogCall.Proper.receivedMessage_eq (hproper : call.Proper) (indeterminate : TvnpToken)
    (hring : RingStarts tvuRingHead) (hserves : RingServes tvuRingHead call undefined) :
    ∃ written slots, tvnlVmessage undefined tvuRingHead call = some (some written) ∧
      List.Forall₂ (fun (c, arg) (slot : VaSlot) => slot.Received undefined written.data c arg)
        (call.types.zip call.ap) slots ∧
      ∀ lib : Formatters,
        receivedMessage undefined indeterminate lib call written =
          some ((snprintfStored 256 (lib.vsnprintf call.fmt.1 slots written.data)).takeWhile
            (· != 0)) := by
  obtain ⟨size, packet, header, written, -, -, -, hwritten, -, outputs, message, p, slots, final,
    hdecode, -, -, hcall, hfmt, hslots⟩ := hproper.packetCarries_received indeterminate hserves
  refine ⟨written, slots, hwritten, hslots, fun lib => ?_⟩
  obtain ⟨suffix, hrest⟩ := exists_rest_of_tvnlVmessage hring hwritten
  obtain ⟨outputs', hdecode', -⟩ :=
    tvnpVdecode_wire_agrees indeterminate header_letterPairs call.narrow_inRange hrest
  cases hdecode.symm.trans hdecode'
  have hcall : tvnpPickleToVa undefined indeterminate (written.rewind.skip
      (wire (call.narrow.headerTokens undefined)).length) = some (some (p, slots), final) := hcall
  have hfmt : cString (written.rewind.skip
      (wire (call.narrow.headerTokens undefined)).length).data p = some call.fmt.1 := hfmt
  simp only [receivedMessage, tvnpSnprintp, hcall, hfmt, Option.bind_eq_bind, Option.bind_some,
    Option.map_some]
  rfl

end Iteration

theorem lineStored_iff_sampleCall :
    ∃ written, tvnlVmessage (fun _ => 0) zeroRing sampleCall = some (some written) ∧
      (LineStored (fun _ => 0) .zeroFilled noFormatters written [] ↔
        LineFits (fun _ => 0) .zeroFilled noFormatters sampleCall written) := by
  obtain ⟨written, slots, hwritten, -⟩ := sampleCall_proper.receivedMessage_eq .zeroFilled
    ringStarts_zeroRing (ringServes_zeroRing sampleCall_proper (by decide) fun _ => 0)
  exact ⟨written, hwritten, lineStored_iff_lineFits ringStarts_zeroRing hwritten⟩

def longServiceCall : LogCall :=
  ⟨⟨1, 2, 3, ⟨List.replicate 300 0x41, by decide +kernel⟩⟩, 4096, ⟨[0x46], by decide⟩, 17, 4,
    ⟨[0x61], by decide⟩, []⟩

theorem not_lineStored_longService :
    ∃ written, tvnlVmessage (fun _ => 0) zeroRing longServiceCall = some (some written) ∧
      ∀ lib, ¬ LineStored (fun _ => 0) .zeroFilled lib written [] := by
  have hproper : longServiceCall.Proper :=
    ⟨by decide +kernel, by decide, by decide, .nil, by decide⟩
  obtain ⟨written, slots, hwritten, -, hmessage⟩ := hproper.receivedMessage_eq .zeroFilled
    ringStarts_zeroRing (ringServes_zeroRing hproper (by decide) fun _ => 0)
  refine ⟨written, hwritten, fun lib hstored => ?_⟩
  have hservice : longServiceCall.narrow.tvnInfo.service.1.length = 300 := by decide +kernel
  obtain ⟨-, message, -, hlength⟩ := lineFits_of_lineStored ringStarts_zeroRing hwritten hstored
  rw [LogCall.lineLength, hservice] at hlength
  omega

end Libtvnet
