import Libtvnet.DecodeBounds
import Libtvnet.Loop

/-!
# Which packets the log server can handle

Any process may write any bytes to the ring.  What the server assigns depends
on how many tokens of the packet fit, and neither result of decoding is looked
at before the locals are used.
-/

namespace Libtvnet

open Libtvnet.Foundation

/-! ## Tokens at an offset -/

section Tokens

variable {undefined : Binary64 → Int} {indeterminate : TvnpToken} {b final : TvuBuffer}

def Reads {α : Type} (indeterminate : TvnpToken) (read : Char → TvnpToken → Option α)
    (types : List Char) (b : TvuBuffer) (outputs : List α) (final : TvuBuffer) : Prop :=
  ∃ tokens, readTokens indeterminate types.length b = some (tokens, final) ∧
    List.zipWith read types tokens = outputs.map some

private theorem reads_nil {α : Type} {read : Char → TvnpToken → Option α} {outputs : List α} :
    Reads indeterminate read [] b outputs final ↔ outputs = [] ∧ final = b := by
  constructor
  · rintro ⟨tokens, htokens, hzip⟩
    cases htokens
    rw [List.zipWith_nil_left] at hzip
    exact ⟨List.map_eq_nil_iff.mp hzip.symm, rfl⟩
  · rintro ⟨rfl, rfl⟩
    exact ⟨[], rfl, rfl⟩

private theorem reads_cons {α : Type} {read : Char → TvnpToken → Option α} {c : Char}
    {types : List Char} {outputs : List α} :
    Reads indeterminate read (c :: types) b outputs final ↔
      ∃ token b' output rest, tvnpDecodeToken indeterminate b = some (token, b') ∧
        read c token = some output ∧ Reads indeterminate read types b' rest final ∧
        outputs = output :: rest := by
  constructor
  · rintro ⟨tokens, htokens, hzip⟩
    simp only [List.length_cons, readTokens, Option.bind_eq_bind, Option.bind_eq_some_iff]
      at htokens
    obtain ⟨⟨token, b'⟩, htoken, ⟨rest, final'⟩, hrest, h⟩ := htokens
    cases h
    cases outputs with
    | nil => simp at hzip
    | cons output outputs =>
        rw [List.zipWith_cons_cons, List.map_cons] at hzip
        obtain ⟨hfirst, hzip⟩ := List.cons.inj hzip
        exact ⟨token, b', output, outputs, htoken, hfirst, ⟨rest, hrest, hzip⟩, rfl⟩
  · rintro ⟨token, b', output, rest, htoken, hread, ⟨tokens, htokens, hzip⟩, rfl⟩
    refine ⟨token :: tokens, ?_, ?_⟩
    · rw [List.length_cons, readTokens, htoken]
      simp only [Option.bind_eq_bind, Option.bind_some, htokens]
    · rw [List.zipWith_cons_cons, hread, hzip, List.map_cons]

private theorem tvnpVdecode_outputs {types : List Char} {ret : Int} {outputs : List VaOutput}
    (h : tvnpVdecode undefined indeterminate types b = some (ret, outputs, final)) :
    outputs.length ≤ types.length ∧
      (outputs.length = types.length →
        Reads indeterminate (vaStore undefined) types b outputs final) := by
  induction types generalizing b outputs with
  | nil =>
      cases h
      exact ⟨le_refl _, fun _ => reads_nil.mpr ⟨rfl, rfl⟩⟩
  | cons c types ih =>
      simp only [tvnpVdecode, Option.bind_eq_bind, Option.bind_eq_some_iff] at h
      obtain ⟨⟨token, b'⟩, htoken, h⟩ := h
      cases hstore : vaStore undefined c token with
      | none =>
          rw [hstore] at h
          cases h
          simp
      | some output =>
          rw [hstore] at h
          obtain ⟨⟨ret', rest, final'⟩, hrest, h⟩ := Option.bind_eq_some_iff.mp h
          cases h
          obtain ⟨hle, hall⟩ := ih hrest
          refine ⟨Nat.succ_le_succ hle, fun hlength => ?_⟩
          exact reads_cons.mpr
            ⟨token, b', output, rest, htoken, hstore, hall (Nat.succ.inj hlength), rfl⟩

private theorem tvnpVdecode_of_tokens {types : List Char} {outputs : List VaOutput}
    (h : Reads indeterminate (vaStore undefined) types b outputs final) :
    tvnpVdecode undefined indeterminate types b = some (0, outputs, final) := by
  induction types generalizing b outputs with
  | nil =>
      obtain ⟨rfl, rfl⟩ := reads_nil.mp h
      rfl
  | cons c types ih =>
      obtain ⟨token, b', output, rest, htoken, hstore, hrest, rfl⟩ := reads_cons.mp h
      rw [tvnpVdecode, htoken]
      simp only [Option.bind_eq_bind, Option.bind_some, hstore, ih hrest]

private theorem tvnpPickleToVaLoop_iff {types : List Char} {ap : List VaSlot} :
    tvnpPickleToVaLoop undefined indeterminate types b = some (some ap, final) ↔
      Reads indeterminate (vaSlot undefined) types b ap final := by
  induction types generalizing b ap with
  | nil =>
      rw [reads_nil, tvnpPickleToVaLoop]
      constructor
      · intro h
        cases h
        exact ⟨rfl, rfl⟩
      · rintro ⟨rfl, rfl⟩
        rfl
  | cons c types ih =>
      constructor
      · intro h
        obtain ⟨token, b', slot, rest, htoken, hslot, hrest, rfl⟩ := tvnpPickleToVaLoop_cases h
        exact reads_cons.mpr ⟨token, b', slot, rest, htoken, hslot, ih.mp hrest, rfl⟩
      · intro h
        obtain ⟨token, b', slot, rest, htoken, hslot, hrest, rfl⟩ := reads_cons.mp h
        rw [tvnpPickleToVaLoop, htoken]
        simp only [Option.bind_eq_bind, Option.bind_some, hslot, ih.mpr hrest, Option.map_some]

end Tokens

/-! ## The condition -/

section Condition

variable (undefined : Binary64 → Int) (indeterminate : TvnpToken)

def TvnpToken.IsNumber (token : TvnpToken) : Prop :=
  token.type = .tokenInteger ∨ token.type = .tokenFloat

def TvnpToken.number (token : TvnpToken) : Int64 :=
  Int64.ofInt ((token.toInteger undefined .int64).getD 0)

def TvnpToken.quad (token : TvnpToken) : VaOutput :=
  .integer .int64 ((token.toInteger undefined .int64).getD 0)

def CallAccepted (b : TvuBuffer) : Prop :=
  ∃ token b' fmt tokens final, tvnpDecodeToken indeterminate b = some (token, b') ∧
    token.type = .tokenUtf8String ∧ cString b'.data token.data = some fmt ∧
    readTokens indeterminate (tvnpFmtParse (fmt.map Char.ofUInt8)).1.length b' =
      some (tokens, final) ∧
    ∀ slot ∈ List.zipWith (vaSlot undefined) (tvnpFmtParse (fmt.map Char.ofUInt8)).1 tokens,
      slot.isSome = true

structure HeaderTokens where
  messageType : TvnpToken
  timestamp : TvnpToken
  user : TvnpToken
  session : TvnpToken
  transaction : TvnpToken
  service : TvnpToken
  severity : TvnpToken
  filename : TvnpToken
  lineno : TvnpToken

namespace HeaderTokens

variable (header : HeaderTokens)

def tokens : List TvnpToken :=
  [header.messageType, header.timestamp, header.user, header.session, header.transaction,
    header.service, header.severity, header.filename, header.lineno]

def Fits : Prop :=
  header.messageType.IsNumber ∧ header.timestamp.IsNumber ∧ header.user.IsNumber ∧
    header.session.IsNumber ∧ header.transaction.IsNumber ∧
    header.service.type = .tokenUtf8String ∧ header.severity.IsNumber ∧
    header.filename.type = .tokenUtf8String ∧ header.lineno.IsNumber

def outputs : List VaOutput :=
  [header.messageType.quad undefined, header.timestamp.quad undefined,
    header.user.quad undefined, header.session.quad undefined,
    header.transaction.quad undefined, .string header.service.data,
    header.severity.quad undefined, .string header.filename.data, header.lineno.quad undefined]

end HeaderTokens

/-- Nine tokens of a header, with a known severity, and a message if the type says so. -/
def PacketAccepted (b : TvuBuffer) : Prop :=
  ∃ (header : HeaderTokens) (message : TvuBuffer),
    readTokens indeterminate 9 b = some (header.tokens, message) ∧ header.Fits ∧
    (toEnum (header.severity.number undefined)).toNat ≤ 5 ∧
    (toEnum (header.messageType.number undefined) = toEnum tvnlMessageType →
      CallAccepted undefined indeterminate message)

/-- The iteration stays inside of its arrays and reads no local that it has not assigned. -/
def IterationSafe (lib : Formatters) (optionLogdir : List UInt8) (openFile : List UInt8 → Int)
    (files : Logfiles) (locals : Locals) (beyond : List UInt8) (b : TvuBuffer) : Prop :=
  ∃ run, iteration undefined indeterminate lib optionLogdir openFile files locals beyond
      (some b) = some (some run) ∧
    AssignedFirst [] run.accesses

end Condition

/-! ## Accesses -/

theorem AssignedFirst.assign_mem {known : List Variable} {accesses : List Access} {v : Variable}
    (h : AssignedFirst known accesses) (hread : Access.read v ∈ accesses) :
    v ∈ known ∨ Access.assign v ∈ accesses := by
  induction accesses generalizing known with
  | nil => simp at hread
  | cons access accesses ih =>
      cases access with
      | assign w =>
          have hmem : Access.read v ∈ accesses := by simpa using hread
          rcases ih h hmem with hknown | hassign
          · rcases List.mem_cons.mp hknown with rfl | hknown
            · exact .inr List.mem_cons_self
            · exact .inl hknown
          · exact .inr (List.mem_cons_of_mem _ hassign)
      | read w =>
          rcases List.mem_cons.mp hread with heq | hmem
          · cases heq
            exact .inl h.1
          · exact (ih h.2 hmem).imp_right (List.mem_cons_of_mem _)

theorem nine_le_of_lineno_mem {outputs : List VaOutput} {output : VaOutput}
    (h : (Variable.lineno, output) ∈ headerVariables.zip outputs) : 9 ≤ outputs.length := by
  obtain ⟨i, hi, hpair⟩ := List.mem_iff_getElem.mp h
  rw [List.getElem_zip, Prod.mk.injEq] at hpair
  rw [List.length_zip] at hi
  have hlength : headerVariables.length = 9 := rfl
  have hlt : i < 9 := by omega
  have hlast : i = 8 := by
    have hfirst := hpair.1
    interval_cases i <;> first | rfl | cases hfirst
  omega

section Iteration

variable {undefined : Binary64 → Int} {indeterminate : TvnpToken} {lib : Formatters}
  {b : TvuBuffer}

private theorem exists_map_some_iff {α : Type} {xs : List (Option α)} :
    (∃ ys : List α, xs = ys.map some) ↔ ∀ x ∈ xs, x.isSome = true := by
  induction xs with
  | nil => simp
  | cons x xs ih =>
      rw [List.forall_mem_cons, ← ih]
      constructor
      · rintro ⟨ys, hys⟩
        cases ys with
        | nil => simp at hys
        | cons y ys =>
            obtain ⟨rfl, rfl⟩ := List.cons.inj hys
            exact ⟨rfl, ys, rfl⟩
      · rintro ⟨hx, ys, rfl⟩
        obtain ⟨y, rfl⟩ := Option.isSome_iff_exists.mp hx
        exact ⟨y :: ys, rfl⟩

private theorem tvnpSnprintp_iff (lib : Formatters) (size : Nat) :
    (∃ text final, tvnpSnprintp undefined indeterminate lib.vsnprintf size b =
      some (some text, final)) ↔ CallAccepted undefined indeterminate b := by
  constructor
  · rintro ⟨text, final, h⟩
    simp only [tvnpSnprintp, Option.bind_eq_bind, Option.bind_eq_some_iff] at h
    obtain ⟨⟨call, final'⟩, hcall, h⟩ := h
    cases call with
    | none => cases h
    | some call =>
        obtain ⟨p, ap⟩ := call
        obtain ⟨token, b', fmt, htoken, htype, rfl, hfmt, hrun⟩ := tvnpPickleToVa_cases hcall
        obtain ⟨tokens, htokens, hslots⟩ := tvnpPickleToVaLoop_iff.mp hrun
        exact ⟨token, b', fmt, tokens, final', htoken, htype, hfmt, htokens,
          exists_map_some_iff.mp ⟨ap, hslots⟩⟩
  · rintro ⟨token, b', fmt, tokens, final, htoken, htype, hfmt, htokens, hslots⟩
    obtain ⟨ap, hap⟩ := exists_map_some_iff.mpr hslots
    have hrun := tvnpPickleToVaLoop_iff.mpr ⟨tokens, htokens, hap⟩
    obtain ⟨-, hdata, -⟩ := tvnpDecodeToken_some htoken (by simp [htype])
    have hcall : tvnpPickleToVa undefined indeterminate b =
        some (some (token.data, ap), final) := by
      simp only [tvnpPickleToVa, htoken, Option.bind_eq_bind, Option.bind_some, htype, hfmt, hrun,
        Option.map_some]
    rw [hdata] at hfmt
    refine ⟨snprintfStored size (lib.vsnprintf fmt ap b.data), final, ?_⟩
    simp only [tvnpSnprintp, hcall, hfmt, Option.bind_eq_bind, Option.bind_some]

theorem formatMessage_cases {locals locals' : Locals} {severityS severityS' : List UInt8}
    {accesses : List Access}
    (h : formatMessage undefined indeterminate lib locals severityS b =
      some (locals', severityS', accesses)) :
    locals'.severity = locals.severity ∧
      (toEnum locals.messageType = toEnum tvnlMessageType ∧
          ((accesses = [.assign .messageS] ∧ CallAccepted undefined indeterminate b) ∨
            accesses = []) ∨
        toEnum locals.messageType ≠ toEnum tvnlMessageType ∧
          accesses = [.read .messageType, .assign .messageS]) := by
  unfold formatMessage at h
  split at h
  next htype =>
    obtain ⟨⟨text, final⟩, htext, h⟩ := Option.bind_eq_some_iff.mp h
    cases text with
    | none =>
        cases h
        exact ⟨rfl, .inl ⟨htype, .inr rfl⟩⟩
    | some text =>
        cases h
        exact ⟨rfl, .inl ⟨htype, .inl ⟨rfl, (tvnpSnprintp_iff lib 256).mp ⟨text, final, htext⟩⟩⟩⟩
  next htype =>
    cases h
    exact ⟨rfl, .inr ⟨htype, rfl⟩⟩

private theorem formatMessage_assigns (lib : Formatters) (locals : Locals) (severityS : List UInt8)
    (h : toEnum locals.messageType = toEnum tvnlMessageType →
      CallAccepted undefined indeterminate b) :
    ∃ locals' severityS' accesses,
      formatMessage undefined indeterminate lib locals severityS b =
        some (locals', severityS', accesses) ∧
      locals'.severity = locals.severity ∧
      (accesses = [.assign .messageS] ∨ accesses = [.read .messageType, .assign .messageS]) := by
  unfold formatMessage
  split
  next htype =>
    obtain ⟨text, final, htext⟩ := (tvnpSnprintp_iff lib 256).mpr (h htype)
    refine ⟨{ locals with messageS := text }, severityS, _, ?_, rfl, .inl rfl⟩
    rw [htext]
    rfl
  next => exact ⟨_, _, _, rfl, rfl, .inr rfl⟩

/-! ## The header -/

private theorem readTokens_length {n : Nat} {tokens : List TvnpToken} {final : TvuBuffer}
    (h : readTokens indeterminate n b = some (tokens, final)) : tokens.length = n := by
  induction n generalizing b tokens with
  | zero =>
      cases h
      rfl
  | succ n ih =>
      simp only [readTokens, Option.bind_eq_bind, Option.bind_eq_some_iff] at h
      obtain ⟨⟨token, b'⟩, -, ⟨rest, final'⟩, hrest, h⟩ := h
      cases h
      rw [List.length_cons, ih hrest]

private theorem vaStore_quad_iff {token : TvnpToken} {output : VaOutput} :
    vaStore undefined 'q' token = some output ↔
      token.IsNumber ∧ output = token.quad undefined := by
  cases htype : token.type with
  | tokenInteger | tokenFloat =>
      simp [vaStore, integerLetter, TvnpToken.IsNumber, TvnpToken.quad,
        TvnpToken.toInteger, htype, eq_comm]
  | _ => simp [vaStore, integerLetter, TvnpToken.IsNumber, TvnpToken.quad,
        TvnpToken.toInteger, htype]

private theorem vaStore_string_iff {token : TvnpToken} {output : VaOutput} :
    vaStore undefined 's' token = some output ↔
      token.type = .tokenUtf8String ∧ output = .string token.data := by
  cases htype : token.type with
  | tokenUtf8String => simp [vaStore, integerLetter, htype, eq_comm]
  | _ => simp [vaStore, integerLetter, htype]

private theorem header_stores_iff {tokens : List TvnpToken} {outputs : List VaOutput}
    (hlength : tokens.length = 9) :
    List.zipWith (vaStore undefined) headerTypes tokens = outputs.map some ↔
      ∃ header : HeaderTokens, tokens = header.tokens ∧ header.Fits ∧
        outputs = header.outputs undefined := by
  constructor
  · intro h
    have houtputs : outputs.length = 9 := by
      have hcount := congrArg List.length h
      rw [List.length_zipWith, hlength, List.length_map] at hcount
      exact hcount.symm
    match tokens, outputs, hlength, houtputs with
    | [t1, t2, t3, t4, t5, t6, t7, t8, t9], [o1, o2, o3, o4, o5, o6, o7, o8, o9], _, _ =>
      simp only [headerTypes, List.zipWith_cons_cons, List.zipWith_nil_left, List.map_cons,
        List.map_nil, List.cons.injEq, vaStore_quad_iff, vaStore_string_iff] at h
      obtain ⟨⟨h1, rfl⟩, ⟨h2, rfl⟩, ⟨h3, rfl⟩, ⟨h4, rfl⟩, ⟨h5, rfl⟩, ⟨h6, rfl⟩, ⟨h7, rfl⟩,
        ⟨h8, rfl⟩, ⟨h9, rfl⟩, -⟩ := h
      exact ⟨⟨t1, t2, t3, t4, t5, t6, t7, t8, t9⟩, rfl, ⟨h1, h2, h3, h4, h5, h6, h7, h8, h9⟩,
        rfl⟩
  · rintro ⟨header, rfl, ⟨h1, h2, h3, h4, h5, h6, h7, h8, h9⟩, rfl⟩
    simp [headerTypes, HeaderTokens.tokens, HeaderTokens.outputs, vaStore_quad_iff,
      vaStore_string_iff, h1, h2, h3, h4, h5, h6, h7, h8, h9]

/-! ## The iteration -/

def iterationAccesses (outputs : List VaOutput) (accesses : List Access) : List Access :=
  (headerVariables.zip outputs).map (fun (v, _) => Access.assign v) ++
    ([.read .timestamp, .read .user, .read .session, .read .transaction, .read .severity,
      .read .messageType] : List Access) ++ accesses ++
    ([.read .service, .read .filename, .read .lineno, .read .messageS, .read .timestamp,
      .read .severity] : List Access)

structure IterationRun.Formats (run : IterationRun) (line : List UInt8) : Prop where
  stored : run.loglineS = snprintfStored 256 line
  len_eq : run.loglineLen = line.length

variable (optionLogdir beyond : List UInt8) (openFile : List UInt8 → Int) (files : Logfiles)

theorem iteration_cases {locals : Locals} {run : IterationRun}
    (h : iteration undefined indeterminate lib optionLogdir openFile files locals beyond
      (some b) = some (some run)) :
    ∃ ret outputs message decoded locals' severityS accesses,
      tvnpVdecode undefined indeterminate headerTypes b = some (ret, outputs, message) ∧
      decoded = (headerVariables.zip outputs).foldl Locals.assign locals ∧
      formatMessage undefined indeterminate lib decoded
        (severityText (toEnum decoded.severity)) message = some (locals', severityS, accesses) ∧
      (toEnum locals'.severity).toNat ≤ 5 ∧
      run.accesses = iterationAccesses outputs accesses ∧
      run.Formats (loglineText lib locals' severityS message.data beyond) := by
  simp only [iteration, Option.bind_eq_bind, Option.bind_eq_some_iff] at h
  obtain ⟨⟨ret, outputs, message⟩, hdecode, ⟨locals', severityS, accesses⟩, hformat, logfile,
    hlogfile, h⟩ := h
  cases h
  exact ⟨ret, outputs, message, _, locals', severityS, accesses, hdecode, rfl, hformat,
    (openLogfile_isSome_iff ..).mp (Option.isSome_of_eq_some hlogfile), rfl,
    by constructor <;> dsimp only⟩

theorem iteration_of_formatMessage {locals locals' : Locals} {ret : Int}
    {outputs : List VaOutput} {message : TvuBuffer} {severityS : List UInt8}
    {accesses : List Access}
    (hdecode : tvnpVdecode undefined indeterminate headerTypes b = some (ret, outputs, message))
    (hformat : formatMessage undefined indeterminate lib
      ((headerVariables.zip outputs).foldl Locals.assign locals)
      (severityText (toEnum
        ((headerVariables.zip outputs).foldl Locals.assign locals).severity)) message =
        some (locals', severityS, accesses))
    (hseverity : (toEnum locals'.severity).toNat ≤ 5) :
    ∃ run, iteration undefined indeterminate lib optionLogdir openFile files locals beyond
        (some b) = some (some run) ∧
      run.accesses = iterationAccesses outputs accesses ∧
      run.Formats (loglineText lib locals' severityS message.data beyond) := by
  obtain ⟨logfile, hlogfile⟩ := Option.isSome_iff_exists.mp
    ((openLogfile_isSome_iff lib.tvuFmtShortdate optionLogdir openFile files
      locals'.timestamp _).mpr hseverity)
  simp only [iteration, hdecode, hformat, hlogfile, Option.bind_eq_bind, Option.bind_some,
    Option.some.injEq, exists_eq_left']
  exact ⟨rfl, by constructor <;> dsimp only⟩

variable {optionLogdir beyond openFile files} {locals : Locals}

private theorem packetAccepted_of_safe
    (h : IterationSafe undefined indeterminate lib optionLogdir openFile files locals beyond b) :
    PacketAccepted undefined indeterminate b := by
  obtain ⟨run, hrun, hsafe⟩ := h
  obtain ⟨ret, outputs, message, _, locals', severityS, accesses, hdecode, rfl, hformat,
    hseverity, haccesses, -⟩ := iteration_cases _ _ _ _ hrun
  obtain ⟨hsame, hmessage⟩ := formatMessage_cases hformat
  obtain ⟨hle, hall⟩ := tvnpVdecode_outputs hdecode
  rw [haccesses, iterationAccesses] at hsafe
  have hassigned (v : Variable) (hread : v = .lineno ∨ v = .messageS) :
      (∃ output, (v, output) ∈ headerVariables.zip outputs) ∨ Access.assign v ∈ accesses := by
    have hmem := hsafe.assign_mem (v := v) (by rcases hread with rfl | rfl <;> simp)
    simpa using hmem
  have hnine : outputs.length = 9 := by
    rcases hassigned .lineno (.inl rfl) with ⟨output, houtput⟩ | hassign
    · exact le_antisymm hle (nine_le_of_lineno_mem houtput)
    · rcases hmessage with ⟨-, ⟨rfl, -⟩ | rfl⟩ | ⟨-, rfl⟩ <;> simp at hassign
  obtain ⟨tokens, htokens, hstores⟩ := hall hnine
  obtain ⟨header, rfl, hfits, rfl⟩ := (header_stores_iff (readTokens_length htokens)).mp hstores
  refine ⟨header, message, htokens, hfits, ?_, fun htype => ?_⟩
  · rw [hsame] at hseverity
    exact hseverity
  · rcases hassigned .messageS (.inr rfl) with ⟨output, houtput⟩ | hassign
    · exact absurd (List.of_mem_zip houtput).1 (by decide)
    · rcases hmessage with ⟨-, ⟨-, haccepted⟩ | rfl⟩ | ⟨hother, -⟩
      · exact haccepted
      · simp at hassign
      · exact absurd htype hother

private theorem safe_of_packetAccepted (h : PacketAccepted undefined indeterminate b) :
    IterationSafe undefined indeterminate lib optionLogdir openFile files locals beyond b := by
  obtain ⟨header, message, htokens, hfits, hseverity, hmessage⟩ := h
  have hstores := (header_stores_iff (readTokens_length htokens)).mpr
    ⟨header, rfl, hfits, Eq.refl (header.outputs undefined)⟩
  have hdecode := tvnpVdecode_of_tokens ⟨header.tokens, htokens, hstores⟩
  obtain ⟨locals', severityS, accesses, hformat, hsame, haccesses⟩ :=
    formatMessage_assigns lib
      ((headerVariables.zip (header.outputs undefined)).foldl Locals.assign locals)
      (severityText (toEnum (header.severity.number undefined))) hmessage
  obtain ⟨run, hrun, hrunAccesses, -⟩ := iteration_of_formatMessage optionLogdir beyond openFile
    files hdecode hformat (by rw [hsame]; exact hseverity)
  refine ⟨run, hrun, ?_⟩
  rw [hrunAccesses]
  rcases haccesses with rfl | rfl <;>
    simp [iterationAccesses, headerVariables, HeaderTokens.outputs, AssignedFirst]

variable (undefined indeterminate lib b optionLogdir beyond openFile files locals)

theorem iterationSafe_iff :
    IterationSafe undefined indeterminate lib optionLogdir openFile files locals beyond b ↔
      PacketAccepted undefined indeterminate b :=
  ⟨packetAccepted_of_safe, safe_of_packetAccepted⟩

end Iteration

/-! ## Packets that any process may write -/

def emptyPacket : TvuBuffer := ⟨[], 0, TvuBuffer.nil_length_lt, TvuBuffer.start_lt⟩

def unknownSeverityPacket : TvuBuffer :=
  ⟨[1, 0, 0, 0, 0, 0x80, 0, 6, 0x80, 0, 0], 0, by decide, TvuBuffer.start_lt⟩

def noFormatters : Formatters := ⟨fun _ => [], fun _ => [], fun _ => [], fun _ _ _ => []⟩

def FirstIterationSafe (b : TvuBuffer) : Prop :=
  IterationSafe (fun _ => 0) ⟨.tokenEnd, 0, 0⟩ noFormatters [] (fun _ => 3) Logfiles.start
    ⟨0, 0, 0, 0, 0, 0, 0, 0, 0, []⟩ [] b

theorem not_firstIterationSafe_packets :
    ¬ FirstIterationSafe emptyPacket ∧ ¬ FirstIterationSafe unknownSeverityPacket := by
  constructor
  · intro h
    obtain ⟨header, message, htokens, hfits, -⟩ := packetAccepted_of_safe h
    have hread : (readTokens ⟨.tokenEnd, 0, 0⟩ 9 emptyPacket).map (fun read =>
        read.1.head?) = some (some ⟨.tokenEnd, 0, 0⟩) := by
      decide
    rw [htokens] at hread
    have hfirst : header.messageType = ⟨.tokenEnd, 0, 0⟩ := by
      simpa [HeaderTokens.tokens] using hread
    have hnumber := hfits.1
    simp [TvnpToken.IsNumber, hfirst] at hnumber
  · intro h
    obtain ⟨header, message, htokens, hfits, hseverity, -⟩ := packetAccepted_of_safe h
    have hread : (readTokens ⟨.tokenEnd, 0, 0⟩ 9 unknownSeverityPacket).map (fun read =>
        read.1[6]?) = some (some ⟨.tokenInteger, 6, 0⟩) := by
      decide
    rw [htokens] at hread
    have hseventh : header.severity = ⟨.tokenInteger, 6, 0⟩ := by
      simpa [HeaderTokens.tokens] using hread
    rw [hseventh] at hseverity
    exact absurd hseverity (by decide)

end Libtvnet
