import Libtvnet.Logfile

/-!
# Log files over many calls

`logfile_date` says for which day a descriptor was opened.  No call stores a
date in it, so each call finds the empty date of the start, closes what it has
and opens the file once more.  The lines still end up in the right file.
-/

namespace Libtvnet

structure OpenCall where
  timestamp : Int64
  severity : TvnlSeverity
  known : severity.toNat ≤ 5
  opened : Int

/-- The globals, and the descriptors that are open on log files, with their names. -/
structure LogServer where
  files : Logfiles
  opened : List (Int × List UInt8)

def FileCall.run (answer : Int) (opened : List (Int × List UInt8)) :
    FileCall → List (Int × List UInt8)
  | .close fd => opened.filter fun descriptor => descriptor.1 ≠ fd
  | .openFile filename => if answer = -1 then opened else (answer, filename) :: opened

def logfileName (optionLogdir : List UInt8) (severity : TvnlSeverity) (dateS : List UInt8) :
    List UInt8 :=
  optionLogdir ++ ascii ['/'] ++ (logfileType severity).2 ++ ascii ['-'] ++ dateS ++
    ascii ['.', 'l', 'o', 'g']

def LogServer.start : LogServer := ⟨.start, []⟩

section Calls

variable (tvuFmtShortdate : Int64 → List UInt8) (optionLogdir : List UInt8)

def OpenCall.date (call : OpenCall) : List UInt8 := tvuFmtShortdate call.timestamp

def LogServer.call (s : LogServer) (call : OpenCall) : Option (LogfileRun × LogServer) :=
  (openLogfile tvuFmtShortdate optionLogdir (fun _ => call.opened) s.files call.timestamp
    call.severity).map fun run =>
      (run, ⟨run.files, run.calls.foldl (FileCall.run call.opened) s.opened⟩)

/-! ## The property -/

structure RightFile (s : LogServer) (call : OpenCall) (fd : Int) : Prop where
  opened : (fd, logfileName optionLogdir call.severity (call.date tvuFmtShortdate)) ∈ s.opened
  single : ∀ severity dateS dateS' fd fd', severity.toNat ≤ 5 →
    (fd, logfileName optionLogdir severity dateS) ∈ s.opened →
    (fd', logfileName optionLogdir severity dateS') ∈ s.opened → fd = fd'

/-- `earlier` are the calls before this one, the last one first. -/
structure CallConsistent (earlier : List OpenCall) (call : OpenCall) (run : LogfileRun)
    (s : LogServer) (fd : Int) : Prop where
  file : RightFile tvuFmtShortdate optionLogdir s call fd
  recorded : s.files.logfileDate[(logfileType call.severity).1]? =
    some (call.date tvuFmtShortdate)
  needed : ∀ filename, .openFile filename ∈ run.calls → ∀ previous,
    (earlier.find? fun previous =>
      (logfileType previous.severity).1 = (logfileType call.severity).1) = some previous →
    previous.date tvuFmtShortdate ≠ call.date tvuFmtShortdate

/-- Each call of the sequence that returns; a call that aborts ends it. -/
def CacheConsistent (earlier : List OpenCall) (s : LogServer) : List OpenCall → Prop
  | [] => True
  | call :: calls => ∀ run s' fd, s.call tvuFmtShortdate optionLogdir call = some (run, s') →
      run.ret = some fd → CallConsistent tvuFmtShortdate optionLogdir earlier call run s' fd ∧
        CacheConsistent (call :: earlier) s' calls

/-! ## What a call does -/

theorem openLogfile_cases {openFile : List UInt8 → Int} {files : Logfiles} {timestamp : Int64}
    {severity : TvnlSeverity} {run : LogfileRun} {fd : Int}
    (h : openLogfile tvuFmtShortdate optionLogdir openFile files timestamp severity = some run)
    (hret : run.ret = some fd) :
    (files.logfileDate[(logfileType severity).1]? = some (tvuFmtShortdate timestamp) ∧
      files.logfileFd[(logfileType severity).1]? = some fd ∧ run = ⟨some fd, files, []⟩) ∨
    ∃ old, files.logfileFd[(logfileType severity).1]? = some old ∧
      files.logfileDate[(logfileType severity).1]? ≠ some (tvuFmtShortdate timestamp) ∧
      fd = openFile (logfileName optionLogdir severity (tvuFmtShortdate timestamp)) ∧ fd ≠ -1 ∧
      run = ⟨some fd,
        { files with logfileFd := files.logfileFd.setIfInBounds (logfileType severity).1 fd },
        (if old = -1 then [] else [.close old]) ++
          [.openFile (logfileName optionLogdir severity (tvuFmtShortdate timestamp))]⟩ := by
  simp only [openLogfile, Option.bind_eq_bind, Option.bind_eq_some_iff] at h
  obtain ⟨date, hdate, old, hold, h⟩ := h
  split at h
  case isTrue hsame =>
    cases h
    cases hret
    exact .inl ⟨hsame ▸ hdate, hold, rfl⟩
  case isFalse hdiffers =>
    split at h
    case isTrue =>
      cases h
      cases hret
    case isFalse hopened =>
      cases h
      cases hret
      refine .inr ⟨old, hold, ?_, rfl, hopened, rfl⟩
      rw [hdate]
      exact fun heq => hdiffers (Option.some.inj heq)

variable {tvuFmtShortdate optionLogdir}

theorem LogServer.call_cases {s s' : LogServer} {call : OpenCall} {run : LogfileRun} {fd : Int}
    (h : s.call tvuFmtShortdate optionLogdir call = some (run, s')) (hret : run.ret = some fd) :
    (s.files.logfileDate[(logfileType call.severity).1]? = some (call.date tvuFmtShortdate) ∧
      s.files.logfileFd[(logfileType call.severity).1]? = some fd ∧ s' = s) ∨
    ∃ old, s.files.logfileFd[(logfileType call.severity).1]? = some old ∧
      s.files.logfileDate[(logfileType call.severity).1]? ≠ some (call.date tvuFmtShortdate) ∧
      fd = call.opened ∧ fd ≠ -1 ∧ s'.files.logfileDate = s.files.logfileDate ∧
      s'.files.logfileFd = s.files.logfileFd.setIfInBounds (logfileType call.severity).1 fd ∧
      s'.opened = (fd, logfileName optionLogdir call.severity (call.date tvuFmtShortdate)) ::
        if old = -1 then s.opened else s.opened.filter fun descriptor => descriptor.1 ≠ old := by
  obtain ⟨run', hrun, hpair⟩ := Option.map_eq_some_iff.mp h
  obtain ⟨rfl, rfl⟩ := Prod.mk.inj hpair
  rcases openLogfile_cases tvuFmtShortdate optionLogdir hrun hret with
    ⟨hdate, hfd, rfl⟩ | ⟨old, hold, hdiffers, hfd, hopened, rfl⟩
  · exact .inl ⟨hdate, hfd, rfl⟩
  · refine .inr ⟨old, hold, hdiffers, hfd, hopened, rfl, rfl, ?_⟩
    have hanswer : call.opened ≠ -1 := by
      rw [← hfd]
      exact hopened
    by_cases hnone : old = -1
    · simp only [hnone, if_true, List.nil_append, List.foldl_cons, List.foldl_nil, FileCall.run,
        if_neg hanswer, hfd, OpenCall.date]
    · simp only [hnone, if_false, List.cons_append, List.nil_append, List.foldl_cons,
        List.foldl_nil, FileCall.run, if_neg hanswer, hfd, OpenCall.date]

theorem LogServer.call_logfileDate {s s' : LogServer} {call : OpenCall} {run : LogfileRun}
    {fd : Int} (h : s.call tvuFmtShortdate optionLogdir call = some (run, s'))
    (hret : run.ret = some fd) : s'.files.logfileDate = s.files.logfileDate := by
  rcases LogServer.call_cases h hret with ⟨-, -, rfl⟩ | ⟨old, -, -, -, -, hdate, -⟩
  · rfl
  · exact hdate

/-! ## The cache -/

theorem start_logfileDate {fileType : Nat} {date : List UInt8}
    (h : LogServer.start.files.logfileDate[fileType]? = some date) : date = [] := by
  obtain ⟨hindex, hdate⟩ := Vector.getElem?_eq_some_iff.mp h
  rw [← hdate]
  interval_cases fileType <;> rfl

theorem not_callConsistent_start {call : OpenCall} {run : LogfileRun} {s' : LogServer} {fd : Int}
    (h : LogServer.start.call tvuFmtShortdate optionLogdir call = some (run, s'))
    (hret : run.ret = some fd) :
    ¬ CallConsistent tvuFmtShortdate optionLogdir [] call run s' fd := by
  intro hconsistent
  rcases LogServer.call_cases h hret with ⟨-, -, rfl⟩ | ⟨old, -, hdiffers, -, -, hdate, -⟩
  · exact absurd hconsistent.file.opened List.not_mem_nil
  · have hrecorded := hconsistent.recorded
    rw [hdate] at hrecorded
    exact hdiffers hrecorded

variable (tvuFmtShortdate optionLogdir) in
theorem call_start {call : OpenCall}
    (h : ¬ (call.date tvuFmtShortdate ≠ [] ∧ call.opened = -1)) :
    ∃ run s' fd, LogServer.start.call tvuFmtShortdate optionLogdir call = some (run, s') ∧
      run.ret = some fd := by
  have hindex : (logfileType call.severity).1 < 4 :=
    (logfileType_lt_iff call.severity).mpr call.known
  have hdate := start_logfileDate (Vector.getElem?_eq_getElem hindex)
  unfold LogServer.call openLogfile
  simp only [Vector.getElem?_eq_getElem hindex, Option.bind_eq_bind, Option.bind_some, hdate]
  by_cases hempty : [] = tvuFmtShortdate call.timestamp
  · simp only [if_pos hempty]
    exact ⟨_, _, _, rfl, rfl⟩
  · have hopened : call.opened ≠ -1 := fun hfails => h ⟨fun heq => hempty heq.symm, hfails⟩
    simp only [if_neg hempty, if_neg hopened]
    exact ⟨_, _, _, rfl, rfl⟩

/-- The cache is consistent only as long as no call has returned. -/
theorem cacheConsistent_iff (calls : List OpenCall) :
    CacheConsistent tvuFmtShortdate optionLogdir [] .start calls ↔
      ∀ call ∈ calls.head?, call.date tvuFmtShortdate ≠ [] ∧ call.opened = -1 := by
  cases calls with
  | nil => simp [CacheConsistent]
  | cons call calls =>
      simp only [List.head?_cons, Option.mem_def, Option.some.injEq, forall_eq']
      constructor
      · intro hconsistent
        by_contra hreturns
        obtain ⟨run, s', fd, hcall, hret⟩ := call_start tvuFmtShortdate optionLogdir hreturns
        exact not_callConsistent_start hcall hret (hconsistent run s' fd hcall hret).1
      · rintro ⟨hdate, hfails⟩ run s' fd hcall hret
        rcases LogServer.call_cases hcall hret with ⟨hempty, -⟩ | ⟨old, -, -, hfd, hopened, -⟩
        · exact absurd (start_logfileDate hempty) hdate
        · exact absurd (hfd.trans hfails) hopened

/-! ## The descriptors -/

structure Descriptors (optionLogdir : List UInt8) (s : LogServer) : Prop where
  recorded : ∀ descriptor ∈ s.opened, ∃ severity dateS, severity.toNat ≤ 5 ∧
    descriptor.2 = logfileName optionLogdir severity dateS ∧
      s.files.logfileFd[(logfileType severity).1]? = some descriptor.1
  valid : ∀ descriptor ∈ s.opened, descriptor.1 ≠ -1

private theorem descriptors_start (optionLogdir : List UInt8) :
    Descriptors optionLogdir .start where
  recorded := by simp [LogServer.start]
  valid := by simp [LogServer.start]

private theorem logfileType_known {severity : TvnlSeverity} (h : severity.toNat ≤ 5) :
    logfileType severity = (0, ascii ['e', 'r', 'r', 'o', 'r']) ∨
      logfileType severity = (1, ascii ['a', 'u', 'd', 'i', 't']) ∨
      logfileType severity = (2, ascii ['d', 'e', 'b', 'u', 'g']) := by
  have hlt := (logfileType_lt_iff severity).mpr h
  unfold logfileType at hlt ⊢
  split
  all_goals simp_all

private theorem logfileType_of_logfileName {severity severity' : TvnlSeverity}
    {dateS dateS' : List UInt8} (hknown : severity.toNat ≤ 5) (hknown' : severity'.toNat ≤ 5)
    (h : logfileName optionLogdir severity dateS = logfileName optionLogdir severity' dateS') :
    logfileType severity = logfileType severity' := by
  simp only [logfileName, List.append_assoc] at h
  have hname := List.append_cancel_left (List.append_cancel_left h)
  rcases logfileType_known hknown with htype | htype | htype <;>
    rcases logfileType_known hknown' with htype' | htype' | htype' <;>
    rw [htype, htype'] at hname ⊢
  -- The three names differ in their first letter.
  all_goals exact absurd (List.cons.inj hname).1 (by decide)

theorem LogServer.call_descriptors {s s' : LogServer} {call : OpenCall} {run : LogfileRun}
    {fd : Int} (hinv : Descriptors optionLogdir s)
    (h : s.call tvuFmtShortdate optionLogdir call = some (run, s')) (hret : run.ret = some fd) :
    Descriptors optionLogdir s' := by
  rcases LogServer.call_cases h hret with
    ⟨-, -, rfl⟩ | ⟨old, hold, -, -, hopened, -, hfds, hdescriptors⟩
  · exact hinv
  · have hkept : ∀ descriptor ∈ s'.opened,
        descriptor = (fd, logfileName optionLogdir call.severity (call.date tvuFmtShortdate)) ∨
          (descriptor ∈ s.opened ∧ descriptor.1 ≠ old) := by
      intro descriptor hmem
      rw [hdescriptors, List.mem_cons] at hmem
      refine hmem.imp_right fun hrest => ?_
      split at hrest
      case isTrue hnone => exact ⟨hrest, hnone ▸ hinv.valid descriptor hrest⟩
      case isFalse => simpa using hrest
    have hindex : (logfileType call.severity).1 < 4 :=
      (logfileType_lt_iff call.severity).mpr call.known
    constructor
    · intro descriptor hmem
      rw [hfds]
      rcases hkept descriptor hmem with rfl | ⟨hmem, hdiffers⟩
      · exact ⟨call.severity, _, call.known, rfl, Vector.getElem?_setIfInBounds_self_of_lt hindex⟩
      · obtain ⟨severity, dateS, hknown, hname, hrecorded⟩ := hinv.recorded descriptor hmem
        refine ⟨severity, dateS, hknown, hname, ?_⟩
        have hother : (logfileType call.severity).1 ≠ (logfileType severity).1 := by
          intro heq
          rw [heq, hrecorded] at hold
          exact hdiffers (Option.some.inj hold)
        rw [Vector.getElem?_setIfInBounds_ne hother]
        exact hrecorded
    · intro descriptor hmem
      rcases hkept descriptor hmem with rfl | ⟨hmem, -⟩
      · exact hopened
      · exact hinv.valid descriptor hmem

theorem Descriptors.single {s : LogServer} (hinv : Descriptors optionLogdir s)
    {severity : TvnlSeverity} (hknown : severity.toNat ≤ 5) {dateS dateS' : List UInt8}
    {fd fd' : Int} (hfd : (fd, logfileName optionLogdir severity dateS) ∈ s.opened)
    (hfd' : (fd', logfileName optionLogdir severity dateS') ∈ s.opened) : fd = fd' := by
  obtain ⟨first, _, hfirst, hname, hrecorded⟩ := hinv.recorded _ hfd
  obtain ⟨second, _, hsecond, hname', hrecorded'⟩ := hinv.recorded _ hfd'
  rw [← logfileType_of_logfileName hknown hfirst hname] at hrecorded
  rw [← logfileType_of_logfileName hknown hsecond hname', hrecorded] at hrecorded'
  exact Option.some.inj hrecorded'

variable (tvuFmtShortdate optionLogdir) in
/-- The part of the property that a forgotten date leaves alone. -/
def RightFiles (s : LogServer) : List OpenCall → Prop
  | [] => True
  | call :: calls => ∀ run s' fd, s.call tvuFmtShortdate optionLogdir call = some (run, s') →
      run.ret = some fd → RightFile tvuFmtShortdate optionLogdir s' call fd ∧ RightFiles s' calls

private theorem rightFiles_of_descriptors (hdates : ∀ timestamp, tvuFmtShortdate timestamp ≠ [])
    {s : LogServer} (hinv : Descriptors optionLogdir s)
    (hstart : s.files.logfileDate = LogServer.start.files.logfileDate) (calls : List OpenCall) :
    RightFiles tvuFmtShortdate optionLogdir s calls := by
  induction calls generalizing s with
  | nil => trivial
  | cons call calls ih =>
      intro run s' fd hcall hret
      have hinv' := LogServer.call_descriptors hinv hcall hret
      refine ⟨⟨?_, fun severity dateS dateS' fd fd' hknown => hinv'.single hknown⟩,
        ih hinv' ((LogServer.call_logfileDate hcall hret).trans hstart)⟩
      rcases LogServer.call_cases hcall hret with ⟨hdate, -⟩ | ⟨old, -, -, -, -, -, -, hopened⟩
      · rw [hstart] at hdate
        exact absurd (start_logfileDate hdate) (hdates call.timestamp)
      · rw [hopened]
        exact List.mem_cons_self

theorem rightFiles_start (hdates : ∀ timestamp, tvuFmtShortdate timestamp ≠ [])
    (calls : List OpenCall) : RightFiles tvuFmtShortdate optionLogdir .start calls :=
  rightFiles_of_descriptors hdates (descriptors_start optionLogdir) rfl calls

end Calls

/-! ## Two lines of one day -/

def leapDay : Int64 → List UInt8 := fun _ => ascii ['2', '0', '1', '2', '0', '2', '2', '9']

def infoCall : OpenCall := ⟨0, 4, by decide, 3⟩

/-- The second call closes the descriptor of the first and opens its file again. -/
theorem not_cacheConsistent_sameDay :
    ((LogServer.start.call leapDay [] infoCall).bind fun first =>
      (first.2.call leapDay [] infoCall).map fun second => second.1.calls.length) = some 2 ∧
      ¬ CacheConsistent leapDay [] [] .start [infoCall, infoCall] := by
  refine ⟨by decide, fun hconsistent => ?_⟩
  obtain ⟨run, s', fd, hcall, hret⟩ :=
    call_start leapDay [] fun hfails : infoCall.date leapDay ≠ [] ∧ (3 : Int) = -1 =>
      absurd hfails.2 (by decide)
  exact not_callConsistent_start hcall hret (hconsistent run s' fd hcall hret).1

end Libtvnet
