import Libtvnet.TvlogMain

/-!
# `tvlogd/main.c`

The options of the log server.  The case of `-k` runs on into the one of `-l`
and leaves no directory, but a server that is started has one.
-/

namespace Libtvnet

/-! ## The program -/

structure GetoptResult where
  c : Char
  optarg : Option CString

def GetoptResult.Declared (result : GetoptResult) : Prop :=
  result.optarg.isSome = true ↔ result.c = 'l' ∨ result.c = 'p'

structure TvlogdOptions where
  logdir : Option CString
  pidfile : Option CString
  usage : Bool
  verbose : Bool
  foreground : Bool
  kill : Bool

private theorem nul_notMem_defaults :
    0 ∉ ascii "/var/log/tvlog".toList ∧ 0 ∉ ascii "/var/run/tvlogd.pid".toList := by decide

def defaultLogdir : CString := ⟨_, nul_notMem_defaults.1⟩

def defaultPidfile : CString := ⟨_, nul_notMem_defaults.2⟩

def TvlogdOptions.start : TvlogdOptions :=
  ⟨some defaultLogdir, some defaultPidfile, false, false, false, false⟩

def tvlogdOption (options : TvlogdOptions) (result : GetoptResult) : TvlogdOptions :=
  match result.c with
  | 'h' => { options with usage := true }
  | 'v' => { options with verbose := true }
  | 'f' => { options with foreground := true }
  -- there is no `break` behind this case
  | 'k' => { options with kill := true, logdir := result.optarg }
  | 'l' => { options with logdir := result.optarg }
  | 'p' => { options with pidfile := result.optarg }
  | ':' => { options with usage := true }
  | '?' => { options with usage := true }
  | '\x00' => options
  | _ => { options with usage := true }

def tvlogdParseOptions (results : List GetoptResult) (operands : List CString) : TvlogdOptions :=
  let options := results.foldl tvlogdOption .start
  if 0 < operands.length then { options with usage := true } else options

/-- Where `main` ends: with the text of `usage`, with a process killed, or behind `loop`. -/
inductive TvlogdRun where
  | usage (logdir pidfile : Option CString)
  | killed (pidfile : Option CString) (oldPid : Int)
  | notDaemonized (pidfile : Option CString)
  | looped (daemonized : Bool) (logdir : Option CString)

def tvlogdMain (tvuDaemonKill tvuDaemon : Option CString → Int) (results : List GetoptResult)
    (operands : List CString) : TvlogdRun × Int :=
  let options := tvlogdParseOptions results operands
  if options.usage then (.usage options.logdir options.pidfile, 0)
  else if options.kill then
    let oldPid := tvuDaemonKill options.pidfile
    (.killed options.pidfile oldPid, if oldPid = -1 then 1 else 0)
  else if !options.foreground then
    if tvuDaemon options.pidfile = -1 then (.notDaemonized options.pidfile, 2)
    else (.looped true options.logdir, 0)
  else (.looped false options.logdir, 0)

/-! ## The options of a command line -/

private theorem foldl_setting {State Element Value : Type} {step : State → Element → State}
    {value : State → Value} {sets : Element → Bool} {new : Element → Value}
    (hstep : ∀ s e, value (step s e) = if sets e then new e else value s)
    (elements : List Element) (s : State) :
    value (elements.foldl step s) =
      ((elements.filter sets).getLast?.map new).getD (value s) := by
  induction elements using List.reverseRecOn with
  | nil => simp
  | append_singleton elements e ih =>
      rw [List.foldl_append, List.foldl_cons, List.foldl_nil, hstep, ih, List.filter_append]
      cases hsets : sets e <;> simp [hsets]

def lastArgument (c : Char) (initial : CString) (results : List GetoptResult) : CString :=
  ((results.filter (·.c == c)).getLast?.bind (·.optarg)).getD initial

private theorem lastArgument_eq {c : Char} (hc : c = 'l' ∨ c = 'p') (initial : CString)
    {results : List GetoptResult} (hdeclared : ∀ result ∈ results, result.Declared) :
    ((results.filter (·.c == c)).getLast?.map (·.optarg)).getD (some initial) =
      some (lastArgument c initial results) := by
  unfold lastArgument
  cases hlast : (results.filter (·.c == c)).getLast? with
  | none => rfl
  | some result =>
      have hmem := List.mem_of_getLast? hlast
      rw [List.mem_filter, beq_iff_eq] at hmem
      have harg := (hdeclared result hmem.1).mpr (hmem.2 ▸ hc)
      obtain ⟨arg, harg⟩ := Option.isSome_iff_exists.mp harg
      simp [harg]

section Steps

variable (options : TvlogdOptions) (result : GetoptResult)

def GetoptResult.helps : Bool :=
  !(result.c == 'v' || result.c == 'f' || result.c == 'k' || result.c == 'l' || result.c == 'p' ||
    result.c == '\x00')

private theorem tvlogdOption_usage :
    (tvlogdOption options result).usage = (options.usage || result.helps) := by
  unfold tvlogdOption GetoptResult.helps
  split <;> simp_all

private theorem tvlogdOption_foreground :
    (tvlogdOption options result).foreground = (options.foreground || result.c == 'f') := by
  unfold tvlogdOption
  split <;> simp_all

private theorem tvlogdOption_kill :
    (tvlogdOption options result).kill = (options.kill || result.c == 'k') := by
  unfold tvlogdOption
  split <;> simp_all

private theorem tvlogdOption_pidfile :
    (tvlogdOption options result).pidfile =
      if result.c == 'p' then result.optarg else options.pidfile := by
  unfold tvlogdOption
  split <;> simp_all

private theorem tvlogdOption_logdir :
    (tvlogdOption options result).logdir =
      if result.c == 'k' || result.c == 'l' then result.optarg else options.logdir := by
  unfold tvlogdOption
  split <;> simp_all

end Steps

/-! ## What is started -/

section Main

variable {results : List GetoptResult} (operands : List CString)

/-- The directory of `usage`, which is `NULL` behind a last `-k`. -/
def usageLogdir (results : List GetoptResult) : Option CString :=
  ((results.filter fun result => result.c == 'k' || result.c == 'l').getLast?.map
    (·.optarg)).getD (some defaultLogdir)

private theorem usageLogdir_eq (hdeclared : ∀ result ∈ results, result.Declared)
    (hkill : (results.any (·.c == 'k')) = false) :
    usageLogdir results = some (lastArgument 'l' defaultLogdir results) := by
  have hsame : results.filter (fun result => result.c == 'k' || result.c == 'l') =
      results.filter (·.c == 'l') := by
    refine List.filter_congr fun result hresult => ?_
    have hother := List.any_eq_false.mp hkill result hresult
    simp [Bool.not_eq_true _ ▸ hother]
  rw [usageLogdir, hsame, lastArgument_eq (.inl rfl) defaultLogdir hdeclared]

private theorem tvlogdParseOptions_eq (hdeclared : ∀ result ∈ results, result.Declared) :
    (tvlogdParseOptions results operands).usage =
        (results.any GetoptResult.helps || !operands.isEmpty) ∧
      (tvlogdParseOptions results operands).foreground = results.any (·.c == 'f') ∧
      (tvlogdParseOptions results operands).kill = results.any (·.c == 'k') ∧
      (tvlogdParseOptions results operands).pidfile =
        some (lastArgument 'p' defaultPidfile results) ∧
      (tvlogdParseOptions results operands).logdir = usageLogdir results := by
  have husage := foldl_flag tvlogdOption_usage results .start
  have hforeground := foldl_flag tvlogdOption_foreground results .start
  have hkill := foldl_flag tvlogdOption_kill results .start
  have hpidfile := foldl_setting tvlogdOption_pidfile results .start
  have hlogdir := foldl_setting tvlogdOption_logdir results .start
  have hlast := lastArgument_eq (.inr rfl) defaultPidfile hdeclared
  unfold tvlogdParseOptions
  cases operands with
  | nil =>
      refine ⟨?_, hforeground, hkill, hpidfile.trans hlast, hlogdir⟩
      simpa [TvlogdOptions.start] using husage
  | cons operand operands =>
      exact ⟨by simp, hforeground, hkill, hpidfile.trans hlast, hlogdir⟩

/--
The last `-l` and the last `-p` count, and one option is enough for help, for `-k` and for `-f`.
Although `-k` leaves no directory, there is one wherever the loop is started.
-/
theorem tvlogdMain_starts (tvuDaemonKill tvuDaemon : Option CString → Int)
    (hdeclared : ∀ result ∈ results, result.Declared) :
    tvlogdMain tvuDaemonKill tvuDaemon results operands =
      let pidfile := some (lastArgument 'p' defaultPidfile results)
      if results.any GetoptResult.helps || !operands.isEmpty then
        (.usage (usageLogdir results) pidfile, 0)
      else if results.any (·.c == 'k') then
        (.killed pidfile (tvuDaemonKill pidfile), if tvuDaemonKill pidfile = -1 then 1 else 0)
      else if !results.any (·.c == 'f') && tvuDaemon pidfile == -1 then
        (.notDaemonized pidfile, 2)
      else (.looped (!results.any (·.c == 'f'))
        (some (lastArgument 'l' defaultLogdir results)), 0) := by
  obtain ⟨husage, hforeground, hkill, hpidfile, hlogdir⟩ :=
    tvlogdParseOptions_eq operands hdeclared
  simp only [tvlogdMain, husage, hforeground, hkill, hpidfile, hlogdir]
  split
  · rfl
  · split
    · rfl
    · rename_i hnotKilled
      rw [usageLogdir_eq hdeclared (by simpa using hnotKilled)]
      cases results.any (·.c == 'f') <;> simp

end Main

/-! ## A server in the foreground -/

private theorem nul_notMem_root : (0 : UInt8) ∉ [0x2f] := by decide

def rootDirectory : CString := ⟨[0x2f], nul_notMem_root⟩

/-- The process is not the one of a daemon, so there is no file for its number. -/
def foregroundOptions : List GetoptResult := [⟨'l', some rootDirectory⟩, ⟨'f', none⟩]

private theorem foregroundOptions_declared : ∀ result ∈ foregroundOptions, result.Declared := by
  simp [foregroundOptions, GetoptResult.Declared]

theorem tvlogdMain_starts_foreground :
    tvlogdMain (fun _ => 0) (fun _ => -1) foregroundOptions [] =
      (.looped false (some rootDirectory), 0) :=
  (tvlogdMain_starts [] (fun _ => 0) (fun _ => -1) foregroundOptions_declared).trans rfl

end Libtvnet
