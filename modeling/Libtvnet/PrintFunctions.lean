import Libtvnet.LogDelivery

/-!
# The printing functions of `pickle_print.c`

`tvnp_fprintp`, `tvnp_sprintp`, `tvnp_snprintp`, `tvnp_asprintp` and
`tvnp_dprintp` rebuild the arguments of a pickled call and pass them to a
function of the `vprintf` family, which is a parameter.  They print what the
call would have printed, unless a double has not come back as it was: a
negative zero loses its sign, an integral double outside of the limits of
`int64_t` its value.
-/

namespace Libtvnet

open Libtvnet.Foundation

/-! ## The functions -/

/--
A function of the `vprintf` family: from the format, the arguments, the bytes
that its strings point to and what it prints to, the return value and what it
has printed to.
-/
abbrev Vprintf (Sink : Type) := List UInt8 → List VaSlot → List UInt8 → Sink → Int × Sink

section Functions

variable (undefined : Binary64 → Int) (indeterminate : TvnpToken) {Sink : Type}

def tvnpPrintp (vprintf : Vprintf Sink) (sink : Sink) (buffer : TvuBuffer) :
    Option ((Int × Sink) × TvuBuffer) := do
  let (call, final) ← tvnpPickleToVa undefined indeterminate buffer
  match call with
  | none => some ((-1, sink), final)
  | some (p, ap) => do
      let fmt ← cString buffer.data p
      some (vprintf fmt ap buffer.data sink, final)

def tvnpFprintp {Stream : Type} (vfprintf : Vprintf Stream) (stream : Stream)
    (buffer : TvuBuffer) : Option ((Int × Stream) × TvuBuffer) :=
  tvnpPrintp undefined indeterminate vfprintf stream buffer

def tvnpSprintp (vsprintf : Vprintf (List UInt8)) (str : List UInt8) (buffer : TvuBuffer) :
    Option ((Int × List UInt8) × TvuBuffer) :=
  tvnpPrintp undefined indeterminate vsprintf str buffer

/-- The pointer is set to a new block, or not set. -/
def tvnpAsprintp (vasprintf : Vprintf (Option (List UInt8))) (out : Option (List UInt8))
    (buffer : TvuBuffer) : Option ((Int × Option (List UInt8)) × TvuBuffer) :=
  tvnpPrintp undefined indeterminate vasprintf out buffer

def tvnpDprintp {File : Type} (vdprintf : Vprintf File) (fd : File) (buffer : TvuBuffer) :
    Option ((Int × File) × TvuBuffer) :=
  tvnpPrintp undefined indeterminate vdprintf fd buffer

private theorem tvnpSnprintp_eq_tvnpPrintp
    (vsnprintf : List UInt8 → List VaSlot → List UInt8 → List UInt8) (size : Nat)
    (buffer : TvuBuffer) :
    tvnpSnprintp undefined indeterminate vsnprintf size buffer =
      (tvnpPrintp undefined indeterminate
        (fun fmt ap data _ => ((vsnprintf fmt ap data).length,
          some (snprintfStored size (vsnprintf fmt ap data)))) none buffer).map
        fun (printed, final) => (printed.2, final) := by
  rw [tvnpSnprintp, tvnpPrintp]
  cases tvnpPickleToVa undefined indeterminate buffer with
  | none => rfl
  | some result =>
      obtain ⟨call, final⟩ := result
      cases call with
      | none => rfl
      | some call =>
          simp only [Option.bind_eq_bind, Option.bind_some]
          cases cString buffer.data call.1 <;> rfl

end Functions

/-! ## The arguments that arrive -/

/-- What `va_arg` reads from the argument, with the bytes of its string. -/
def VaSlot.passed (data : List UInt8) : VaSlot → Option VaArg
  | .gp type value =>
      some (if type.bits = 32 then .gp32 (BitVec.ofInt 32 value) else .gp64 (BitVec.ofInt 64 value))
  | .float64 x => some (.float64 x)
  | .float80 x => some (.float80 x)
  | .data p =>
      if h : 0 ∈ data.drop p then
        some (.string ⟨(data.drop p).takeWhile (· != 0), fun hzero => by
          simpa using List.mem_takeWhile_imp hzero⟩)
      else none
  | .null => some (.string ⟨ascii ['(', 'N', 'U', 'L', 'L', ')'], by decide⟩)

def VaArg.received (undefined : Binary64 → Int) : VaArg → VaArg
  | .float64 x => .float64 (receivedDouble undefined x)
  | arg => arg

def negativeZero : Binary64 := ⟨true, 0, binary64.signBit_pos⟩

/-- A double that is sent as an integer has to fit, and its sign has to be that of the integer. -/
def VaArg.Survives (arg : VaArg) : Prop :=
  ∀ x, arg = .float64 x → x.integral = true → FitsInt64 x ∧ x ≠ negativeZero

section Arguments

variable {undefined : Binary64 → Int} {data : List UInt8}

theorem VaSlot.passed_data {p : Nat} {s : CString} (h : cString data p = some s.1) :
    VaSlot.passed data (.data p) = some (.string s) := by
  unfold cString at h
  split at h
  case isTrue hnul =>
    rw [passed, dif_pos hnul]
    exact congrArg (some ∘ VaArg.string) (Subtype.ext (Option.some.inj h))
  case isFalse => cases h

theorem VaSlot.passed_gp {c : Char} {arg : VaArg} {type : IntegerType} {value : Int}
    (hmatch : arg.Matches c) (htype : promotedLetter c = some type)
    (hvalue : arg.value c = some value) :
    VaSlot.passed data (.gp type value) = some arg := by
  cases arg with
  | gp32 bits =>
      rcases hmatch with rfl | rfl | rfl | rfl | rfl | rfl <;> cases htype <;> cases hvalue <;>
        simp [passed, IntegerType.int32, IntegerType.uint32]
  | gp64 bits =>
      rcases hmatch with rfl | rfl <;> cases htype <;> cases hvalue <;>
        simp [passed, IntegerType.int64, IntegerType.uint64]
  | float64 x => rcases hmatch with rfl | rfl <;> cases htype
  | float80 x =>
      obtain rfl : c = 'G' := hmatch
      cases htype
  | string s =>
      obtain ⟨rfl, -⟩ := hmatch
      cases htype

theorem VaSlot.Received.passed_eq {c : Char} {arg : VaArg} {slot : VaSlot}
    (hmatch : arg.Matches c) (h : slot.Received undefined data c arg) :
    slot.passed data = some (arg.received undefined) := by
  cases slot with
  | gp type value =>
      have hkept : arg.received undefined = arg := by
        cases arg with
        | float64 x => rcases hmatch with rfl | rfl <;> cases h.1
        | _ => rfl
      rw [hkept]
      exact VaSlot.passed_gp hmatch h.1 h.2
  | float64 y =>
      obtain ⟨x, rfl, rfl⟩ := h
      rfl
  | data p =>
      obtain ⟨s, rfl, hs⟩ := h
      exact VaSlot.passed_data hs
  | float80 _ => exact h.elim
  | null => exact h.elim

theorem VaSlot.map_passed {types : List Char} {args : List VaArg} {ap : List VaSlot}
    (hmatch : Matching types args)
    (h : List.Forall₂ (fun (c, arg) slot => slot.Received undefined data c arg)
      (types.zip args) ap) :
    ap.map (·.passed data) = (args.map (·.received undefined)).map some := by
  induction hmatch generalizing ap with
  | nil =>
      cases h
      rfl
  | cons hfirst _ ih =>
      cases h with
      | cons hslot hrest =>
          rw [List.map_cons, List.map_cons, List.map_cons, hslot.passed_eq hfirst, ih hrest]

end Arguments

/-! ## The doubles that survive -/

private theorem ofInt_positiveZero :
    Binary.ofInt (Int64.ofInt (⟨false, 0, binary64.signBit_pos⟩ : Binary64).toInt).toInt =
      (⟨false, 0, binary64.signBit_pos⟩ : Binary64) := by
  decide +kernel

private theorem receivedDouble_eq_self {undefined : Binary64 → Int} {x : Binary64}
    (h : x.integral = true → FitsInt64 x ∧ x ≠ negativeZero) :
    receivedDouble undefined x = x := by
  cases hintegral : x.integral with
  | false => rw [receivedDouble, hintegral, if_neg Bool.false_ne_true]
  | true =>
      obtain ⟨hfits, hsign⟩ := h hintegral
      by_cases hzero : x.units = 0
      · obtain ⟨negative, magnitude, hlt⟩ := x
        obtain rfl : magnitude = 0 := Binary.units_eq_zero.mp hzero
        cases negative with
        | true => exact absurd rfl hsign
        | false =>
            have hholds := fitsInt64_holds hfits hintegral
            rw [receivedDouble, if_pos hintegral, IntegerType.ofBinary_of_holds hfits.1 hholds]
            exact ofInt_positiveZero
      · exact Binary.eq_of_eq_of_ne_zero (receivedDouble_eq hfits) hzero

example : receivedDouble (fun _ => 0) negativeZero ≠ negativeZero := by decide +kernel

private theorem survives_of_receivedDouble {x : Binary64}
    (h : receivedDouble (fun _ => 0) x = x) (hintegral : x.integral = true) :
    FitsInt64 x ∧ x ≠ negativeZero := by
  rw [receivedDouble, if_pos hintegral, IntegerType.ofBinary] at h
  split at h
  case isTrue hholds =>
    refine ⟨(fitsInt64_iff_holds hholds.1 hintegral).mpr hholds.2, ?_⟩
    rintro rfl
    exact absurd h (by decide +kernel)
  case isFalse =>
    -- The undefined conversion gives 0 here, and 0 fits.
    rw [← h]
    refine ⟨(fitsInt64_iff_holds ?_ ?_).mpr ?_, ?_⟩ <;> decide +kernel

theorem VaArg.received_eq_self {undefined : Binary64 → Int} {arg : VaArg} (h : arg.Survives) :
    arg.received undefined = arg := by
  cases arg with
  | float64 x => exact congrArg VaArg.float64 (receivedDouble_eq_self (h x rfl))
  | _ => rfl

theorem VaArg.map_received_eq_self {undefined : Binary64 → Int} {args : List VaArg}
    (h : ∀ arg ∈ args, arg.Survives) : args.map (·.received undefined) = args := by
  conv_rhs => rw [← List.map_id args]
  exact List.map_congr_left fun arg harg => VaArg.received_eq_self (h arg harg)

theorem VaArg.survives_of_map_received {args : List VaArg}
    (h : args.map (·.received fun _ => 0) = args) : ∀ arg ∈ args, arg.Survives := by
  intro arg harg x hx hintegral
  have hkept : arg.received (fun _ => 0) = arg :=
    List.map_eq_map_iff.mp (h.trans (List.map_id args).symm) arg harg
  subst hx
  exact survives_of_receivedDouble (VaArg.float64.inj hkept) hintegral

/-! ## The call that is printed -/

/--
A function of the family makes the same of the arguments as a call with them:
it reads an argument by its value, and a string up to its NUL.
-/
def Prints {Printed : Type} (vprintf : List UInt8 → List VaSlot → List UInt8 → Printed)
    (printf : List UInt8 → List VaArg → Printed) : Prop :=
  ∀ fmt ap data args, ap.map (·.passed data) = args.map some → vprintf fmt ap data = printf fmt args

theorem Prints.map {Printed Printed' : Type}
    {vprintf : List UInt8 → List VaSlot → List UInt8 → Printed}
    {printf : List UInt8 → List VaArg → Printed} (h : Prints vprintf printf)
    (f : Printed → Printed') :
    Prints (fun fmt ap data => f (vprintf fmt ap data)) (fun fmt args => f (printf fmt args)) :=
  fun fmt ap data args heq => congrArg f (h fmt ap data args heq)

theorem prints_passed : Prints
    (fun _ ap data (_ : List (Option VaArg)) => ((0 : Int), ap.map (VaSlot.passed data)))
    (fun _ args _ => (0, args.map some)) :=
  fun _ _ _ _ h => funext fun _ => congrArg (Prod.mk 0) h

structure PrintAlike (undefined : Binary64 → Int) (indeterminate : TvnpToken) (b : TvuBuffer)
    (fmt : List UInt8) (args : List VaArg) : Prop where
  fprintp : ∀ {Stream : Type} {vfprintf : Vprintf Stream} {fprintf}, Prints vfprintf fprintf →
    ∀ stream, ∃ final, tvnpFprintp undefined indeterminate vfprintf stream b =
      some (fprintf fmt args stream, final)
  sprintp : ∀ {vsprintf : Vprintf (List UInt8)} {sprintf}, Prints vsprintf sprintf →
    ∀ str, ∃ final, tvnpSprintp undefined indeterminate vsprintf str b =
      some (sprintf fmt args str, final)
  snprintp : ∀ {vsnprintf : List UInt8 → List VaSlot → List UInt8 → List UInt8} {snprintf},
    Prints vsnprintf snprintf →
      ∀ size, ∃ final, tvnpSnprintp undefined indeterminate vsnprintf size b =
        some (some (snprintfStored size (snprintf fmt args)), final)
  asprintp : ∀ {vasprintf : Vprintf (Option (List UInt8))} {asprintf},
    Prints vasprintf asprintf →
      ∀ out, ∃ final, tvnpAsprintp undefined indeterminate vasprintf out b =
        some (asprintf fmt args out, final)
  dprintp : ∀ {File : Type} {vdprintf : Vprintf File} {dprintf}, Prints vdprintf dprintf →
    ∀ fd, ∃ final, tvnpDprintp undefined indeterminate vdprintf fd b =
      some (dprintf fmt args fd, final)

section Call

variable {undefined : Binary64 → Int} {tvuBufferAlloc : UInt64 → TvuBuffer} {fmt : CString}
  {args : List VaArg}

private theorem tvnpVapprintf_wire (tvuBufferError : TvuBuffer)
    (halloc : ∀ size, tvnpVpprintfLen undefined (tvnpFmtParse fmt.chars).1 fmt args = some size →
      (tvuBufferAlloc size).offset = 0 ∧ (tvuBufferAlloc size).size = size.toNat)
    (hfmt : fmt.1.length < 2 ^ 32) (hmatch : Matching (tvnpFmtParse fmt.chars).1 args)
    (hlong : 'G' ∉ (tvnpFmtParse fmt.chars).1) :
    ∃ buffer suffix, tvnpVapprintf undefined tvuBufferError tvuBufferAlloc fmt args =
        some buffer ∧
      buffer.rewind.rest =
        wire (callTokens undefined (tvnpFmtParse fmt.chars).1 fmt args) ++ suffix := by
  have hlen := tvnpVpprintfLen_eq undefined fmt hmatch
  have hencode (b : TvuBuffer) :
      tvnpVpprintf undefined b (tvnpFmtParse fmt.chars).1 fmt args = _ :=
    tvnpVpprintf_eq b hmatch hfmt hlong
  obtain ⟨hstart, hsize⟩ := halloc _ hlen
  rw [UInt64.toNat_ofNat_of_lt' (length_wire_callTokens_lt undefined hfmt hmatch)] at hsize
  generalize callTokens undefined (tvnpFmtParse fmt.chars).1 fmt args = tokens at *
  obtain ⟨buffer, hbuffer, -⟩ := TvuBuffer.append_eq_some
    (by omega : (tvuBufferAlloc (UInt64.ofNat (wire tokens).length)).offset +
      (wire tokens).length ≤ (tvuBufferAlloc (UInt64.ofNat (wire tokens).length)).size)
  refine ⟨buffer, _, ?_, TvuBuffer.rest_of_append hbuffer hstart.symm rfl⟩
  change (tvnpVpprintfLen undefined (tvnpFmtParse fmt.chars).1 fmt args).bind _ = _
  rw [hlen, Option.bind_some]
  exact (hencode _).trans hbuffer

theorem tvnpPrintp_eq {Sink : Type} {vprintf : Vprintf Sink}
    {printf : List UInt8 → List VaArg → Sink → Int × Sink} (hprints : Prints vprintf printf)
    (indeterminate : TvnpToken) {b : TvuBuffer} {suffix : List UInt8}
    (hfmt : fmt.1.length < 2 ^ 32) (hmatch : Matching (tvnpFmtParse fmt.chars).1 args)
    (hlong : 'G' ∉ (tvnpFmtParse fmt.chars).1)
    (h : b.rest = wire (callTokens undefined (tvnpFmtParse fmt.chars).1 fmt args) ++ suffix)
    (sink : Sink) :
    ∃ final, tvnpPrintp undefined indeterminate vprintf sink b =
      some (printf fmt.1 (args.map (·.received undefined)) sink, final) := by
  obtain ⟨p, ap, hcall, hstring, hslots⟩ :=
    tvnpPickleToVa_wire indeterminate hfmt hmatch hlong h
  refine ⟨b.skip (wire (callTokens undefined (tvnpFmtParse fmt.chars).1 fmt args)).length, ?_⟩
  rw [tvnpPrintp, hcall]
  simp only [Option.bind_eq_bind, Option.bind_some, hstring,
    hprints _ _ _ _ (VaSlot.map_passed hmatch hslots)]

private theorem printAlike_received (indeterminate : TvnpToken) {b : TvuBuffer}
    {suffix : List UInt8}
    (hfmt : fmt.1.length < 2 ^ 32) (hmatch : Matching (tvnpFmtParse fmt.chars).1 args)
    (hlong : 'G' ∉ (tvnpFmtParse fmt.chars).1)
    (h : b.rest = wire (callTokens undefined (tvnpFmtParse fmt.chars).1 fmt args) ++ suffix) :
    PrintAlike undefined indeterminate b fmt.1 (args.map (·.received undefined)) where
  fprintp hprints stream := tvnpPrintp_eq hprints indeterminate hfmt hmatch hlong h stream
  sprintp hprints str := tvnpPrintp_eq hprints indeterminate hfmt hmatch hlong h str
  snprintp hprints size := by
    have hstores := hprints.map fun text (_ : Option (List UInt8)) =>
      ((text.length : Int), some (snprintfStored size text))
    obtain ⟨final, hprinted⟩ := tvnpPrintp_eq hstores indeterminate hfmt hmatch hlong h none
    exact ⟨final, by rw [tvnpSnprintp_eq_tvnpPrintp, hprinted, Option.map_some]⟩
  asprintp hprints out := tvnpPrintp_eq hprints indeterminate hfmt hmatch hlong h out
  dprintp hprints fd := tvnpPrintp_eq hprints indeterminate hfmt hmatch hlong h fd

end Call

section Condition

variable {tvuBufferAlloc : UInt64 → TvuBuffer} {fmt : CString} {args : List VaArg}

def AllocServes (tvuBufferAlloc : UInt64 → TvuBuffer) (fmt : CString) (args : List VaArg) : Prop :=
  ∀ undefined size, tvnpVpprintfLen undefined (tvnpFmtParse fmt.chars).1 fmt args = some size →
    (tvuBufferAlloc size).offset = 0 ∧ (tvuBufferAlloc size).size = size.toNat

private theorem allocServes_zeroAlloc (hfmt : fmt.1.length < 2 ^ 32)
    (hmatch : Matching (tvnpFmtParse fmt.chars).1 args)
    (hletters : (tvnpFmtParse fmt.chars).1.length ≤ 2 ^ 20) : AllocServes zeroAlloc fmt args := by
  intro undefined size hsize
  rw [tvnpVpprintfLen_eq _ _ hmatch, Option.some.injEq] at hsize
  have hlength := length_wire_callTokens_le undefined hfmt hmatch
  have hsmall : size.toNat < 2 ^ 63 := by
    rw [← hsize, UInt64.toNat_ofNat_of_lt' (length_wire_callTokens_lt undefined hfmt hmatch)]
    omega
  rw [zeroAlloc, dif_pos hsmall]
  exact ⟨rfl, List.length_replicate⟩

end Condition

/-! ## The lines of the log files -/

/-- What an array of 256 bytes shows of a text that is printed into it. -/
def shownText (text : List UInt8) : List UInt8 := (text.take 255).takeWhile (· != 0)

structure EntryPrints (printf : List UInt8 → List VaArg → List UInt8) (lib : Formatters)
    (optionLogdir : List UInt8) (call : LogCall) (entry : Entry) : Prop where
  file : entry.file =
    some (logfileName optionLogdir call.severity (lib.tvuFmtShortdate call.timestamp))
  line : WritesLine (call.line lib (shownText (printf call.fmt.1 call.ap))) entry.bytes

section Log

variable {undefined : Binary64 → Int} {indeterminate : TvnpToken} {lib : Formatters}
  {printf : List UInt8 → List VaArg → List UInt8} {optionLogdir : List UInt8}

private theorem takeWhile_snprintfStored (text : List UInt8) :
    (snprintfStored 256 text).takeWhile (· != 0) = shownText text := by
  rw [snprintfStored, shownText, List.takeWhile_append]
  split
  case isTrue hall =>
    rw [(List.takeWhile_prefix _).eq_of_length hall]
    simp
  case isFalse => rfl

theorem IsMessageOf.shown (hprints : Prints lib.vsnprintf printf) {call : LogCall}
    {data message : List UInt8} (hcall : call.Loggable)
    (h : IsMessageOf undefined lib call data message) :
    message = shownText (printf call.fmt.1 (call.ap.map (·.received undefined))) := by
  obtain ⟨slots, hslots, rfl⟩ := h
  rw [hprints _ _ _ _ (VaSlot.map_passed hcall.proper.matching hslots), takeWhile_snprintfStored]

theorem EntryFor.prints (hprints : Prints lib.vsnprintf printf) {call : LogCall} {entry : Entry}
    (hcall : call.Loggable) (hsurvives : ∀ arg ∈ call.ap, arg.Survives)
    (h : EntryFor undefined lib optionLogdir call entry) :
    EntryPrints printf lib optionLogdir call entry := by
  obtain ⟨data, message, hmessage, hline⟩ := h.line
  obtain rfl := hmessage.shown hprints hcall
  rw [VaArg.map_received_eq_self hsurvives] at hline
  exact ⟨h.file, hline⟩

variable {buffer : RingBuffer} {Thread : Type} [DecidableEq Thread] {s s' : LogSystem buffer Thread}

end Log

end Libtvnet
