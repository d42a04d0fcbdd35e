import Libtvnet.LogDelivery

/-!
# `tvlog/main.c`

The words of the command line are put together in an array of 256 bytes and
are logged as one message.  The log server has an array of the same size for
the text, so what fits into the first array arrives there whole; but the line
goes through a third one of this size.
-/

namespace Libtvnet

open Libtvnet.Foundation

/-! ## The program -/

/-- `strcat`, as long as it stays inside of the array. -/
def strcat (array : List UInt8) (src : CString) : Option (List UInt8) :=
  let text := array.takeWhile (· != 0) ++ src.1 ++ [0]
  if text.length ≤ array.length then some (text ++ array.drop text.length) else none

private theorem nul_notMem_blank : (0 : UInt8) ∉ [0x20] := by decide

def blank : CString := ⟨[0x20], nul_notMem_blank⟩

def catOperands : List CString → Nat → List UInt8 → Option (List UInt8)
  | [], _, message => some message
  | arg :: args, i, message => do
      let message ← if 0 < i then strcat message blank else some message
      let message ← strcat message arg
      catOperands args (i + 1) message

structure TvlogOptions where
  message : List UInt8
  usage : Bool
  verbose : Bool
  deriving DecidableEq, Repr

def tvlogOption (options : TvlogOptions) (c : Char) : TvlogOptions :=
  match c with
  | 'h' => { options with usage := true }
  | 'v' => { options with verbose := true }
  | ':' => { options with usage := true }
  | '?' => { options with usage := true }
  | '\x00' => options
  | _ => { options with usage := true }

def tvlogParseOptions (letters : List Char) (operands : List CString) : Option TvlogOptions := do
  let options := letters.foldl tvlogOption ⟨List.replicate 256 0, false, false⟩
  let message ← catOperands operands 0 (options.message.set 0 0)
  some { options with message := message }

private theorem nul_notMem_takeWhile (array : List UInt8) : 0 ∉ array.takeWhile (· != 0) := by
  intro hmem
  simpa using List.mem_takeWhile_imp hmem

def arrayString (array : List UInt8) : Option CString :=
  if 0 ∈ array then some ⟨array.takeWhile (· != 0), nul_notMem_takeWhile array⟩ else none

private theorem nul_notMem_stringFmt : (0 : UInt8) ∉ ascii ['%', 's'] := by decide

/-- `TVNL_DEBUG("%s", message)`. -/
def tvnlDebug (tvnInfo : TvnInfo) (timestamp : Int64) (filename : CString) (lineno : Int64)
    (message : CString) : LogCall :=
  ⟨tvnInfo, timestamp, filename, lineno, 5, ⟨ascii ['%', 's'], nul_notMem_stringFmt⟩,
    [.string message]⟩

structure TvlogRun where
  ret : Int
  usage : Bool
  call : Option LogCall

def tvlogMain (tvuInit : Int) (letters : List Char) (operands : List CString) (tvnInfo : TvnInfo)
    (timestamp : Int64) (filename : CString) : Option TvlogRun :=
  if tvuInit = -1 then some ⟨1, false, none⟩
  else do
    let options ← tvlogParseOptions letters operands
    if options.usage then some ⟨0, true, none⟩
    else do
      let message ← arrayString options.message
      some ⟨0, false, some (tvnlDebug tvnInfo timestamp filename 104 message)⟩

/-! ## The array -/

def joined (operands : List CString) : List UInt8 := [0x20].intercalate (operands.map (·.1))

def messageArray (text : List UInt8) : List UInt8 := text ++ List.replicate (256 - text.length) 0

private theorem takeWhile_string {text : List UInt8} (hnul : 0 ∉ text) (rest : List UInt8) :
    (text ++ 0 :: rest).takeWhile (· != 0) = text := by
  have hbytes : ∀ c ∈ text, (c != 0) = true := by
    intro c hc
    rw [bne_iff_ne]
    exact fun hzero => hnul (hzero ▸ hc)
  rw [List.takeWhile_append_of_pos hbytes]
  simp

private theorem messageArray_eq {text : List UInt8} (h : text.length ≤ 255) :
    messageArray text = text ++ 0 :: List.replicate (255 - text.length) 0 := by
  have hrest : 256 - text.length = 255 - text.length + 1 := by omega
  rw [messageArray, hrest, List.replicate_succ]

private theorem takeWhile_messageArray {text : List UInt8} (hnul : 0 ∉ text)
    (h : text.length ≤ 255) :
    (messageArray text).takeWhile (· != 0) = text := by
  rw [messageArray_eq h, takeWhile_string hnul]

private theorem length_messageArray {text : List UInt8} (h : text.length ≤ 255) :
    (messageArray text).length = 256 := by
  simp only [messageArray, List.length_append, List.length_replicate]
  omega

private theorem strcat_messageArray {text : List UInt8} (hnul : 0 ∉ text) (h : text.length ≤ 255)
    (src : CString) :
    strcat (messageArray text) src =
      if (text ++ src.1).length ≤ 255 then some (messageArray (text ++ src.1)) else none := by
  simp only [strcat, takeWhile_messageArray hnul h, length_messageArray h]
  by_cases hfits : (text ++ src.1).length ≤ 255
  · have hlength : (text ++ src.1 ++ [0]).length ≤ 256 := by
      rw [List.length_append, List.length_singleton]
      omega
    have hbehind : text.length ≤ (text ++ src.1 ++ [0]).length := by simp
    have hrest : 256 - (text ++ src.1).length =
        256 - text.length - ((text ++ src.1 ++ [0]).length - text.length) + 1 := by
      simp only [List.length_append, List.length_singleton] at hfits ⊢
      omega
    rw [if_pos hlength, if_pos hfits]
    simp only [messageArray, List.drop_append, List.drop_of_length_le hbehind, List.drop_replicate,
      hrest, List.replicate_succ, List.nil_append]
    rw [← List.append_cons]
  · have hlength : ¬(text ++ src.1 ++ [0]).length ≤ 256 := by
      rw [List.length_append, List.length_singleton]
      omega
    rw [if_neg hlength, if_neg hfits]

private theorem catOperands_messageArray (operands : List CString) {i : Nat} (hi : 0 < i)
    {text : List UInt8} (hnul : 0 ∉ text) (h : text.length ≤ 255) :
    catOperands operands i (messageArray text) =
      if (text ++ operands.flatMap (0x20 :: ·.1)).length ≤ 255 then
        some (messageArray (text ++ operands.flatMap (0x20 :: ·.1)))
      else none := by
  induction operands generalizing i text with
  | nil => simp [catOperands, h]
  | cons arg args ih =>
      have hblank : 0 ∉ text ++ blank.1 := by
        simp [hnul, blank]
      have harg : 0 ∉ text ++ blank.1 ++ arg.1 := by
        rw [List.mem_append, not_or]
        exact ⟨hblank, arg.2⟩
      have hsplit : text ++ (arg :: args).flatMap (0x20 :: ·.1) =
          text ++ blank.1 ++ arg.1 ++ args.flatMap (0x20 :: ·.1) := by
        simp [blank]
      rw [catOperands, if_pos hi, strcat_messageArray hnul h, hsplit]
      by_cases hfirst : (text ++ blank.1).length ≤ 255
      · simp only [if_pos hfirst, Option.bind_eq_bind, Option.bind_some,
          strcat_messageArray hblank hfirst]
        by_cases hsecond : (text ++ blank.1 ++ arg.1).length ≤ 255
        · rw [if_pos hsecond, Option.bind_some, ih (Nat.succ_pos i) harg hsecond]
        · rw [if_neg hsecond, if_neg (by simp only [List.length_append] at hsecond ⊢; omega)]
          rfl
      · rw [if_neg hfirst, if_neg (by simp only [List.length_append] at hfirst ⊢; omega)]
        rfl

private theorem joined_cons (arg : CString) (args : List CString) :
    joined (arg :: args) = arg.1 ++ args.flatMap (0x20 :: ·.1) := by
  induction args generalizing arg with
  | nil => simp [joined]
  | cons next args ih =>
      have hnext : joined (arg :: next :: args) = arg.1 ++ [0x20] ++ joined (next :: args) :=
        List.intercalate_cons_cons
      rw [hnext, ih next, List.flatMap_cons, List.append_assoc, List.singleton_append,
        List.cons_append]

private theorem nul_notMem_joined (operands : List CString) : 0 ∉ joined operands := by
  cases operands with
  | nil => simp [joined]
  | cons arg args =>
      rw [joined_cons, List.mem_append, List.mem_flatMap, not_or]
      refine ⟨arg.2, ?_⟩
      rintro ⟨next, -, hmem⟩
      rcases List.mem_cons.mp hmem with hzero | hmem
      · exact absurd hzero (by decide)
      · exact next.2 hmem

private theorem catOperands_eq (operands : List CString) :
    catOperands operands 0 (messageArray []) =
      if (joined operands).length ≤ 255 then some (messageArray (joined operands)) else none := by
  cases operands with
  | nil => simp [catOperands, joined]
  | cons arg args =>
      simp only [catOperands, if_neg (Nat.lt_irrefl 0), Option.bind_eq_bind, Option.bind_some,
        strcat_messageArray List.not_mem_nil (Nat.zero_le 255), List.nil_append, joined_cons]
      by_cases hfirst : arg.1.length ≤ 255
      · rw [if_pos hfirst, Option.bind_some,
          catOperands_messageArray args Nat.one_pos arg.2 hfirst]
      · have hlong : ¬(arg.1 ++ args.flatMap (0x20 :: ·.1)).length ≤ 255 := by
          rw [List.length_append]
          omega
        rw [if_neg hfirst, if_neg hlong]
        rfl

/-! ## The options -/

theorem foldl_flag {State Element : Type} {step : State → Element → State}
    {flag : State → Bool} {sets : Element → Bool}
    (hstep : ∀ s e, flag (step s e) = (flag s || sets e))
    (elements : List Element) (s : State) :
    flag (elements.foldl step s) = (flag s || elements.any sets) := by
  induction elements generalizing s with
  | nil => simp
  | cons e elements ih => rw [List.foldl_cons, ih, hstep, List.any_cons, Bool.or_assoc]

private theorem tvlogOption_message (options : TvlogOptions) (c : Char) :
    (tvlogOption options c).message = options.message := by
  unfold tvlogOption
  split <;> rfl

private theorem foldl_tvlogOption_message (letters : List Char) (options : TvlogOptions) :
    (letters.foldl tvlogOption options).message = options.message := by
  induction letters generalizing options with
  | nil => rfl
  | cons c letters ih => rw [List.foldl_cons, ih, tvlogOption_message]

private theorem tvlogOption_usage (options : TvlogOptions) (c : Char) :
    (tvlogOption options c).usage = (options.usage || !(c == 'v' || c == '\x00')) := by
  unfold tvlogOption
  split <;> simp_all

/-! ## From the command line to the file -/

private theorem tvlogMain_eq {tvuInit : Int} (hinit : tvuInit ≠ -1) (letters : List Char)
    (operands : List CString) (tvnInfo : TvnInfo) (timestamp : Int64) (filename : CString) :
    tvlogMain tvuInit letters operands tvnInfo timestamp filename =
      if (joined operands).length ≤ 255 then
        some (if letters.any fun c => !(c == 'v' || c == '\x00') then ⟨0, true, none⟩
          else ⟨0, false, some (tvnlDebug tvnInfo timestamp filename 104
            ⟨joined operands, nul_notMem_joined operands⟩)⟩)
      else none := by
  have hstart : (List.replicate 256 (0 : UInt8)).set 0 0 = messageArray [] := rfl
  rw [tvlogMain, if_neg hinit, tvlogParseOptions]
  simp only [foldl_tvlogOption_message, foldl_flag tvlogOption_usage, hstart, catOperands_eq,
    Bool.false_or]
  by_cases hfits : (joined operands).length ≤ 255
  · have hmem : 0 ∈ messageArray (joined operands) := by
      simp [messageArray_eq hfits]
    have hstring : arrayString (messageArray (joined operands)) =
        some ⟨joined operands, nul_notMem_joined operands⟩ := by
      rw [arrayString, if_pos hmem]
      exact congrArg some (Subtype.ext (takeWhile_messageArray (nul_notMem_joined operands) hfits))
    simp only [if_pos hfits, Option.bind_eq_bind, Option.bind_some, hstring]
    split <;> rfl
  · simp only [if_neg hfits]
    rfl

section Delivered

variable {undefined : Binary64 → Int} {lib : Formatters}

def Formatters.PrintsStrings (lib : Formatters) : Prop :=
  ∀ data p s, cString data p = some s → lib.vsnprintf (ascii ['%', 's']) [.data p] data = s

private theorem tvnlDebug_loggable {tvnInfo : TvnInfo} {filename message : CString}
    (hservice : tvnInfo.service.1.length < 2 ^ 32) (hfilename : filename.1.length < 2 ^ 32)
    (hmessage : message.1.length ≤ 255) (timestamp lineno : Int64) :
    (tvnlDebug tvnInfo timestamp filename lineno message).Loggable := by
  have htypes : (tvnlDebug tvnInfo timestamp filename lineno message).types = ['s'] := rfl
  have hstring : message.1.length < 2 ^ 32 := by omega
  have hmatching : Matching (tvnlDebug tvnInfo timestamp filename lineno message).types
      [.string message] := by
    rw [htypes]
    exact .cons ⟨rfl, hstring⟩ .nil
  exact ⟨⟨hservice, hfilename, by simp [tvnlDebug, ascii], hmatching, by simp [htypes]⟩,
    (by decide : (5 : UInt32).toNat ≤ 5)⟩

private theorem tvnlDebug_message {tvnInfo : TvnInfo} {timestamp lineno : Int64}
    {filename message : CString} {data text : List UInt8} (hprints : lib.PrintsStrings)
    (hlength : message.1.length ≤ 255)
    (h : IsMessageOf undefined lib (tvnlDebug tvnInfo timestamp filename lineno message) data
      text) :
    text = message.1 := by
  obtain ⟨slots, hslots, rfl⟩ := h
  have hzip : (tvnlDebug tvnInfo timestamp filename lineno message).types.zip
      (tvnlDebug tvnInfo timestamp filename lineno message).ap = [('s', .string message)] := rfl
  rw [hzip] at hslots
  cases hslots with
  | @cons _ slot _ _ hslot hrest =>
      cases hrest
      cases slot with
      | data p =>
          obtain ⟨s, hs, hstring⟩ := hslot
          obtain rfl : message = s := VaArg.string.inj hs
          have hprinted : lib.vsnprintf (tvnlDebug tvnInfo timestamp filename lineno message).fmt.1
              [.data p] data = message.1 := hprints data p message.1 hstring
          rw [hprinted, snprintfStored, List.take_of_length_le hlength,
            takeWhile_string message.2]
      | gp type value => simp [VaSlot.Received, promotedLetter] at hslot
      | float64 y => simp [VaSlot.Received] at hslot
      | float80 y => exact hslot.elim
      | null => exact hslot.elim

/--
With the ring attached, which no program here does (nothing calls `tvn_init`), a message is logged
exactly if it fits into the array.  Whatever packet it gets, the line for it has the words of the
command line, with blanks between them; `write` cuts it behind 255 bytes.
-/
theorem tvlogMain_logs (hprints : lib.PrintsStrings) {tvuInit : Int} (hinit : tvuInit ≠ -1)
    {letters : List Char} (hletters : ∀ c ∈ letters, c = 'v' ∨ c = '\x00')
    {tvnInfo : TvnInfo} {filename : CString} (hservice : tvnInfo.service.1.length < 2 ^ 32)
    (hfilename : filename.1.length < 2 ^ 32) (operands : List CString) (timestamp : Int64)
    (indeterminate : TvnpToken) :
    (joined operands).length ≤ 255 ↔
      ∃ call, tvlogMain tvuInit letters operands tvnInfo timestamp filename =
          some ⟨0, false, some call⟩ ∧
        call.Loggable ∧
        ∀ written, WrittenBy undefined call written →
          ∀ optionLogdir openFile files locals beyond, ∃ run,
            iteration undefined indeterminate lib optionLogdir openFile files locals beyond
              (some written.rewind) = some (some run) ∧
            run.Formats (call.line lib (joined operands)) ∧
            ∀ stack, run.loglineLen ≤ (run.loglineS ++ stack).length →
              WritesLine (call.line lib (joined operands))
                ((run.loglineS ++ stack).take run.loglineLen) := by
  have hquiet : (letters.any fun c => !(c == 'v' || c == '\x00')) = false := by
    rw [List.any_eq_false]
    intro c hc
    rcases hletters c hc with rfl | rfl <;> simp
  rw [tvlogMain_eq hinit, hquiet]
  constructor
  · intro hfits
    let message : CString := ⟨joined operands, nul_notMem_joined operands⟩
    have hloggable : (tvnlDebug tvnInfo timestamp filename 104 message).Loggable :=
      tvnlDebug_loggable hservice hfilename hfits timestamp 104
    rw [if_pos hfits]
    refine ⟨_, rfl, hloggable, ?_⟩
    intro written hwritten optionLogdir openFile files locals beyond
    obtain ⟨text, hmessage, hiteration⟩ := hwritten.iteration_eq hloggable indeterminate lib
    obtain rfl := tvnlDebug_message hprints hfits hmessage
    obtain ⟨run, hrun, hformats, -⟩ := hiteration optionLogdir openFile files locals beyond
    exact ⟨run, hrun, hformats, fun stack => hformats.writesLine⟩
  · rintro ⟨call, hmain, -⟩
    by_contra hlong
    rw [if_neg hlong] at hmain
    cases hmain

/-! ## Two words -/

def stringFormatters : Formatters :=
  ⟨fun _ => [], leapDay, fun _ => [], fun fmt ap data =>
    match ap with
    | [.data p] => (cString data p).getD []
    | _ => fmt⟩

private theorem stringFormatters_printsStrings : stringFormatters.PrintsStrings := by
  intro data p s hs
  simp [stringFormatters, hs]

private theorem nul_notMem_words : (0 : UInt8) ∉ [0x68, 0x69] ∧ (0 : UInt8) ∉
    [0x79, 0x6f, 0x75] := by
  decide

def twoWords : List CString := [⟨[0x68, 0x69], nul_notMem_words.1⟩,
  ⟨[0x79, 0x6f, 0x75], nul_notMem_words.2⟩]

theorem tvlogMain_logs_twoWords :
    ∃ call, tvlogMain 0 ['v'] twoWords sampleInfo 4096 letterCall.filename =
        some ⟨0, false, some call⟩ ∧
      call.Loggable ∧
      ∀ written, WrittenBy (fun _ => 0) call written →
        ∀ optionLogdir openFile files locals beyond, ∃ run,
          iteration (fun _ => 0) .zeroFilled stringFormatters optionLogdir openFile files locals
            beyond (some written.rewind) = some (some run) ∧
          run.Formats (call.line stringFormatters (joined twoWords)) ∧
          ∀ stack, run.loglineLen ≤ (run.loglineS ++ stack).length →
            WritesLine (call.line stringFormatters (joined twoWords))
              ((run.loglineS ++ stack).take run.loglineLen) :=
  (tvlogMain_logs stringFormatters_printsStrings (by decide : (0 : Int) ≠ -1)
    (by simp : ∀ c ∈ ['v'], c = 'v' ∨ c = '\x00') letterCall_loggable.proper.service
    letterCall_loggable.proper.filename twoWords 4096 .zeroFilled).mp (by decide)

end Delivered

end Libtvnet
