import Libtvnet.PrintfGrammar
import Libtvnet.DecodeBounds

/-!
# Which formats the parser understands

The parser has no conversion `g`, `G`, `a`, `A`, `p` or `n`.  Such a directive
leaves it waiting for a conversion, which it takes from the text behind the
directive or never: the percent sign of the next directive ends the wait, and
that directive is lost.  A directive writes at most one letter, so a type
string is complete only if each directive has written its own.
-/

namespace Libtvnet

open Libtvnet.Foundation

abbrev written (s : FmtState) (cs : List Char) : List Char := fmtParser.output s cs

def FmtState.waiting (h l : UInt32) : FmtState := ⟨true, h, l⟩

/-! ## Characters -/

theorem written_idle {s : FmtState} (h : s.format = false) (cs : List Char) :
    written s cs = written .start cs := by
  cases cs with
  | nil => rfl
  | cons c cs =>
      obtain ⟨format, _, _⟩ := s
      subst h
      rfl

theorem written_start_cons {c : Char} (hc : c ≠ '%') (cs : List Char) :
    written .start (c :: cs) = written .start cs := by
  have hstep : fmtParser.step .start c = (.start, []) := by
    simp [fmtParser, tvnpFmtParseStep, FmtState.start, hc]
  rw [written, fmtParser.output_cons, hstep, List.nil_append]

theorem written_start_text {text : List Char} (h : '%' ∉ text) (cs : List Char) :
    written .start (text ++ cs) = written .start cs := by
  induction text with
  | nil => rfl
  | cons c text ih =>
      rw [List.mem_cons, not_or] at h
      rw [List.cons_append, written_start_cons (Ne.symm h.1), ih h.2]

def IsIntegerOrString (letter : Char) : Prop :=
  letterClass letter = some .int32 ∨ letterClass letter = some .int64 ∨
    letterClass letter = some .charPointer

instance (letter : Char) : Decidable (IsIntegerOrString letter) :=
  inferInstanceAs (Decidable (_ ∨ _))

inductive LetterOf (l : UInt32) (c : Char) : Char → Prop
  | float : c ∈ floatConversions → LetterOf l c (tvnpFmtParseFloat l)
  | other {letter : Char} : c ∉ floatConversions → IsIntegerOrString letter →
      LetterOf l c letter

private theorem isIntegerOrString_tvnpFmtParseInt (h l : UInt32) (unsigned : Bool) :
    IsIntegerOrString (tvnpFmtParseInt h l unsigned) := by
  unfold tvnpFmtParseInt
  cases unsigned <;> split_ifs <;> decide

private theorem isIntegerOrString_tvnpFmtParseChar (l : UInt32) :
    IsIntegerOrString (tvnpFmtParseChar l) := by
  unfold tvnpFmtParseChar
  split <;> decide

private theorem step_conversion {c : Char} (h l : UInt32) (hc : c ∈ parserConversions) :
    ∃ letter, fmtParser.step (.waiting h l) c = (⟨false, h, l⟩, [letter]) ∧
      LetterOf l c letter := by
  have hint (c : Char) (unsigned : Bool) (hc : c ∉ floatConversions) :
      LetterOf l c (tvnpFmtParseInt h l unsigned) :=
    .other hc (isIntegerOrString_tvnpFmtParseInt h l unsigned)
  simp only [parserConversions, List.mem_cons, List.not_mem_nil, or_false] at hc
  rcases hc with rfl | rfl | rfl | rfl | rfl | rfl | rfl | rfl | rfl | rfl | rfl | rfl
  · exact ⟨'s', rfl, .other (by decide) (by decide)⟩
  · exact ⟨_, rfl, hint 'i' false (by decide)⟩
  · exact ⟨_, rfl, hint 'd' false (by decide)⟩
  · exact ⟨_, rfl, hint 'o' false (by decide)⟩
  · exact ⟨_, rfl, hint 'u' true (by decide)⟩
  · exact ⟨_, rfl, hint 'x' true (by decide)⟩
  · exact ⟨_, rfl, hint 'X' true (by decide)⟩
  · exact ⟨_, rfl, .other (by decide) (isIntegerOrString_tvnpFmtParseChar l)⟩
  · exact ⟨_, rfl, .float (by decide)⟩
  · exact ⟨_, rfl, .float (by decide)⟩
  · exact ⟨_, rfl, .float (by decide)⟩
  · exact ⟨_, rfl, .float (by decide)⟩

private theorem step_other {c : Char} (h l : UInt32) (hpercent : c ≠ '%')
    (hc : c ∉ parserConversions) :
    ∃ h', fmtParser.step (.waiting h l) c = (.waiting h' (countLength l c), []) := by
  by_cases hl : c = 'l'
  · subst hl
    exact ⟨h, rfl⟩
  by_cases hh : c = 'h'
  · subst hh
    exact ⟨h + 1, rfl⟩
  by_cases hlong : c ∈ longModifiers
  · refine ⟨h, ?_⟩
    fin_cases hlong <;> rfl
  · refine ⟨h, ?_⟩
    rw [countLength, if_neg hl, if_neg hlong]
    change tvnpFmtParseStep (.waiting h l) c = _
    unfold tvnpFmtParseStep FmtState.waiting
    dsimp only
    -- Only the default case is left.
    split
    all_goals first
      | contradiction
      | rfl

theorem written_waiting_conversion {c : Char} (h l : UInt32) (hc : c ∈ parserConversions) :
    ∃ letter, LetterOf l c letter ∧
      ∀ cs, written (.waiting h l) (c :: cs) = letter :: written .start cs := by
  obtain ⟨letter, hstep, hletter⟩ := step_conversion h l hc
  refine ⟨letter, hletter, fun cs => ?_⟩
  rw [written, fmtParser.output_cons, hstep, List.singleton_append]
  exact congrArg _ (written_idle rfl cs)

theorem written_waiting_other {c : Char} (h l : UInt32) (hpercent : c ≠ '%')
    (hc : c ∉ parserConversions) :
    ∃ h', ∀ cs, written (.waiting h l) (c :: cs) = written (.waiting h' (countLength l c)) cs := by
  obtain ⟨h', hstep⟩ := step_other h l hpercent hc
  refine ⟨h', fun cs => ?_⟩
  rw [written, fmtParser.output_cons, hstep, List.nil_append]

/-! ## Segments -/

theorem written_start_escape (cs : List Char) :
    written .start (Segment.escape.chars ++ cs) = written .start cs :=
  written_idle rfl cs

private theorem written_waiting_escape (h l : UInt32) (cs : List Char) :
    written (.waiting h l) (Segment.escape.chars ++ cs) = written (.waiting 0 0) cs :=
  rfl

private theorem written_waiting_text {text : List Char} (htext : '%' ∉ text) (h l : UInt32) :
    (∃ h' l', findConversion l text = (l', none) ∧
      ∀ cs, written (.waiting h l) (text ++ cs) = written (.waiting h' l') cs) ∨
    ∃ l' c letter, findConversion l text = (l', some c) ∧ LetterOf l' c letter ∧
      ∀ cs, written (.waiting h l) (text ++ cs) = letter :: written .start cs := by
  induction text generalizing h l with
  | nil => exact .inl ⟨h, l, rfl, fun _ => rfl⟩
  | cons c text ih =>
      rw [List.mem_cons, not_or] at htext
      by_cases hc : c ∈ parserConversions
      · obtain ⟨letter, hletter, hwritten⟩ := written_waiting_conversion h l hc
        refine .inr ⟨l, c, letter, by rw [findConversion, if_pos hc], hletter, fun cs => ?_⟩
        rw [List.cons_append, hwritten, written_start_text htext.2]
      · obtain ⟨h', hwritten⟩ := written_waiting_other h l (Ne.symm htext.1) hc
        simp only [findConversion, if_neg hc, List.cons_append, hwritten]
        exact ih htext.2 h' _

def neutralCharacters : List Char :=
  ['-', '+', ' ', '#', '.', '*', '0', '1', '2', '3', '4', '5', '6', '7', '8', '9']

theorem Amount.neutral (amount : Amount) : ∀ c ∈ amount.chars, c ∈ neutralCharacters := by
  have hdigit : ∀ d : Fin 10, Nat.digitChar d ∈ neutralCharacters := by decide
  cases amount with
  | digits ds =>
      intro c hc
      obtain ⟨d, -, rfl⟩ := List.mem_map.mp hc
      exact hdigit d
  | star => simp [Amount.chars, neutralCharacters]

theorem Flag.neutral (flags : List Flag) : ∀ c ∈ flags.map Flag.char, c ∈ neutralCharacters := by
  intro c hc
  obtain ⟨flag, -, rfl⟩ := List.mem_map.mp hc
  cases flag <;> decide

theorem Directive.amounts_neutral (d : Directive) : ∀ c ∈ d.amounts, c ∈ neutralCharacters := by
  intro c hc
  simp only [Directive.amounts, List.mem_append] at hc
  rcases hc with (hflag | hwidth) | hprecision
  · exact Flag.neutral d.flags c hflag
  · cases hd : d.width with
    | none => simp [hd] at hwidth
    | some amount =>
        rw [hd] at hwidth
        exact amount.neutral c hwidth
  · cases hd : d.precision with
    | none => simp [hd] at hprecision
    | some precision =>
        rw [hd, Option.elim_some, List.mem_cons] at hprecision
        rcases hprecision with rfl | hprecision
        · decide
        · cases precision with
          | none => simp at hprecision
          | some amount => exact amount.neutral c hprecision

theorem written_waiting_neutral {text : List Char} (h : ∀ c ∈ text, c ∈ neutralCharacters)
    (cs : List Char) : written (.waiting 0 0) (text ++ cs) = written (.waiting 0 0) cs := by
  induction text with
  | nil => rfl
  | cons c text ih =>
      have hneutral := h c (by simp)
      have hstep : fmtParser.step (.waiting 0 0) c = (.waiting 0 0, []) := by
        fin_cases hneutral <;> rfl
      rw [List.cons_append, written, fmtParser.output_cons, hstep, List.nil_append]
      exact ih fun c hc => h c (by simp [hc])

def Modifier.shorts : Modifier → UInt32
  | hh => 2
  | h => 1
  | _ => 0

theorem written_start_directive (d : Directive) (cs : List Char) :
    written .start (d.chars ++ cs) =
      written (.waiting d.modifier.shorts d.modifier.length) (d.conversion.char :: cs) := by
  have hmodifier (modifier : Modifier) (cs : List Char) :
      written (.waiting 0 0) (modifier.chars ++ cs) =
        written (.waiting modifier.shorts modifier.length) cs := by
    cases modifier <;> rfl
  have hchars : d.chars ++ cs =
      '%' :: (d.amounts ++ (d.modifier.chars ++ d.conversion.char :: cs)) := by
    simp [Directive.chars]
  calc written .start (d.chars ++ cs)
      = written (.waiting 0 0) (d.amounts ++ (d.modifier.chars ++ d.conversion.char :: cs)) := by
        rw [hchars]
        rfl
    _ = written (.waiting 0 0) (d.modifier.chars ++ d.conversion.char :: cs) :=
        written_waiting_neutral d.amounts_neutral _
    _ = _ := hmodifier _ _

private theorem written_waiting_directive (d : Directive) (h l : UInt32) (cs : List Char) :
    written (.waiting h l) (d.chars ++ cs) = written .start cs := by
  have hamounts : '%' ∉ d.amounts := fun hmem => by
    have := d.amounts_neutral _ hmem
    contradiction
  have hmodifier : '%' ∉ d.modifier.chars := by cases d.modifier <;> decide
  have hconversion : '%' ∉ [d.conversion.char] := by cases d.conversion <;> decide
  have hchars : d.chars ++ cs = '%' :: ((d.amounts ++ d.modifier.chars ++
      [d.conversion.char]) ++ cs) := by simp [Directive.chars]
  calc written (.waiting h l) (d.chars ++ cs)
      = written .start ((d.amounts ++ d.modifier.chars ++ [d.conversion.char]) ++ cs) := by
        rw [hchars]
        exact written_idle (s := ⟨false, h, l⟩) rfl _
    _ = written .start cs := written_start_text (by simp [hamounts, hmodifier, hconversion]) cs

/-! ## Directives -/

private theorem written_start_known (d : Directive) (hd : d.conversion.char ∈ parserConversions) :
    ∃ letter, (letterClass letter = argClass d.modifier d.conversion ↔ d.Known) ∧
      ∀ cs, written .start (d.chars ++ cs) = letter :: written .start cs := by
  have hstep : ∃ letter, (letterClass letter = argClass d.modifier d.conversion ↔ d.Known) ∧
      fmtParser.step (.waiting d.modifier.shorts d.modifier.length) d.conversion.char =
        (⟨false, d.modifier.shorts, d.modifier.length⟩, [letter]) := by
    obtain ⟨flags, width, precision, modifier, conversion⟩ := d
    cases conversion
    case g | G | a | A | p | n => contradiction
    all_goals
      cases modifier <;> exact ⟨_, by simp [Directive.Known]; decide, rfl⟩
  obtain ⟨letter, hclass, hstep⟩ := hstep
  refine ⟨letter, hclass, fun cs => ?_⟩
  rw [written_start_directive, written, fmtParser.output_cons, hstep, List.singleton_append]
  exact congrArg _ (written_idle rfl cs)

private theorem written_start_unknown (d : Directive) (hd : d.conversion.char ∉ parserConversions)
    (cs : List Char) :
    written .start (d.chars ++ cs) = written (.waiting d.modifier.shorts d.modifier.length) cs := by
  have hstep (h l : UInt32) :
      fmtParser.step (.waiting h l) d.conversion.char = (.waiting h l, []) := by
    cases hconversion : d.conversion
    case g | G | a | A | p | n => rfl
    all_goals
      rw [hconversion] at hd
      exact absurd (by decide) hd
  rw [written_start_directive, written, fmtParser.output_cons, hstep, List.nil_append]

theorem Directive.known_conversion {d : Directive} (h : d.Known) :
    d.conversion.char ∈ parserConversions := by
  unfold Directive.Known at h
  split at h
  all_goals first
    | contradiction
    | (next hconversion => rw [hconversion]; decide)

theorem Directive.unknownFloat_conversion {d : Directive} (h : d.UnknownFloat) :
    d.conversion.char ∉ parserConversions := by
  rcases h.1 with hd | hd | hd | hd <;> (rw [hd]; decide)

private theorem letterClass_eq_iff (d : Directive) (hd : d.conversion.char ∉ parserConversions)
    {l : UInt32} {c letter : Char} (h : LetterOf l c letter) :
    letterClass letter = argClass d.modifier d.conversion ↔
      d.UnknownFloat ∧ c ∈ floatConversions ∧ (l = 2 ↔ d.modifier = .L) := by
  have hcases : (d.UnknownFloat ∧ argClass d.modifier d.conversion =
        if d.modifier = .L then some .longDouble else some .double) ∨
      (¬ d.UnknownFloat ∧ (argClass d.modifier d.conversion = none ∨
        argClass d.modifier d.conversion = some .otherPointer)) := by
    obtain ⟨flags, width, precision, modifier, conversion⟩ := d
    cases conversion
    case g | G | a | A | p | n => cases modifier <;> simp [Directive.UnknownFloat, argClass]
    all_goals exact absurd (by simp [Conversion.char, parserConversions]) hd
  cases h with
  | float hc =>
      have hletter : letterClass (tvnpFmtParseFloat l) =
          if l = 2 then some .longDouble else some .double := by
        unfold tvnpFmtParseFloat
        split <;> rfl
      rcases hcases with ⟨hfloat, hclass⟩ | ⟨hfloat, hclass⟩
      · rw [hletter, hclass]
        by_cases hl : l = 2 <;> by_cases hm : d.modifier = .L <;> simp [hfloat, hc, hl, hm]
      · rw [hletter]
        by_cases hl : l = 2 <;> rcases hclass with hclass | hclass <;>
          simp [hclass, hfloat, hl]
  | other hc hletter =>
      rcases hcases with ⟨-, hclass⟩ | ⟨-, hclass⟩
      · rw [hclass]
        rcases hletter with hletter | hletter | hletter <;> by_cases hm : d.modifier = .L <;>
          simp [hletter, hc, hm]
      · rcases hletter with hletter | hletter | hletter <;> rcases hclass with hclass | hclass <;>
          simp [hclass, hletter, hc]

/-! ## Counting letters -/

def directiveCount : List Segment → Nat
  | [] => 0
  | .directive _ :: segments => directiveCount segments + 1
  | _ :: segments => directiveCount segments

private theorem length_written_le (segments : List Segment) :
    (written .start (format segments)).length ≤ directiveCount segments ∧
      ∀ h l, (written (.waiting h l) (format segments)).length ≤ directiveCount segments + 1 := by
  induction segments with
  | nil => simp [format]
  | cons segment segments ih =>
      obtain ⟨hstart, hwaiting⟩ := ih
      rw [format_cons]
      cases segment with
      | text t =>
          refine ⟨by rw [Segment.chars, written_start_text t.2.1]; exact hstart, fun h l => ?_⟩
          rcases written_waiting_text t.2.1 h l with
            ⟨h', l', -, hwritten⟩ | ⟨l', c, letter, -, -, hwritten⟩
          · rw [Segment.chars, hwritten]
            exact hwaiting h' l'
          · rw [Segment.chars, hwritten, List.length_cons]
            exact Nat.succ_le_succ hstart
      | escape =>
          refine ⟨by rw [written_start_escape]; exact hstart, fun h l => ?_⟩
          rw [written_waiting_escape]
          exact hwaiting 0 0
      | directive d =>
          constructor
          · by_cases hd : d.conversion.char ∈ parserConversions
            · obtain ⟨letter, -, hwritten⟩ := written_start_known d hd
              rw [Segment.chars, hwritten, List.length_cons]
              exact Nat.succ_le_succ hstart
            · rw [Segment.chars, written_start_unknown d hd]
              exact hwaiting _ _
          · intro h l
            rw [Segment.chars, written_waiting_directive, directiveCount]
            omega

private theorem written_waiting (segments : List Segment) (h l : UInt32) :
    (∃ l' c letter, LetterOf l' c letter ∧
      written (.waiting h l) (format segments) = letter :: written .start (format segments) ∧
      ∀ long, Rescued long l segments ↔ c ∈ floatConversions ∧ (l' = 2 ↔ long)) ∨
    ((∀ long, ¬ Rescued long l segments) ∧
      (written (.waiting h l) (format segments)).length ≤ directiveCount segments) := by
  induction segments generalizing h l with
  | nil => exact .inr ⟨fun long => by simp [Rescued], by simp [format]⟩
  | cons segment segments ih =>
      rw [format_cons]
      cases segment with
      | text t =>
          rw [Segment.chars, written_start_text t.2.1]
          rcases written_waiting_text t.2.1 h l with
            ⟨h', l', hfind, hwritten⟩ | ⟨l', c, letter, hfind, hletter, hwritten⟩
          · simp only [Rescued, hfind, hwritten]
            exact ih h' l'
          · refine .inl ⟨l', c, letter, hletter, hwritten _, fun long => ?_⟩
            simp only [Rescued, hfind]
      | escape =>
          rw [written_start_escape, written_waiting_escape]
          exact ih 0 0
      | directive d =>
          refine .inr ⟨fun long => by simp [Rescued], ?_⟩
          rw [Segment.chars, written_waiting_directive]
          exact (length_written_le segments).1.trans (Nat.le_succ _)

private theorem written_directive (d : Directive) (segments : List Segment) :
    (∃ letter, (letterClass letter = argClass d.modifier d.conversion ↔ d.Served segments) ∧
      written .start (format (.directive d :: segments)) =
        letter :: written .start (format segments)) ∨
    (¬ d.Served segments ∧
      (written .start (format (.directive d :: segments))).length ≤ directiveCount segments) := by
  rw [format_cons, Segment.chars]
  by_cases hd : d.conversion.char ∈ parserConversions
  · obtain ⟨letter, hclass, hwritten⟩ := written_start_known d hd
    refine .inl ⟨letter, hclass.trans ⟨.inl, ?_⟩, hwritten _⟩
    rintro (hknown | ⟨hfloat, -⟩)
    · exact hknown
    · exact absurd hd (Directive.unknownFloat_conversion hfloat)
  · have hunknown : ¬ d.Known := fun hknown => hd (Directive.known_conversion hknown)
    rw [written_start_unknown d hd]
    rcases written_waiting segments d.modifier.shorts d.modifier.length with
      ⟨l, c, letter, hletter, hwritten, hrescued⟩ | ⟨hrescued, hlength⟩
    · refine .inl ⟨letter, ?_, hwritten⟩
      rw [letterClass_eq_iff d hd hletter, Directive.Served, hrescued]
      simp [hunknown]
    · refine .inr ⟨?_, hlength⟩
      rintro (hknown | ⟨-, hserved⟩)
      · exact hunknown hknown
      · exact hrescued _ hserved

private theorem directiveCount_le {segments : List Segment} {classes : List ArgClass}
    (h : vprintfArgs segments = some classes) : directiveCount segments ≤ classes.length := by
  induction segments generalizing classes with
  | nil => exact Nat.zero_le _
  | cons segment segments ih =>
      cases segment with
      | text t => exact ih h
      | escape => exact ih h
      | directive d =>
          simp only [vprintfArgs, Option.bind_eq_bind, Option.bind_eq_some_iff,
            Option.some.injEq] at h
          obtain ⟨converted, -, rest, hrest, rfl⟩ := h
          have hle := ih hrest
          rw [directiveCount, List.length_append, List.length_cons]
          omega

theorem letterClass_of_mem {letter : Char} (h : letter ∈ typeLetters) :
    ∃ converted, letterClass letter = some converted := by
  fin_cases h <;> exact ⟨_, rfl⟩

private theorem listsArgs_iff (segments : List Segment) :
    ListsArgs (written .start (format segments)) segments ↔ Listable segments := by
  induction segments with
  | nil => exact ⟨fun _ => trivial, fun _ => ⟨[], rfl, rfl⟩⟩
  | cons segment segments ih =>
      cases segment with
      | text t =>
          rw [format_cons, Segment.chars, written_start_text t.2.1]
          exact ih
      | escape =>
          rw [format_cons, written_start_escape]
          exact ih
      | directive d =>
          rw [Listable, ← ih]
          constructor
          · rintro ⟨classes, hclasses, hletters⟩
            simp only [vprintfArgs, Option.bind_eq_bind, Option.bind_eq_some_iff,
              Option.some.injEq] at hclasses
            obtain ⟨converted, hconverted, rest, hrest, rfl⟩ := hclasses
            have hcount := directiveCount_le hrest
            have hbound := (length_written_le segments).1
            have hlength := congrArg List.length hletters
            simp only [List.length_map, List.length_append, List.length_cons] at hlength
            rcases written_directive d segments with ⟨letter, hserved, hwritten⟩ | ⟨-, hfew⟩
            · rw [hwritten, List.length_cons] at hlength
              have hstars : d.stars = [] := List.length_eq_zero_iff.mp (by omega)
              rw [hwritten, hstars, List.nil_append, List.map_cons, List.map_cons,
                List.cons.injEq, ← hconverted] at hletters
              exact ⟨hstars, hserved.mp hletters.1, rest, hrest, hletters.2⟩
            · omega
          · rintro ⟨hstars, hserved, rest, hrest, hletters⟩
            rcases written_directive d segments with ⟨letter, hclass, hwritten⟩ | ⟨hnot, -⟩
            · have hmem : letter ∈ (tvnpFmtParse (format (.directive d :: segments))).1 := by
                change letter ∈ written .start _
                simp [hwritten]
              obtain ⟨converted, hconverted⟩ := letterClass_of_mem (tvnpFmtParse_mem hmem)
              have hargs := (hclass.mpr hserved).symm.trans hconverted
              refine ⟨converted :: rest, ?_, ?_⟩
              · simp [vprintfArgs, hargs, hrest, hstars]
              · rw [hwritten, List.map_cons, hletters, hconverted, List.map_cons]
            · exact absurd hserved hnot

/-! ## What the receiver builds -/

section Receiver

variable {undefined : Binary64 → Int} {indeterminate : TvnpToken}

private theorem letterClass_of_vaSlot {c : Char} {token : TvnpToken} {slot : VaSlot}
    (h : vaSlot undefined c token = some slot) : letterClass c = some slot.argClass := by
  unfold vaSlot at h
  split at h
  · next type htype =>
      obtain ⟨value, -, rfl⟩ := Option.map_eq_some_iff.mp h
      unfold promotedLetter at htype
      split at htype
      all_goals
        cases htype
        try rfl
  · split at h
    all_goals
      cases h
      try rfl

private theorem letterClass_of_tvnpPickleToVaLoop {types : List Char} {b final : TvuBuffer}
    {ap : List VaSlot}
    (h : tvnpPickleToVaLoop undefined indeterminate types b = some (some ap, final)) :
    types.map letterClass = (ap.map VaSlot.argClass).map some := by
  induction types generalizing b ap final with
  | nil =>
      cases h
      rfl
  | cons c types ih =>
      obtain ⟨token, b', slot, rest, -, hslot, hrest, rfl⟩ := tvnpPickleToVaLoop_cases h
      rw [List.map_cons, letterClass_of_vaSlot hslot, ih hrest]
      rfl

private theorem letterClass_of_tvnpPickleToVa {b final : TvuBuffer} {p : Nat} {fmt : List UInt8}
    {ap : List VaSlot}
    (h : tvnpPickleToVa undefined indeterminate b = some (some (p, ap), final))
    (hfmt : cString b.data p = some fmt) :
    (tvnpFmtParse (fmt.map Char.ofUInt8)).1.map letterClass =
      (ap.map VaSlot.argClass).map some := by
  obtain ⟨token, b', fmt', htoken, htype, rfl, hfmt', hrun⟩ := tvnpPickleToVa_cases h
  obtain ⟨-, hdata, -⟩ := tvnpDecodeToken_some htoken (by simp [htype])
  rw [hdata, hfmt] at hfmt'
  cases hfmt'
  exact letterClass_of_tvnpPickleToVaLoop hrun

end Receiver

theorem formatSound_iff (segments : List Segment) : FormatSound segments ↔ Listable segments := by
  rw [← listsArgs_iff]
  constructor
  · intro hsound
    cases hsound.parsed with
    | inl hlists => exact hlists.2
    | inr hrejected => contradiction
  · intro hlists
    refine ⟨.inl ⟨rfl, hlists⟩, ?_⟩
    intro undefined indeterminate buffer final p fmt ap _ hrun hfmt hformat
    obtain ⟨classes, hclasses, hletters⟩ := hlists
    have hslots := letterClass_of_tvnpPickleToVa hrun hfmt
    rw [hformat] at hslots
    have hsame : classes.map some = (ap.map VaSlot.argClass).map some :=
      hletters.symm.trans hslots
    have heq := (List.map_injective_iff.mpr (Option.some_injective _)) hsame
    exact ⟨classes, hclasses, heq ▸ List.prefix_refl _⟩

def generalFormat : List Segment := [.directive ⟨[], none, none, .none, .g⟩]

def generalCall : TvuBuffer := ⟨[0x82, 0x25, 0x67, 0], 0, by decide, TvuBuffer.start_lt⟩

/-- The `double` that `vprintf` takes for `%g` is missing, also from what is received. -/
theorem not_formatSound_generalFormat :
    format generalFormat = ['%', 'g'] ∧ vprintfArgs generalFormat = some [.double] ∧
      tvnpFmtParse (format generalFormat) = ([], 0) ∧
      tvnpPickleToVa (fun _ => 0) .zeroFilled generalCall =
        some (some (1, []), generalCall.skip 4) ∧
      ¬ FormatSound generalFormat := by
  refine ⟨by decide, by decide, by decide, rfl, fun hsound => ?_⟩
  cases hsound.parsed with
  | inl hlists =>
      obtain ⟨classes, hclasses, hletters⟩ := hlists.2
      obtain rfl : [.double] = classes := Option.some.inj hclasses
      contradiction
  | inr hrejected => contradiction

end Libtvnet
