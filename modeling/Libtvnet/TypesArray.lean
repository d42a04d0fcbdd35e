import Libtvnet.FormatSound

/-!
# The array for the type string

`tvnp_fmt_parse` writes its letters and a NUL into an array of its caller, who
has counted the percent signs of the format for it.  A directive that ends at
a conversion has a letter; one that ends at a percent sign or at the end of
the format has none.
-/

namespace Libtvnet

open Libtvnet.Foundation

def tvuCountCharacter (s : List Char) (c : Char) : Nat := s.count c

def typesStored (fmt : List Char) : List Char := (tvnpFmtParse fmt).1 ++ ['\x00']

/-- The array of `tvnp_vapprintf`. -/
def vapprintfTypesSize (fmt : List Char) : Nat := tvuCountCharacter fmt '%' + 1

/-- The array of `tvnl_vmessage`. -/
def vmessageTypesSize (fmt : List Char) : Nat := tvuCountCharacter fmt '%' + 1

/-- The array of `tvnp_pickle_to_va`. -/
def pickleToVaTypesSize (fmt : List Char) : Nat := tvuCountCharacter fmt '%'

structure TypesFit (fmt : CString) : Prop where
  vapprintf : (typesStored fmt.chars).length ≤ vapprintfTypesSize fmt.chars
  vmessage : (typesStored fmt.chars).length ≤ vmessageTypesSize fmt.chars
  pickleToVa : (typesStored fmt.chars).length ≤ pickleToVaTypesSize fmt.chars

/-! ## Letters and percent signs -/

/-- No conversion stands before the next percent sign or the end. -/
def Unconverted (text : List Char) : Prop :=
  ∀ c ∈ text.takeWhile (· ≠ '%'), c ∉ parserConversions

/-- Some percent sign of the text is followed by no conversion of its own. -/
def HasUnconverted (text : List Char) : Prop :=
  ∃ before after, text = before ++ '%' :: after ∧ Unconverted after

private theorem unconverted_nil : Unconverted [] := by simp [Unconverted]

private theorem unconverted_percent (text : List Char) : Unconverted ('%' :: text) := by
  simp [Unconverted]

private theorem unconverted_cons {c : Char} (hc : c ≠ '%') (text : List Char) :
    Unconverted (c :: text) ↔ c ∉ parserConversions ∧ Unconverted text := by
  simp [Unconverted, hc]

private theorem not_hasUnconverted_nil : ¬ HasUnconverted [] := by
  rintro ⟨before, after, h, -⟩
  simp at h

private theorem hasUnconverted_cons (c : Char) (text : List Char) :
    HasUnconverted (c :: text) ↔ (c = '%' ∧ Unconverted text) ∨ HasUnconverted text := by
  constructor
  · rintro ⟨before, after, h, hafter⟩
    cases before with
    | nil =>
        obtain ⟨rfl, rfl⟩ := List.cons.inj h
        exact .inl ⟨rfl, hafter⟩
    | cons first before =>
        obtain ⟨rfl, rfl⟩ := List.cons.inj h
        exact .inr ⟨before, after, rfl, hafter⟩
  · rintro (⟨rfl, htext⟩ | ⟨before, after, rfl, hafter⟩)
    · exact ⟨[], text, rfl, htext⟩
    · exact ⟨c :: before, after, rfl, hafter⟩

private theorem length_written_le_count (s : FmtState) (cs : List Char) :
    (written s cs).length ≤ s.credit + cs.count '%' := by
  have hstep (s : FmtState) (c : Char) :
      1 * (fmtParser.step s c).2.length + (fmtParser.step s c).1.credit ≤
        s.credit + if c = '%' then 1 else 0 := by
    obtain ⟨format, h, l⟩ := s
    unfold fmtParser tvnpFmtParseStep
    cases format with
    | false => by_cases hc : c = '%' <;> simp [FmtState.credit, hc]
    | true =>
        dsimp only
        split <;> simp [FmtState.credit]
  have hbound := fmtParser.length_output_le FmtState.credit _ hstep s cs
  have hprice : (cs.map fun c => if c = '%' then 1 else 0).sum = cs.count '%' := by
    clear hbound
    induction cs with
    | nil => rfl
    | cons c cs ih =>
        rw [List.map_cons, List.sum_cons, ih]
        by_cases hc : c = '%' <;> simp [hc, Nat.add_comm]
  rw [hprice] at hbound
  change (fmtParser.output s cs).length ≤ _
  omega

private theorem length_written_lt_iff (s : FmtState) (cs : List Char) :
    (written s cs).length < s.credit + cs.count '%' ↔
      (s.format = true ∧ Unconverted cs) ∨ HasUnconverted cs := by
  induction cs generalizing s with
  | nil =>
      obtain ⟨format, h, l⟩ := s
      cases format <;> simp [FmtState.credit, unconverted_nil, not_hasUnconverted_nil]
  | cons c cs ih =>
      obtain ⟨format, h, l⟩ := s
      rw [hasUnconverted_cons]
      cases format with
      | false =>
          by_cases hpercent : c = '%'
          · subst hpercent
            have hnext := ih (.waiting 0 0)
            have hopen : written ⟨false, h, l⟩ ('%' :: cs) = written (.waiting 0 0) cs := rfl
            rw [hopen]
            simpa [FmtState.credit, FmtState.waiting, Nat.add_comm] using hnext
          · have hnext := ih .start
            have hopen : written ⟨false, h, l⟩ (c :: cs) = written .start cs :=
              (written_idle rfl _).trans (written_start_cons hpercent cs)
            rw [hopen]
            simpa [FmtState.credit, FmtState.start, hpercent] using hnext
      | true =>
          by_cases hpercent : c = '%'
          · -- The percent sign ends a directive that has written nothing.
            subst hpercent
            have hbound := length_written_le_count .start cs
            have hclose : written ⟨true, h, l⟩ ('%' :: cs) = written .start cs :=
              written_idle rfl cs
            have hcredit : FmtState.credit .start = 0 := rfl
            rw [hclose, List.count_cons_self]
            exact iff_of_true (by rw [hcredit] at hbound; omega)
              (.inl ⟨rfl, unconverted_percent cs⟩)
          rw [unconverted_cons hpercent, List.count_cons_of_ne hpercent]
          by_cases hc : c ∈ parserConversions
          · obtain ⟨letter, -, hwritten⟩ := written_waiting_conversion h l hc
            have hnext := ih .start
            have hopen : written ⟨true, h, l⟩ (c :: cs) = letter :: written .start cs :=
              hwritten cs
            rw [hopen, List.length_cons]
            simpa [FmtState.credit, FmtState.start, hpercent, hc, Nat.add_comm,
              Nat.lt_iff_add_one_le] using hnext
          · obtain ⟨h', hwritten⟩ := written_waiting_other h l hpercent hc
            have hnext := ih (.waiting h' (countLength l c))
            have hopen : written ⟨true, h, l⟩ (c :: cs) =
                written (.waiting h' (countLength l c)) cs := hwritten cs
            rw [hopen]
            simpa [FmtState.credit, FmtState.waiting, hpercent, hc] using hnext

/-! ## The three arrays -/

private theorem length_typesStored (fmt : List Char) :
    (typesStored fmt).length = (tvnpFmtParse fmt).1.length + 1 := by
  simp [typesStored]

private theorem length_typesStored_le (fmt : List Char) :
    (typesStored fmt).length ≤ tvuCountCharacter fmt '%' + 1 := by
  have hbound := length_written_le_count .start fmt
  have hcredit : FmtState.credit .start = 0 := rfl
  rw [hcredit, Nat.zero_add] at hbound
  rw [length_typesStored]
  exact Nat.succ_le_succ hbound

theorem typesFit_iff (fmt : CString) : TypesFit fmt ↔ HasUnconverted fmt.chars := by
  have hstrict := length_written_lt_iff .start fmt.chars
  have hcredit : FmtState.credit .start = 0 := rfl
  have hidle : FmtState.start.format = false := rfl
  simp only [hcredit, hidle, Nat.zero_add, Bool.false_eq_true, false_and, false_or] at hstrict
  rw [← hstrict]
  constructor
  · intro hfit
    have hroom := hfit.pickleToVa
    rw [length_typesStored] at hroom
    exact hroom
  · intro hlt
    refine ⟨length_typesStored_le _, length_typesStored_le _, ?_⟩
    rw [length_typesStored]
    exact hlt

def decimalFormat : CString := ⟨[0x25, 0x64], by decide⟩

theorem not_typesFit_decimalFormat : ¬ TypesFit decimalFormat := fun hfit =>
  absurd hfit.pickleToVa (by decide)

end Libtvnet
