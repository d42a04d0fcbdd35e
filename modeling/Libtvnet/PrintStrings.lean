import Libtvnet.PicklePrint
import Libtvnet.DecodeBounds

/-!
# The strings of a received call

`vsnprintf` reads a string up to its NUL.  The token for `%s` may be a string
of either kind, and a binary string has no terminator of its own: it ends
where some later byte of the buffer happens to be zero, or not at all.
-/

namespace Libtvnet

open Libtvnet.Foundation

def StringsTerminated (b : TvuBuffer) (ap : List VaSlot) : Prop :=
  ∀ q, VaSlot.data q ∈ ap → ∃ s, cString b.data q = some s

def TvnpToken.IsString (token : TvnpToken) : Prop :=
  token.type = .tokenUtf8String ∨ token.type = .tokenBinString

instance (token : TvnpToken) : Decidable token.IsString := inferInstanceAs (Decidable (_ ∨ _))

section LastString

variable (indeterminate : TvnpToken)

def lastString : List Char → TvuBuffer → Option Nat
  | [], _ => none
  | c :: types, b => do
      let (token, b') ← tvnpDecodeToken indeterminate b
      match lastString types b' with
      | some p => some p
      | none => if c = 's' ∧ token.IsString then some token.data else none

def LastStringTerminated (b : TvuBuffer) : Prop :=
  ∀ token b' fmt p, tvnpDecodeToken indeterminate b = some (token, b') →
    cString b.data token.data = some fmt →
    lastString indeterminate (tvnpFmtParse (fmt.map Char.ofUInt8)).1 b' = some p →
    0 ∈ b.data.drop p

end LastString

/-! ## C strings -/

private theorem exists_cString_iff {data : List UInt8} {p : Nat} :
    (∃ s, cString data p = some s) ↔ 0 ∈ data.drop p := by
  unfold cString
  split <;> simp [*]

private theorem zero_mem_drop_of_le {data : List UInt8} {p q : Nat} (hle : q ≤ p)
    (h : 0 ∈ data.drop p) : 0 ∈ data.drop q :=
  (List.drop_sublist_drop_left data hle).subset h

/-! ## Slots -/

section Slots

variable {undefined : Binary64 → Int} {indeterminate token : TvnpToken} {c : Char}
  {slot : VaSlot} {b b' : TvuBuffer}

private theorem vaSlot_eq_data {q : Nat} :
    vaSlot undefined c token = some (.data q) ↔ c = 's' ∧ token.IsString ∧ token.data = q := by
  constructor
  · intro h
    unfold vaSlot at h
    split at h
    · obtain ⟨value, -, hslot⟩ := Option.map_eq_some_iff.mp h
      contradiction
    · split at h
      case h_7 hutf8 _ =>
        cases h
        exact ⟨rfl, .inl hutf8, rfl⟩
      case h_8 hbinary _ =>
        cases h
        exact ⟨rfl, .inr hbinary, rfl⟩
      all_goals cases h
  · rintro ⟨rfl, htype | htype, rfl⟩ <;> simp [vaSlot, promotedLetter, htype]

private theorem type_of_vaSlot (h : vaSlot undefined c token = some slot) :
    token.type ≠ .tokenEnd ∧ token.type ≠ .tokenError := by
  cases htype : token.type with
  | tokenEnd | tokenError =>
      simp only [vaSlot, TvnpToken.toInteger, htype, Option.map_none] at h
      split at h <;> contradiction
  | _ => simp

private theorem advance_of_vaSlot (hrun : tvnpDecodeToken indeterminate b = some (token, b'))
    (hslot : vaSlot undefined c token = some slot) :
    b.offset < b'.offset ∧
      (token.IsString → b.offset < token.data ∧ token.data ≤ b'.offset) := by
  obtain ⟨hend, herror⟩ := type_of_vaSlot hslot
  obtain ⟨-, -, houtcome⟩ := tvnpDecodeToken_some hrun hend
  unfold TvnpToken.IsString
  split at houtcome
  · contradiction
  · contradiction
  · omega
  · omega
  · next hutf8 hbinary =>
      refine ⟨houtcome.1, ?_⟩
      rintro (htype | htype)
      · exact absurd htype hutf8
      · exact absurd htype hbinary

private theorem lastString_of_tvnpPickleToVaLoop {types : List Char} {final : TvuBuffer}
    {ap : List VaSlot}
    (h : tvnpPickleToVaLoop undefined indeterminate types b = some (some ap, final)) :
    (∀ q, VaSlot.data q ∈ ap →
        b.offset < q ∧ ∃ p, lastString indeterminate types b = some p ∧ q ≤ p) ∧
      ∀ p, lastString indeterminate types b = some p → VaSlot.data p ∈ ap := by
  induction types generalizing b ap with
  | nil =>
      cases h
      simp [lastString]
  | cons c types ih =>
      obtain ⟨token, b', slot, rest, htoken, hslot, hrest, rfl⟩ := tvnpPickleToVaLoop_cases h
      obtain ⟨hbefore, hlast⟩ := ih hrest
      obtain ⟨hadvance, hspan⟩ := advance_of_vaSlot htoken hslot
      have hstep : lastString indeterminate (c :: types) b =
          match lastString indeterminate types b' with
          | some p => some p
          | none => if c = 's' ∧ token.IsString then some token.data else none := by
        rw [lastString, htoken]
        rfl
      rw [hstep]
      constructor
      · intro q hq
        cases List.mem_cons.mp hq with
        | inl hfirst =>
            obtain ⟨hc, hstring, rfl⟩ := vaSlot_eq_data.mp (hfirst ▸ hslot)
            refine ⟨(hspan hstring).1, ?_⟩
            cases hlater : lastString indeterminate types b' with
            | none => exact ⟨token.data, if_pos ⟨hc, hstring⟩, le_refl _⟩
            | some p =>
                have hp := (hbefore p (hlast p hlater)).1
                exact ⟨p, rfl, (hspan hstring).2.trans hp.le⟩
        | inr hlater =>
            obtain ⟨hq, p, hp, hle⟩ := hbefore q hlater
            exact ⟨hadvance.trans hq, p, by rw [hp], hle⟩
      · intro p hp
        cases hlater : lastString indeterminate types b' with
        | some p' =>
            rw [hlater] at hp
            cases hp
            exact List.mem_cons_of_mem _ (hlast p hlater)
        | none =>
            rw [hlater] at hp
            simp only [Option.ite_none_right_eq_some, Option.some.injEq] at hp
            obtain ⟨⟨hc, hstring⟩, hdata⟩ := hp
            rw [vaSlot_eq_data.mpr ⟨hc, hstring, hdata⟩] at hslot
            obtain rfl := Option.some.inj hslot
            exact List.mem_cons_self

end Slots

/-! ## The exact condition -/

theorem stringsTerminated_iff {undefined : Binary64 → Int} {indeterminate : TvnpToken}
    {b final : TvuBuffer} {p : Nat} {ap : List VaSlot}
    (h : tvnpPickleToVa undefined indeterminate b = some (some (p, ap), final)) :
    StringsTerminated b ap ↔ LastStringTerminated indeterminate b := by
  obtain ⟨token, b', fmt, htoken, htype, rfl, hfmt, hrun⟩ := tvnpPickleToVa_cases h
  obtain ⟨-, hdata, -⟩ := tvnpDecodeToken_some htoken (by simp [htype])
  obtain ⟨hbefore, hlast⟩ := lastString_of_tvnpPickleToVaLoop hrun
  rw [hdata] at hfmt
  constructor
  · intro hterminated token' c fmt' q htoken' hfmt' hq
    rw [htoken] at htoken'
    cases htoken'
    rw [hfmt] at hfmt'
    cases hfmt'
    exact exists_cString_iff.mp (hterminated q (hlast q hq))
  · intro hcondition q hq
    obtain ⟨-, last, hlastString, hle⟩ := hbefore q hq
    have hzero := hcondition token b' fmt last htoken hfmt hlastString
    exact exists_cString_iff.mpr (zero_mem_drop_of_le hle hzero)

def binaryCall : TvuBuffer := ⟨[0x82, 0x25, 0x73, 0, 0xa1, 0x41], 0, by decide, TvuBuffer.start_lt⟩

def utf8Call : TvuBuffer := ⟨[0x82, 0x25, 0x73, 0, 0x81, 0x41, 0], 0, by decide, TvuBuffer.start_lt⟩

theorem stringsTerminated_utf8Call :
    StringsTerminated utf8Call [.data 5] ↔ LastStringTerminated .zeroFilled utf8Call :=
  have h : tvnpPickleToVa (fun _ => 0) .zeroFilled utf8Call =
      some (some (1, [.data 5]), utf8Call.skip 7) := rfl
  stringsTerminated_iff h

theorem not_stringsTerminated_binaryCall :
    tvnpPickleToVa (fun _ => 0) .zeroFilled binaryCall =
        some (some (1, [.data 5]), binaryCall.skip 6) ∧
      ¬ StringsTerminated binaryCall [.data 5] := by
  refine ⟨rfl, fun hterminated => ?_⟩
  have hzero := exists_cString_iff.mp (hterminated 5 List.mem_cons_self)
  exact absurd hzero (by decide)

end Libtvnet
