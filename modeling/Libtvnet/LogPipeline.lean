import Libtvnet.Log

/-!
# From the sender to the log server

The header comes back for every message, and so do the format and all
arguments but the doubles that do not survive as an integer.
-/

namespace Libtvnet

open Libtvnet.Foundation

/-- The strings of the call fit a 32-bit header, and its arguments are those of its format. -/
structure LogCall.Proper (call : LogCall) : Prop where
  service : call.tvnInfo.service.1.length < 2 ^ 32
  filename : call.filename.1.length < 2 ^ 32
  fmt : call.fmt.1.length < 2 ^ 32
  matching : Matching call.types call.ap
  not_long : 'G' ∉ call.types

/-- No double argument is infinite, or integral outside of the limits of `int64_t`. -/
def LogCall.DoublesFit (call : LogCall) : Prop :=
  ∀ x, VaArg.float64 x ∈ call.ap → x.isNaN = true ∨ FitsInt64 x

theorem header_letterPairs : List.Forall₂ LetterPair headerTypes headerTypes := by
  have hq : LetterPair 'q' 'q' := .integer rfl rfl fun _ hi => hi
  exact .cons hq (.cons hq (.cons hq (.cons hq (.cons hq (.cons .string (.cons hq
    (.cons .string (.cons hq .nil))))))))

theorem LogCall.headerArgs_inRange {call : LogCall}
    (hservice : call.tvnInfo.service.1.length < 2 ^ 32)
    (hfilename : call.filename.1.length < 2 ^ 32) :
    List.Forall₂ VaArg.InRange headerTypes call.headerArgs := by
  have hinteger (bits : BitVec 64) : VaArg.InRange 'q' (.gp64 bits) := by
    refine ⟨.inl rfl, fun type x htype hx => ?_⟩
    cases htype
    cases hx
    have hlo := bits.le_toInt
    have hhi := bits.toInt_lt
    exact IntegerType.holds_signed.mpr (by omega)
  have hstring (s : CString) (hs : s.1.length < 2 ^ 32) : VaArg.InRange 's' (.string s) :=
    ⟨⟨rfl, hs⟩, fun type x htype => nomatch htype⟩
  exact .cons (hinteger _) (.cons (hinteger _) (.cons (hinteger _) (.cons (hinteger _)
    (.cons (hinteger _) (.cons (hstring _ hservice) (.cons (hinteger _)
      (.cons (hstring _ hfilename) (.cons (hinteger _) .nil))))))))

namespace LogCall.Proper

variable {call : LogCall}

/-! ## The size -/

theorem headerArgs_inRange (h : call.Proper) :
    List.Forall₂ VaArg.InRange headerTypes call.headerArgs :=
  LogCall.headerArgs_inRange h.service h.filename

private theorem header_matching (h : call.Proper) : Matching headerTypes call.headerArgs :=
  h.headerArgs_inRange.imp fun _ _ harg => harg.1

theorem length_packet_le (h : call.Proper) (undefined : Binary64 → Int) :
    (wire (call.packetTokens undefined)).length ≤ (10 + call.types.length) * (2 ^ 32 + 5) := by
  have hvalid : ∀ t ∈ call.packetTokens undefined, t.Valid := by
    intro t ht
    rw [LogCall.packetTokens, List.mem_append] at ht
    cases ht with
    | inl hheader => exact vaTokens_valid h.header_matching t hheader
    | inr hcall =>
        cases List.mem_cons.mp hcall with
        | inl heq => exact heq ▸ h.fmt
        | inr hmem => exact vaTokens_valid h.matching t hmem
  have hcount : (call.packetTokens undefined).length = 10 + call.types.length := by
    rw [LogCall.packetTokens, callTokens, List.length_append, List.length_cons,
      LogCall.headerTokens, vaTokens, vaTokens, List.length_zipWith, List.length_zipWith,
      ← h.header_matching.length_eq, ← h.matching.length_eq, min_self, min_self]
    simp only [headerTypes, List.length_cons, List.length_nil]
    omega
  exact hcount ▸ length_wire_le hvalid

theorem length_packet_lt (h : call.Proper) (undefined : Binary64 → Int) :
    (wire (call.packetTokens undefined)).length < 2 ^ 64 := by
  have htotal := h.length_packet_le undefined
  have hletters := two_mul_length_tvnpFmtParse_le call.fmt.chars
  have hchars : call.fmt.chars.length = call.fmt.1.length := List.length_map _
  have hfmt := h.fmt
  rw [LogCall.types] at htotal
  omega

theorem tvnlVmessageSize_eq (h : call.Proper) (undefined : Binary64 → Int) :
    tvnlVmessageSize undefined call call.types =
      some (UInt64.ofNat (wire (call.packetTokens undefined)).length) := by
  rw [tvnlVmessageSize, tvnpVlength_eq h.header_matching, tvnpVpprintfLen_eq _ _ h.matching,
    LogCall.packetTokens, wire_append, List.length_append, UInt64.ofNat_add]
  rfl

/-! ## The packet -/

theorem tvnlVmessage_eq (h : call.Proper) {undefined : Binary64 → Int}
    {tvuRingHead : UInt64 → Option TvuBuffer} {packet : TvuBuffer}
    (hring : tvuRingHead (UInt64.ofNat (wire (call.packetTokens undefined)).length) =
      some packet) :
    tvnlVmessage undefined tvuRingHead call =
      (packet.append (wire (call.packetTokens undefined))).map some := by
  have hheader : tvnpVencode undefined packet headerTypes call.headerArgs =
      (packet.append (wire (call.headerTokens undefined))).map fun c => (0, c) :=
    tvnpVencode_eq packet h.header_matching (by decide)
  have hmessage (b : TvuBuffer) : tvnpVpprintf undefined b call.types call.fmt call.ap =
      b.append (wire (callTokens undefined call.types call.fmt call.ap)) :=
    tvnpVpprintf_eq b h.matching h.fmt h.not_long
  change (tvnlVmessageSize undefined call call.types).bind _ = _
  rw [h.tvnlVmessageSize_eq, Option.bind_some, hring]
  simp only [Option.bind_eq_bind, hheader, Option.bind_map]
  rw [LogCall.packetTokens, wire_append, ← TvuBuffer.append_append, Option.map_bind]
  refine Option.bind_congr fun b _ => ?_
  change (tvnpVpprintf undefined b call.types call.fmt call.ap).bind _ = _
  rw [hmessage]
  exact Option.map_eq_bind.symm

theorem packetCarries_received (h : call.Proper) {undefined : Binary64 → Int}
    (indeterminate : TvnpToken) {tvuRingHead : UInt64 → Option TvuBuffer}
    (hring : RingServes tvuRingHead call undefined) :
    PacketCarries tvuRingHead call (fun data c arg slot => slot.Received undefined data c arg)
      undefined indeterminate := by
  have hsize := h.tvnlVmessageSize_eq undefined
  obtain ⟨packet, hpacket, hstart, hblock⟩ := hring _ hsize
  rw [UInt64.toNat_ofNat_of_lt' (h.length_packet_lt undefined)] at hblock
  have hroom : packet.offset + (wire (call.packetTokens undefined)).length ≤ packet.size := by
    omega
  obtain ⟨written, hwritten, hoffset, -⟩ := TvuBuffer.append_eq_some hroom
  have hrest : written.rewind.rest =
      wire (call.packetTokens undefined) ++ written.data.drop written.offset :=
    TvuBuffer.rest_of_append hwritten hstart.symm rfl
  rw [LogCall.packetTokens, wire_append, List.append_assoc] at hrest
  have hheaderRoom : packet.offset + (wire (call.headerTokens undefined)).length ≤
      packet.size := by
    rw [LogCall.packetTokens, wire_append, List.length_append] at hroom
    omega
  obtain ⟨header, hheader, hheaderOffset, -⟩ := TvuBuffer.append_eq_some hheaderRoom
  obtain ⟨outputs, hdecode, houtputs⟩ :=
    tvnpVdecode_wire_agrees indeterminate header_letterPairs h.headerArgs_inRange hrest
  obtain ⟨p, slots, hcall, hfmt, hslots⟩ :=
    tvnpPickleToVa_wire indeterminate h.fmt h.matching h.not_long (TvuBuffer.rest_skip hrest)
  refine ⟨_, packet, header, written, hsize, hpacket, ?_, ?_, ?_,
    outputs, _, p, slots, _, hdecode, houtputs, ?_, hcall, hfmt, hslots⟩
  · rw [tvnpVencode_eq packet h.header_matching (by decide)]
    exact congrArg (Option.map fun c => (0, c)) hheader
  · rw [h.tvnlVmessage_eq hpacket, hwritten, Option.map_some]
  · rw [UInt64.toNat_ofNat_of_lt' (h.length_packet_lt undefined), hoffset, hstart, Nat.zero_add]
  · have hlength := congrArg List.length hrest
    rw [TvuBuffer.length_rest, List.length_append, TvuBuffer.offset_rewind] at hlength
    rw [TvuBuffer.offset_skip_of_le, hheaderOffset, hstart, TvuBuffer.offset_rewind]
    · rfl
    · rw [TvuBuffer.offset_rewind]
      change 0 + (wire (call.headerTokens undefined)).length ≤ _
      change _ = (wire (call.headerTokens undefined)).length + _ at hlength
      omega

end LogCall.Proper

/-! ## Relations between an argument and its slot -/

section Relations

variable {undefined : Binary64 → Int} {indeterminate : TvnpToken}
  {tvuRingHead : UInt64 → Option TvuBuffer} {call : LogCall}
  {R S : List UInt8 → Char → VaArg → VaSlot → Prop}

theorem PacketCarries.and (h : PacketCarries tvuRingHead call R undefined indeterminate)
    (h' : PacketCarries tvuRingHead call S undefined indeterminate) :
    PacketCarries tvuRingHead call (fun data c arg slot => R data c arg slot ∧ S data c arg slot)
      undefined indeterminate := by
  obtain ⟨size, packet, header, written, hsize, hpacket, hheader, hwritten, hoffset,
    outputs, message, p, slots, final, hdecode, houtputs, hmessage, hcall, hfmt, hslots⟩ := h
  obtain ⟨size', packet', header', written', -, -, -, hwritten', -,
    outputs', message', p', slots', final', hdecode', -, -, hcall', -, hslots'⟩ := h'
  rw [hwritten] at hwritten'
  cases hwritten'
  rw [hdecode] at hdecode'
  cases hdecode'
  rw [hcall] at hcall'
  cases hcall'
  refine ⟨size, packet, header, written, hsize, hpacket, hheader, hwritten, hoffset,
    outputs, message, p, slots, final, hdecode, houtputs, hmessage, hcall, hfmt, ?_⟩
  exact List.Forall₂.mp (fun _ _ hR hS => ⟨hR, hS⟩) hslots hslots'

theorem PacketCarries.imp (h : PacketCarries tvuRingHead call R undefined indeterminate)
    (himp : ∀ data c arg slot, arg ∈ call.ap → R data c arg slot → S data c arg slot) :
    PacketCarries tvuRingHead call S undefined indeterminate := by
  obtain ⟨size, packet, header, written, hsize, hpacket, hheader, hwritten, hoffset,
    outputs, message, p, slots, final, hdecode, houtputs, hmessage, hcall, hfmt, hslots⟩ := h
  refine ⟨size, packet, header, written, hsize, hpacket, hheader, hwritten, hoffset,
    outputs, message, p, slots, final, hdecode, houtputs, hmessage, hcall, hfmt, ?_⟩
  have hmem : ∀ pair ∈ call.types.zip call.ap, pair.2 ∈ call.ap := fun pair hpair =>
    (List.of_mem_zip hpair).2
  have hall := (List.forall₂_and_left _ _).mpr ⟨hmem, hslots⟩
  exact hall.imp fun pair slot hpair => himp _ pair.1 pair.2 slot hpair.1 hpair.2

theorem PacketCarries.exists_slot (hproper : call.Proper)
    (h : PacketCarries tvuRingHead call R undefined indeterminate) {arg : VaArg}
    (harg : arg ∈ call.ap) : ∃ data c slot, R data c arg slot := by
  obtain ⟨size, packet, header, written, hsize, hpacket, hheader, hwritten, hoffset,
    outputs, message, p, slots, final, hdecode, houtputs, hmessage, hcall, hfmt, hslots⟩ := h
  have hargs : (call.types.zip call.ap).map Prod.snd = call.ap :=
    List.map_snd_zip hproper.matching.length_eq.ge
  rw [← hargs, List.mem_map] at harg
  obtain ⟨pair, hpair, rfl⟩ := harg
  obtain ⟨i, hi, rfl⟩ := List.mem_iff_getElem.mp hpair
  have hslot := List.Forall₂.get hslots hi (hslots.length_eq ▸ hi)
  exact ⟨_, _, _, hslot⟩

end Relations

/-! ## The exact condition -/

section Condition

variable {tvuRingHead : UInt64 → Option TvuBuffer} {call : LogCall}

theorem VaArg.value_float64 (x : Binary64) (c : Char) : (VaArg.float64 x).value c = none := by
  unfold VaArg.value vaInteger
  split <;> rfl

private theorem receivedDouble_same {undefined : Binary64 → Int} {x : Binary64}
    (h : x.isNaN = true ∨ FitsInt64 x) :
    receivedDouble undefined x = x ∨ (receivedDouble undefined x).eq x = true := by
  cases h with
  | inl hnan =>
      have hintegral : x.integral = false := by
        simp only [Binary.isNaN, decide_eq_true_eq] at hnan
        simp only [Binary.integral, Binary.isInfinite, Binary.isFinite, Bool.or_eq_false_iff,
          Bool.and_eq_false_iff, decide_eq_false_iff_not]
        exact ⟨by omega, .inl (by omega)⟩
      exact .inl (by simp [receivedDouble, hintegral])
  | inr hfits => exact .inr (receivedDouble_eq hfits)

private theorem fits_of_receivedDouble {x : Binary64}
    (h : receivedDouble (fun _ => 0) x = x ∨ (receivedDouble (fun _ => 0) x).eq x = true) :
    x.isNaN = true ∨ FitsInt64 x := by
  cases hnan : x.isNaN with
  | true => exact .inl rfl
  | false =>
      refine .inr ?_
      cases hintegral : x.integral with
      | false => exact fitsInt64_of_not_integral hnan hintegral
      | true =>
          by_cases hfits : x.isFinite = true ∧ IntegerType.int64.Holds x.toInt
          · exact (fitsInt64_iff_holds hfits.1 hintegral).mpr hfits.2
          · have hzero : receivedDouble (fun _ => 0) x = Binary.ofInt 0 := by
              rw [receivedDouble, if_pos hintegral, IntegerType.ofBinary, if_neg hfits]
              rfl
            have hfinite : (Binary.ofInt 0 : Binary64).isFinite = true := by decide +kernel
            have hunits : (Binary.ofInt 0 : Binary64).units = 0 := by decide +kernel
            have hx : x.isFinite = true ∧ x.units = 0 := by
              rw [hzero] at h
              cases h with
              | inl heq => exact heq ▸ ⟨hfinite, hunits⟩
              | inr heq =>
                  obtain ⟨hx, hsame⟩ := Binary.units_eq_of_eq heq hfinite
                  exact ⟨hx, hsame ▸ hunits⟩
            have hint : x.toInt = 0 := by
              rw [Binary.toInt, hx.2, Int.zero_tdiv]
            exact (fitsInt64_iff_holds hx.1 hintegral).mpr (by rw [hint]; decide)

theorem logAgrees_of_doublesFit (hproper : call.Proper)
    (hring : ∀ undefined, RingServes tvuRingHead call undefined) (h : call.DoublesFit) :
    LogAgrees tvuRingHead call := by
  intro undefined indeterminate
  have hreceived := hproper.packetCarries_received indeterminate (hring undefined)
  refine hreceived.imp fun data c arg slot harg hslot => ?_
  cases slot with
  | float64 y =>
      obtain ⟨x, rfl, rfl⟩ := hslot
      exact ⟨x, rfl, receivedDouble_same (h x harg)⟩
  | _ => exact hslot

private theorem doublesFit_of_logAgrees (hproper : call.Proper)
    (hring : RingServes tvuRingHead call fun _ => 0) (h : LogAgrees tvuRingHead call) :
    call.DoublesFit := by
  intro x hx
  have hreceived := hproper.packetCarries_received .zeroFilled hring
  obtain ⟨data, c, slot, hreceived, hsame⟩ :=
    (hreceived.and (h (fun _ => 0) .zeroFilled)).exists_slot hproper hx
  cases slot with
  | float64 y =>
      obtain ⟨x', hx', rfl⟩ := hreceived
      obtain ⟨x'', hx'', hy⟩ := hsame
      cases hx'
      cases hx''
      exact fits_of_receivedDouble hy
  | gp type value =>
      have hvalue := hsame.2
      rw [VaArg.value_float64] at hvalue
      contradiction
  | data p =>
      obtain ⟨s, hs, -⟩ := hsame
      contradiction
  | float80 y => contradiction
  | null => contradiction

theorem logAgrees_iff (hproper : call.Proper)
    (hring : ∀ undefined, RingServes tvuRingHead call undefined) :
    LogAgrees tvuRingHead call ↔ call.DoublesFit :=
  ⟨doublesFit_of_logAgrees hproper (hring _), logAgrees_of_doublesFit hproper hring⟩

end Condition

def zeroRing (size : UInt64) : Option TvuBuffer := some (zeroAlloc size)

theorem ringStarts_zeroRing : RingStarts zeroRing := by
  intro size packet h
  cases h
  unfold zeroAlloc
  split <;> rfl

theorem ringServes_zeroRing {call : LogCall} (hproper : call.Proper)
    (hletters : call.types.length ≤ 2 ^ 20) (undefined : Binary64 → Int) :
    RingServes zeroRing call undefined := by
  intro size hsize
  rw [hproper.tvnlVmessageSize_eq, Option.some.injEq] at hsize
  have hlength := hproper.length_packet_le undefined
  have hsmall : size.toNat < 2 ^ 63 := by
    rw [← hsize, UInt64.toNat_ofNat_of_lt' (hproper.length_packet_lt undefined)]
    omega
  refine ⟨zeroAlloc size, rfl, ?_⟩
  rw [zeroAlloc, dif_pos hsmall]
  exact ⟨rfl, List.length_replicate⟩

def sampleInfo : TvnInfo := ⟨1, 2, 3, ⟨[0x41], nul_notMem_letter⟩⟩

def sampleCall : LogCall :=
  ⟨sampleInfo, 4096, ⟨[0x42], by decide⟩, 17, 4, sampleFormat, sampleArgs⟩

theorem sampleCall_proper : sampleCall.Proper :=
  have htypes : sampleCall.types = ['d', 's', 'F'] := by decide
  ⟨by decide, by decide, by decide,
    htypes ▸ .cons (by simp [VaArg.Matches]) (.cons ⟨rfl, by decide⟩ (.cons (Or.inr rfl) .nil)),
    by decide⟩

theorem logAgrees_sampleCall : LogAgrees zeroRing sampleCall ↔ sampleCall.DoublesFit :=
  logAgrees_iff sampleCall_proper (ringServes_zeroRing sampleCall_proper (by decide))

def largeDoubleCall : LogCall :=
  ⟨sampleInfo, 4096, ⟨[0x42], by decide⟩, 17, 4, ⟨[0x25, 0x66], by decide⟩, [.float64 twoPow63]⟩

theorem not_logAgrees_largeDoubleCall :
    largeDoubleCall.Proper ∧ (∀ undefined, RingServes zeroRing largeDoubleCall undefined) ∧
      ¬ LogAgrees zeroRing largeDoubleCall := by
  have htypes : largeDoubleCall.types = ['F'] := by decide
  have hproper : largeDoubleCall.Proper :=
    ⟨by decide, by decide, by decide, htypes ▸ .cons (Or.inr rfl) .nil, by decide⟩
  have hring := ringServes_zeroRing hproper (by decide)
  refine ⟨hproper, hring, fun hagrees => ?_⟩
  cases doublesFit_of_logAgrees hproper (hring _) hagrees twoPow63 List.mem_cons_self with
  | inl hnan => exact absurd hnan (by decide +kernel)
  | inr hfits => exact absurd hfits.2.2 (by decide +kernel)

end Libtvnet
