import Libtvnet.FloatFidelity
import Libtvnet.PicklePrint

/-!
# Deferred printing

What `tvnp_vapprintf` pickles, `tvnp_pickle_to_va` turns back into the call.
The receiver parses the same format, so it reaches the same type string, and
every token fits its letter: a double that has become an integer on the wire
is converted back.
-/

namespace Libtvnet

open Libtvnet.Foundation

def VaSlot.Agrees (data : List UInt8) (c : Char) (arg : VaArg) : VaSlot → Prop
  | .gp type value => promotedLetter c = some type ∧ arg.value c = some value
  | .float64 y => ∃ x, arg = .float64 x ∧ y.eq x = true
  | .data p => ∃ s, arg = .string s ∧ cString data p = some s.1
  | _ => False

def VaSlot.Received (undefined : Binary64 → Int) (data : List UInt8) (c : Char) (arg : VaArg) :
    VaSlot → Prop
  | .gp type value => promotedLetter c = some type ∧ arg.value c = some value
  | .float64 y => ∃ x, arg = .float64 x ∧ y = receivedDouble undefined x
  | .data p => ∃ s, arg = .string s ∧ cString data p = some s.1
  | _ => False

def VaArg.Moderate (arg : VaArg) : Prop :=
  ∀ x, arg = .float64 x → x.isFinite = true ∧ |x.value| < (2 ^ 63 : Nat)

section RoundTrip

variable {undefined : Binary64 → Int} (indeterminate : TvnpToken)

/-! ## One argument -/

private theorem promotedLetter_holds {c : Char} {arg : VaArg} {get : VaArg → Option Int} {x : Int}
    (hmatch : arg.Matches c) (hget : vaInteger c = some get) (hx : get arg = some x) :
    ∃ type, promotedLetter c = some type ∧ 0 < type.bits ∧ type.bits ≤ 64 ∧ type.Holds x := by
  cases arg with
  | gp32 bits =>
      have hlo := bits.le_toInt
      have hhi := bits.toInt_lt
      have hnat := bits.isLt
      have hsigned (hx : some bits.toInt = some x) : IntegerType.int32.Holds x := by
        cases hx
        exact IntegerType.holds_signed.mpr (by omega)
      have hunsigned (hx : some (bits.toNat : Int) = some x) : IntegerType.uint32.Holds x := by
        cases hx
        exact IntegerType.holds_unsigned.mpr (by omega)
      rcases hmatch with rfl | rfl | rfl | rfl | rfl | rfl <;> cases hget
      · exact ⟨.int32, rfl, by decide, by decide, hsigned hx⟩
      · exact ⟨.uint32, rfl, by decide, by decide, hunsigned hx⟩
      · exact ⟨.int32, rfl, by decide, by decide, hsigned hx⟩
      · exact ⟨.uint32, rfl, by decide, by decide, hunsigned hx⟩
      · exact ⟨.int32, rfl, by decide, by decide, hsigned hx⟩
      · exact ⟨.uint32, rfl, by decide, by decide, hunsigned hx⟩
  | gp64 bits =>
      have hlo := bits.le_toInt
      have hhi := bits.toInt_lt
      have hnat := bits.isLt
      rcases hmatch with rfl | rfl <;> cases hget <;> cases hx
      · exact ⟨.int64, rfl, by decide, by decide, IntegerType.holds_signed.mpr (by omega)⟩
      · exact ⟨.uint64, rfl, by decide, by decide, IntegerType.holds_unsigned.mpr (by omega)⟩
  | float64 _ => rcases hmatch with rfl | rfl <;> contradiction
  | float80 _ =>
      obtain rfl : c = 'G' := hmatch
      contradiction
  | string _ =>
      obtain ⟨rfl, -⟩ := hmatch
      contradiction

private theorem vaSlot_token {c : Char} {arg : VaArg} {token : TvnpToken} {data : List UInt8}
    (hmatch : arg.Matches c) (hlong : c ≠ 'G')
    (htoken : token.Denotes data (arg.token undefined c)) :
    ∃ slot, vaSlot undefined c token = some slot ∧ slot.Received undefined data c arg := by
  cases hmatch.vaCase undefined with
  | @integer get x hget hx hx' =>
      obtain ⟨type, htype, hbits, hword, hholds⟩ := promotedLetter_holds hmatch hget hx
      rw [hx'] at htoken
      have hinteger := toInteger_of_denotes undefined hbits hword hholds htoken
      refine ⟨.gp type x, ?_, htype, ?_⟩
      · simp only [vaSlot, htype, hinteger, Option.map_some]
      · rw [VaArg.value, hget, Option.bind_some, hx]
  | @float64 x hc harg =>
      subst harg
      refine ⟨.float64 (receivedDouble undefined x), ?_, x, rfl, rfl⟩
      unfold receivedDouble
      rcases token.cases_of_denotes_ofDouble htoken with
        ⟨hintegral, htype, hi⟩ | ⟨hintegral, htype, hf⟩
      · rw [if_pos hintegral]
        rcases hc with rfl | rfl <;> simp [vaSlot, promotedLetter, htype, hi]
      · rw [if_neg (by simp [hintegral])]
        rcases hc with rfl | rfl <;> simp [vaSlot, promotedLetter, htype, hf]
  | float80 hc => exact absurd hc hlong
  | @string s hc harg =>
      subst hc harg
      obtain ⟨htype, -, hdata⟩ := htoken
      exact ⟨.data token.data, by simp [vaSlot, promotedLetter, htype], s, rfl,
        cString_of_prefix hdata⟩

theorem receivedDouble_eq {x : Binary64} (h : FitsInt64 x) :
    (receivedDouble undefined x).eq x = true := by
  unfold receivedDouble
  split
  · next hintegral =>
      have hholds := fitsInt64_holds h hintegral
      obtain ⟨hlo, hhi⟩ := IntegerType.holds_signed.mp hholds
      rw [IntegerType.ofBinary_of_holds h.1 hholds, Int64.toInt_ofInt_of_le hlo (by omega)]
      exact Binary.ofInt_toInt h.1 hintegral
  · exact Binary.eq_self_of_finite h.1

theorem VaArg.Moderate.fitsInt64 {arg : VaArg} {x : Binary64} (h : arg.Moderate)
    (harg : arg = .float64 x) : FitsInt64 x := by
  obtain ⟨hfinite, hbound⟩ := h x harg
  push_cast at hbound
  obtain ⟨hlo, hhi⟩ := abs_lt.mp hbound
  exact ⟨hfinite, hlo.le, hhi⟩

theorem VaSlot.Received.agrees {c : Char} {arg : VaArg} {data : List UInt8} {slot : VaSlot}
    (h : slot.Received undefined data c arg) (hdouble : arg.Moderate) :
    slot.Agrees data c arg := by
  cases slot with
  | float64 y =>
      obtain ⟨x, harg, rfl⟩ := h
      exact ⟨x, harg, receivedDouble_eq (hdouble.fitsInt64 harg)⟩
  | _ => exact h

/-! ## The argument list -/

private theorem tvnpPickleToVaLoop_wire {types : List Char} {args : List VaArg} {b : TvuBuffer}
    {suffix : List UInt8} (hmatch : Matching types args) (hlong : 'G' ∉ types)
    (h : b.rest = wire (vaTokens undefined types args) ++ suffix) :
    ∃ ap, tvnpPickleToVaLoop undefined indeterminate types b =
        some (some ap, b.skip (wire (vaTokens undefined types args)).length) ∧
      List.Forall₂ (fun (c, arg) slot => slot.Received undefined b.data c arg)
        (types.zip args) ap := by
  induction hmatch generalizing b with
  | nil => exact ⟨[], by simp [tvnpPickleToVaLoop, vaTokens], .nil⟩
  | @cons c arg types args hfirst _ ih =>
      rw [vaTokens_cons, wire_cons, List.append_assoc] at h
      rw [List.mem_cons, not_or] at hlong
      obtain ⟨token, htoken, hdenotes⟩ :=
        tvnpDecodeToken_bytes indeterminate hfirst.token_valid h
      obtain ⟨slot, hslot, hreceived⟩ := vaSlot_token hfirst (Ne.symm hlong.1) hdenotes
      obtain ⟨ap, hrun, hall⟩ := ih hlong.2 (TvuBuffer.rest_skip h)
      refine ⟨slot :: ap, ?_, .cons hreceived hall⟩
      rw [tvnpPickleToVaLoop, htoken]
      simp only [Option.bind_eq_bind, Option.bind_some, hslot, hrun, Option.map_some,
        TvuBuffer.skip_skip, vaTokens_cons, wire_cons, List.length_append]

theorem tvnpPickleToVa_wire {fmt : CString} {args : List VaArg} {b : TvuBuffer}
    {suffix : List UInt8} (hfmt : fmt.1.length < 2 ^ 32)
    (hmatch : Matching (tvnpFmtParse fmt.chars).1 args)
    (hlong : 'G' ∉ (tvnpFmtParse fmt.chars).1)
    (h : b.rest = wire (callTokens undefined (tvnpFmtParse fmt.chars).1 fmt args) ++ suffix) :
    ∃ p ap, tvnpPickleToVa undefined indeterminate b =
        some (some (p, ap),
          b.skip (wire (callTokens undefined (tvnpFmtParse fmt.chars).1 fmt args)).length) ∧
      cString b.data p = some fmt.1 ∧
      List.Forall₂ (fun (c, arg) slot => slot.Received undefined b.data c arg)
        ((tvnpFmtParse fmt.chars).1.zip args) ap := by
  rw [callTokens, wire_cons, List.append_assoc] at h
  obtain ⟨token, htoken, htype, -, hdata⟩ :=
    tvnpDecodeToken_bytes (t := .utf8 fmt.1) indeterminate hfmt h
  have hstring := cString_of_prefix hdata
  obtain ⟨ap, hrun, hall⟩ :=
    tvnpPickleToVaLoop_wire indeterminate hmatch hlong (TvuBuffer.rest_skip h)
  refine ⟨token.data, ap, ?_, hstring, hall⟩
  rw [tvnpPickleToVa, htoken]
  simp only [Option.bind_eq_bind, Option.bind_some, htype, TvuBuffer.data_skip, hstring]
  change (tvnpPickleToVaLoop undefined indeterminate (tvnpFmtParse fmt.chars).1 _).bind _ = _
  rw [hrun, Option.bind_some, Option.map_some, TvuBuffer.skip_skip, callTokens, wire_cons,
    List.length_append]

theorem VaSlot.agrees_of_received {pairs : List (Char × VaArg)} {ap : List VaSlot}
    {data : List UInt8}
    (h : List.Forall₂ (fun (c, arg) slot => slot.Received undefined data c arg) pairs ap)
    (hdoubles : ∀ pair ∈ pairs, pair.2.Moderate) :
    List.Forall₂ (fun (c, arg) slot => slot.Agrees data c arg) pairs ap := by
  induction h with
  | nil => exact .nil
  | cons hfirst _ ih =>
      exact .cons (hfirst.agrees (hdoubles _ (by simp)))
        (ih fun pair hpair => hdoubles pair (by simp [hpair]))

/-! ## The call -/

theorem vaTokens_valid {types : List Char} {args : List VaArg} (h : Matching types args) :
    ∀ t ∈ vaTokens undefined types args, t.Valid := by
  induction h with
  | nil => simp [vaTokens]
  | cons hfirst _ ih =>
      intro t ht
      rw [vaTokens_cons, List.mem_cons] at ht
      cases ht with
      | inl heq => exact heq ▸ hfirst.token_valid
      | inr hmem => exact ih t hmem

theorem length_wire_callTokens_le (undefined : Binary64 → Int) {fmt : CString} {args : List VaArg}
    (hfmt : fmt.1.length < 2 ^ 32) (hmatch : Matching (tvnpFmtParse fmt.chars).1 args) :
    (wire (callTokens undefined (tvnpFmtParse fmt.chars).1 fmt args)).length ≤
      ((tvnpFmtParse fmt.chars).1.length + 1) * (2 ^ 32 + 5) := by
  have hvalid : ∀ t ∈ callTokens undefined (tvnpFmtParse fmt.chars).1 fmt args, t.Valid := by
    intro t ht
    cases List.mem_cons.mp ht with
    | inl heq => exact heq ▸ hfmt
    | inr hmem => exact vaTokens_valid hmatch t hmem
  have hlength : (callTokens undefined (tvnpFmtParse fmt.chars).1 fmt args).length =
      (tvnpFmtParse fmt.chars).1.length + 1 := by
    rw [callTokens, List.length_cons, vaTokens, List.length_zipWith, hmatch.length_eq, min_self]
  exact hlength ▸ length_wire_le hvalid

theorem length_wire_callTokens_lt (undefined : Binary64 → Int) {fmt : CString} {args : List VaArg}
    (hfmt : fmt.1.length < 2 ^ 32) (hmatch : Matching (tvnpFmtParse fmt.chars).1 args) :
    (wire (callTokens undefined (tvnpFmtParse fmt.chars).1 fmt args)).length < 2 ^ 64 := by
  have hcount := two_mul_length_tvnpFmtParse_le fmt.chars
  have hchars : fmt.chars.length = fmt.1.length := List.length_map _
  have htotal := length_wire_callTokens_le undefined hfmt hmatch
  omega

/--
Pickling a call and reading it back from the start of the buffer gives the
format string and the arguments of the call, and uses up the buffer.
-/
theorem tvnpPickleToVa_tvnpVapprintf {tvuBufferError : TvuBuffer}
    {tvuBufferAlloc : UInt64 → TvuBuffer} {fmt : CString} {args : List VaArg}
    (halloc : ∀ size,
      tvnpVpprintfLen undefined (tvnpFmtParse fmt.chars).1 fmt args = some size →
        (tvuBufferAlloc size).offset = 0 ∧ (tvuBufferAlloc size).size = size.toNat)
    (hfmt : fmt.1.length < 2 ^ 32) (hmatch : Matching (tvnpFmtParse fmt.chars).1 args)
    (hlong : 'G' ∉ (tvnpFmtParse fmt.chars).1) (hdoubles : ∀ arg ∈ args, arg.Moderate) :
    ∃ buffer p ap final,
      tvnpVapprintf undefined tvuBufferError tvuBufferAlloc fmt args = some buffer ∧
      tvnpPickleToVa undefined indeterminate buffer.rewind = some (some (p, ap), final) ∧
      cString buffer.data p = some fmt.1 ∧ ap.length = args.length ∧
      List.Forall₂ (fun (c, arg) slot => slot.Agrees buffer.data c arg)
        ((tvnpFmtParse fmt.chars).1.zip args) ap ∧
      final.offset = buffer.size := by
  have hlen := tvnpVpprintfLen_eq undefined fmt hmatch
  obtain ⟨hstart, hsize⟩ := halloc _ hlen
  have hlt := length_wire_callTokens_lt undefined hfmt hmatch
  generalize htokens : callTokens undefined (tvnpFmtParse fmt.chars).1 fmt args = tokens at *
  rw [UInt64.toNat_ofNat_of_lt' hlt] at hsize
  have hroom : (tvuBufferAlloc (UInt64.ofNat (wire tokens).length)).offset +
      (wire tokens).length ≤ (tvuBufferAlloc (UInt64.ofNat (wire tokens).length)).size := by
    omega
  obtain ⟨buffer, hbuffer, hoffset, hdata⟩ := TvuBuffer.append_eq_some hroom
  have hrest : buffer.rewind.rest = wire tokens ++ _ :=
    TvuBuffer.rest_of_append hbuffer hstart.symm rfl
  obtain ⟨p, ap, hrun, hstring, hreceived⟩ :=
    tvnpPickleToVa_wire indeterminate hfmt hmatch hlong (htokens ▸ hrest)
  have hall := VaSlot.agrees_of_received hreceived fun pair hpair =>
    hdoubles pair.2 (List.of_mem_zip hpair).2
  have hfull : buffer.size = (wire tokens).length := by
    unfold TvuBuffer.size at hsize ⊢
    rw [hdata, hstart, List.drop_eq_nil_of_le (by omega)]
    simp
  refine ⟨buffer, p, ap, _, ?_, hrun, hstring, ?_, hall, ?_⟩
  · change (tvnpVpprintfLen undefined (tvnpFmtParse fmt.chars).1 fmt args).bind _ = _
    rw [hlen, Option.bind_some]
    exact (tvnpVpprintf_eq _ hmatch hfmt hlong).trans (by rw [htokens, hbuffer])
  · have hlength := hall.length_eq
    rw [List.length_zip, hmatch.length_eq, min_self] at hlength
    exact hlength.symm
  · rw [htokens, TvuBuffer.offset_skip_of_le, TvuBuffer.offset_rewind, Nat.zero_add, hfull]
    rw [TvuBuffer.offset_rewind, Nat.zero_add, ← hfull]
    exact le_refl buffer.size

end RoundTrip

def zeroAlloc (size : UInt64) : TvuBuffer :=
  if h : size.toNat < 2 ^ 63 then
    ⟨List.replicate size.toNat 0, 0, by simpa using h, TvuBuffer.start_lt⟩
  else ⟨[], 0, TvuBuffer.nil_length_lt, TvuBuffer.start_lt⟩

def sampleFormat : CString := ⟨[0x25, 0x64, 0x20, 0x25, 0x73, 0x20, 0x25, 0x66], by decide⟩

def sampleArgs : List VaArg :=
  [.gp32 (-5), .string ⟨[0x41], nul_notMem_letter⟩, .float64 ⟨false, 0, by decide⟩]

theorem tvnpPickleToVa_sampleArgs :
    ∃ buffer p ap final,
      tvnpVapprintf (fun _ => 0) ⟨[], 0, by decide, by decide⟩ zeroAlloc sampleFormat sampleArgs =
        some buffer ∧
      tvnpPickleToVa (fun _ => 0) .zeroFilled buffer.rewind = some (some (p, ap), final) ∧
      cString buffer.data p = some sampleFormat.1 ∧ ap.length = sampleArgs.length ∧
      List.Forall₂ (fun (c, arg) slot => slot.Agrees buffer.data c arg)
        ((tvnpFmtParse sampleFormat.chars).1.zip sampleArgs) ap ∧
      final.offset = buffer.size := by
  have htypes : (tvnpFmtParse sampleFormat.chars).1 = ['d', 's', 'F'] := by decide
  have hmatch : Matching (tvnpFmtParse sampleFormat.chars).1 sampleArgs := by
    rw [htypes]
    exact .cons (by simp [VaArg.Matches]) (.cons ⟨rfl, by decide⟩ (.cons (Or.inr rfl) .nil))
  refine tvnpPickleToVa_tvnpVapprintf .zeroFilled ?_ (by decide) hmatch (by decide) ?_
  · intro size hsize
    have hlength : (wire (callTokens (fun _ => 0) ['d', 's', 'F'] sampleFormat
        sampleArgs)).length = 15 := by decide +kernel
    rw [tvnpVpprintfLen_eq _ _ hmatch, htypes, hlength, Option.some.injEq] at hsize
    subst hsize
    exact ⟨rfl, rfl⟩
  · intro arg harg x hx
    subst hx
    simp only [sampleArgs, List.mem_cons, reduceCtorEq, VaArg.float64.injEq, List.not_mem_nil,
      or_false, false_or] at harg
    subst harg
    exact ⟨by decide, by simp [Binary.value, Binary.units]⟩

end Libtvnet
