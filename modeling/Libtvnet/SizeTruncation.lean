import Libtvnet.PrintRoundTrip
import Libtvnet.PythonEncode

/-!
# Sizes of 64 bits

The length functions count with `size_t`, the encoders are passed a
`uint32_t`.  What is counted ahead and what is written are compared for the
three ways in which a string or a container reaches an encoder.
-/

namespace Libtvnet

open Libtvnet.Foundation

/-! ## Sizes of tokens -/

namespace Token

def SizeFits : Token → Prop
  | utf8 string | binary string => string.length < 2 ^ 32
  | list count | dictionary count => count < 2 ^ 32
  | _ => True

def CountedBy : Token → TvnpToken → Prop
  | utf8 string, token => token.type = .tokenUtf8String ∧ token.u = string.length
  | binary string, token => token.type = .tokenBinString ∧ token.u = string.length
  | list count, token => token.type = .tokenList ∧ token.u = count
  | dictionary count, token => token.type = .tokenDictionary ∧ token.u = count
  | _, _ => True

theorem Valid.sizeFits {t : Token} (h : t.Valid) : t.SizeFits := by
  cases t with
  | float x => trivial
  | _ => exact h

private theorem narrow_of_sizeFits {t : Token} (h : t.SizeFits) : t.narrow = t := by
  cases t with
  | float x => rfl
  | _ => exact narrow_of_valid h

private theorem countedBy_iff {token : TvnpToken} {data : List UInt8} {t : Token}
    (h : token.Denotes data t.narrow) : t.CountedBy token ↔ t.SizeFits := by
  have hmod (n : Nat) : n % 2 ^ 32 = n ↔ n < 2 ^ 32 := by omega
  cases t with
  | utf8 string =>
      obtain ⟨htype, hu, -⟩ := h
      rw [length_narrowString] at hu
      simp only [CountedBy, SizeFits, htype, hu, true_and, hmod]
  | binary string =>
      obtain ⟨htype, hu, -⟩ := h
      rw [length_narrowString] at hu
      simp only [CountedBy, SizeFits, htype, hu, true_and, hmod]
  | list count =>
      obtain ⟨htype, hu⟩ := h
      simp only [CountedBy, SizeFits, htype, hu, true_and, hmod]
  | dictionary count =>
      obtain ⟨htype, hu⟩ := h
      simp only [CountedBy, SizeFits, htype, hu, true_and, hmod]
  | _ => exact Iff.rfl

end Token

/-! ## The tokens of an object -/

section Objects

variable {Unicode : Type} {python : CPython Unicode} {undefined : Binary64 → Int}

theorem Token.narrow_valid_of_not_float {t : Token} (h : ∀ x, t ≠ .float x) : t.narrow.Valid := by
  cases t with
  | utf8 string | binary string => exact Token.length_narrowString_lt string
  | list count | dictionary count => exact Nat.mod_lt _ (Nat.two_pow_pos 32)
  | float x => exact absurd rfl (h x)
  | _ => trivial

mutual

theorem PyObject.narrow_valid {ts : List Token} : ∀ {o : PyObject Unicode},
    o.tokens python undefined = some ts → ∀ t ∈ ts, t.narrow.Valid
  | .endOfData, h | .other, h => by simp [PyObject.tokens] at h
  | .none, h | .int _, h | .string _, h | .byteArray _, h => by
      obtain rfl := Option.some.inj h
      exact List.forall_mem_singleton.mpr (Token.narrow_valid_of_not_float (by simp))
  | .float x, h => by
      obtain rfl := Option.some.inj h
      rw [List.forall_mem_singleton, Token.narrow_ofDouble]
      exact Token.ofDouble_valid undefined x
  | .unicode u, h => by
      rw [PyObject.tokens] at h
      obtain ⟨utf8String, -, rfl⟩ := Option.map_eq_some_iff.mp h
      exact List.forall_mem_singleton.mpr (Token.narrow_valid_of_not_float (by simp))
  | .dict items, h => by
      rw [PyObject.tokens] at h
      obtain ⟨us, hus, rfl⟩ := Option.map_eq_some_iff.mp h
      exact List.forall_mem_cons.mpr ⟨Token.narrow_valid_of_not_float (by simp),
        PyObject.narrow_valid_pairs hus⟩
  | .list items, h | .tuple items, h | .set items, h => by
      rw [PyObject.tokens] at h
      obtain ⟨us, hus, rfl⟩ := Option.map_eq_some_iff.mp h
      exact List.forall_mem_cons.mpr ⟨Token.narrow_valid_of_not_float (by simp),
        PyObject.narrow_valid_items hus⟩

theorem PyObject.narrow_valid_items {ts : List Token} : ∀ {items : List (PyObject Unicode)},
    PyObject.tokensOfItems python undefined items = some ts → ∀ t ∈ ts, t.narrow.Valid
  | [], h => by
      obtain rfl := Option.some.inj h
      simp
  | item :: items, h => by
      rw [PyObject.tokensOfItems] at h
      obtain ⟨us, hus, h⟩ := Option.bind_eq_some_iff.mp h
      obtain ⟨vs, hvs, h⟩ := Option.bind_eq_some_iff.mp h
      obtain rfl := Option.some.inj h
      exact List.forall_mem_append.mpr
        ⟨PyObject.narrow_valid hus, PyObject.narrow_valid_items hvs⟩

theorem PyObject.narrow_valid_pairs {ts : List Token} :
    ∀ {items : List (PyObject Unicode × PyObject Unicode)},
    PyObject.tokensOfPairs python undefined items = some ts → ∀ t ∈ ts, t.narrow.Valid
  | [], h => by
      obtain rfl := Option.some.inj h
      simp
  | (key, value) :: items, h => by
      rw [PyObject.tokensOfPairs] at h
      obtain ⟨us, hus, h⟩ := Option.bind_eq_some_iff.mp h
      obtain ⟨vs, hvs, h⟩ := Option.bind_eq_some_iff.mp h
      obtain ⟨ws, hws, h⟩ := Option.bind_eq_some_iff.mp h
      obtain rfl := Option.some.inj h
      exact List.forall_mem_append.mpr ⟨List.forall_mem_append.mpr
        ⟨PyObject.narrow_valid hus, PyObject.narrow_valid hvs⟩, PyObject.narrow_valid_pairs hws⟩

end

mutual

theorem PyObject.sized_of_sizeFits {ts : List Token} : ∀ {o : PyObject Unicode},
    o.tokens python undefined = some ts → (∀ t ∈ ts, t.SizeFits) → o.Sized python
  | .endOfData, _, _ | .other, _, _ | .none, _, _ | .int _, _, _ | .float _, _, _ => trivial
  | .string _, h, hfits | .byteArray _, h, hfits => by
      obtain rfl := Option.some.inj h
      exact hfits _ List.mem_cons_self
  | .unicode u, h, hfits => by
      rw [PyObject.tokens] at h
      obtain ⟨utf8String, hutf8, rfl⟩ := Option.map_eq_some_iff.mp h
      intro bytes hbytes
      obtain rfl := Option.some.inj (hutf8.symm.trans hbytes)
      exact hfits _ List.mem_cons_self
  | .dict items, h, hfits => by
      rw [PyObject.tokens] at h
      obtain ⟨us, hus, rfl⟩ := Option.map_eq_some_iff.mp h
      obtain ⟨hcount, hfits⟩ := List.forall_mem_cons.mp hfits
      exact ⟨hcount, PyObject.sized_pairs_of_sizeFits hus hfits⟩
  | .list items, h, hfits | .tuple items, h, hfits | .set items, h, hfits => by
      rw [PyObject.tokens] at h
      obtain ⟨us, hus, rfl⟩ := Option.map_eq_some_iff.mp h
      obtain ⟨hcount, hfits⟩ := List.forall_mem_cons.mp hfits
      exact ⟨hcount, PyObject.sized_items_of_sizeFits hus hfits⟩

theorem PyObject.sized_items_of_sizeFits {ts : List Token} :
    ∀ {items : List (PyObject Unicode)}, PyObject.tokensOfItems python undefined items = some ts →
    (∀ t ∈ ts, t.SizeFits) → PyObject.SizedItems python items
  | [], _, _ => trivial
  | item :: items, h, hfits => by
      rw [PyObject.tokensOfItems] at h
      obtain ⟨us, hus, h⟩ := Option.bind_eq_some_iff.mp h
      obtain ⟨vs, hvs, h⟩ := Option.bind_eq_some_iff.mp h
      obtain rfl := Option.some.inj h
      obtain ⟨hfirst, hrest⟩ := List.forall_mem_append.mp hfits
      exact ⟨PyObject.sized_of_sizeFits hus hfirst, PyObject.sized_items_of_sizeFits hvs hrest⟩

theorem PyObject.sized_pairs_of_sizeFits {ts : List Token} :
    ∀ {items : List (PyObject Unicode × PyObject Unicode)},
    PyObject.tokensOfPairs python undefined items = some ts → (∀ t ∈ ts, t.SizeFits) →
    PyObject.SizedPairs python items
  | [], _, _ => trivial
  | (key, value) :: items, h, hfits => by
      rw [PyObject.tokensOfPairs] at h
      obtain ⟨us, hus, h⟩ := Option.bind_eq_some_iff.mp h
      obtain ⟨vs, hvs, h⟩ := Option.bind_eq_some_iff.mp h
      obtain ⟨ws, hws, h⟩ := Option.bind_eq_some_iff.mp h
      obtain rfl := Option.some.inj h
      obtain ⟨hpair, hrest⟩ := List.forall_mem_append.mp hfits
      obtain ⟨hkey, hvalue⟩ := List.forall_mem_append.mp hpair
      exact ⟨PyObject.sized_of_sizeFits hus hkey, PyObject.sized_of_sizeFits hvs hvalue,
        PyObject.sized_pairs_of_sizeFits hws hrest⟩

end

theorem PyObject.sizedItems_iff {ts : List Token} {items : List (PyObject Unicode)}
    (h : PyObject.tokensOfItems python undefined items = some ts) :
    PyObject.SizedItems python items ↔ ∀ t ∈ ts, t.SizeFits :=
  ⟨fun hsized t ht => (hsized.valid_tokens h t ht).sizeFits,
    PyObject.sized_items_of_sizeFits h⟩

end Objects

/-! ## What is written -/

/--
The bytes that were counted are those that have been written, and every header
that is read back from them has the size of what was passed.
-/
def SizesKept (indeterminate : TvnpToken) (ts : List Token) (counted : Int) (start : Nat)
    (c : TvuBuffer) : Prop :=
  (c.offset : Int) = start + counted ∧
    ∀ received : TvuBuffer, received.offset = start → received.data = c.data →
      ∃ tokens final, readTokens indeterminate ts.length received = some (tokens, final) ∧
        List.Forall₂ Token.CountedBy ts tokens

private theorem readTokens_of_append (indeterminate : TvnpToken) {ts : List Token}
    {b c received : TvuBuffer} (hvalid : ∀ t ∈ ts, t.narrow.Valid)
    (happend : b.append (wire (ts.map Token.narrow)) = some c)
    (hoffset : received.offset = b.offset) (hdata : received.data = c.data) :
    ∃ tokens final, readTokens indeterminate ts.length received = some (tokens, final) ∧
      List.Forall₂ (fun t token => token.Denotes received.data (Token.narrow t)) ts tokens := by
  have hrest := TvuBuffer.rest_of_append happend hoffset (by rw [hdata])
  obtain ⟨tokens, htokens, hall⟩ :=
    readTokens_wire indeterminate (List.forall_mem_map.mpr hvalid) hrest
  rw [List.length_map] at htokens
  exact ⟨tokens, _, htokens, List.forall₂_map_left_iff.mp hall⟩

private theorem length_lt_of_append {b c : TvuBuffer} {bytes : List UInt8}
    (happend : b.append bytes = some c) : bytes.length < 2 ^ 63 := by
  by_cases hne : bytes = []
  · rw [hne]
    decide
  · have hroom := TvuBuffer.room_of_append happend hne
    have hsize := b.size_lt
    unfold TvuBuffer.size at hroom
    omega

private theorem sizesKept_iff_of_append (indeterminate : TvnpToken) {ts : List Token}
    {counted : Int} {b c : TvuBuffer} (hvalid : ∀ t ∈ ts, t.narrow.Valid)
    (happend : b.append (wire (ts.map Token.narrow)) = some c)
    (hcounted : (wire ts).length < 2 ^ 63 → counted = (wire ts).length) :
    SizesKept indeterminate ts counted b.offset c ↔ ∀ t ∈ ts, t.SizeFits := by
  constructor
  · rintro ⟨-, hkept⟩
    let received : TvuBuffer := { c with offset := b.offset, offset_lt := b.offset_lt }
    have hstart : received.offset = b.offset := rfl
    have hdata : received.data = c.data := rfl
    obtain ⟨tokens, final, htokens, hdenotes⟩ :=
      readTokens_of_append indeterminate hvalid happend hstart hdata
    obtain ⟨tokens', final', htokens', hcounts⟩ := hkept received hstart hdata
    cases htokens.symm.trans htokens'
    have hfits : List.Forall₂ (fun t (_ : TvnpToken) => t.SizeFits ∧ True) ts tokens :=
      List.Forall₂.mp (fun t token hd hc => ⟨(Token.countedBy_iff hd).mp hc, trivial⟩)
        hdenotes hcounts
    exact ((List.forall₂_and_left _ _).mp hfits).1
  · intro hfits
    have hsame : ts.map Token.narrow = ts :=
      (List.map_congr_left fun t ht => Token.narrow_of_sizeFits (hfits t ht)).trans
        (List.map_id ts)
    have hoffset := TvuBuffer.offset_of_append happend
    have hsmall := length_lt_of_append happend
    rw [hsame] at hoffset hsmall
    refine ⟨by rw [hcounted hsmall, hoffset, Nat.cast_add], fun received hstart hdata => ?_⟩
    obtain ⟨tokens, final, htokens, hdenotes⟩ :=
      readTokens_of_append indeterminate hvalid happend hstart hdata
    have hboth := (List.forall₂_and_left _ _).mpr ⟨hfits, hdenotes⟩
    exact ⟨tokens, final, htokens, hboth.imp fun t token h => (Token.countedBy_iff h.2).mpr h.1⟩

/-! ## Arguments of any length -/

section Arguments

variable {undefined : Binary64 → Int}

private theorem tvnpVlengthLoop_narrow_cons {c : Char} {arg : VaArg} (hmatch : arg.narrow.Matches c)
    (types : List Char) (args : List VaArg) (size : Int64) :
    tvnpVlengthLoop undefined (c :: types) (arg :: args) size =
      tvnpVlengthLoop undefined types args
        (size + Int64.ofNat (arg.token undefined c).bytes.length) := by
  cases arg with
  | string s =>
      obtain ⟨rfl, -⟩ := hmatch
      rw [VaArg.token, ← tvnpLengthUtf8String_eq]
      rfl
  | _ => exact tvnpVlengthLoop_cons hmatch types args size

private theorem tvnpVencode_run {types : List Char} {args : List VaArg} {b c : TvuBuffer}
    {ret : Int} (h : tvnpVencode undefined b types args = some (ret, c)) (hret : ret ≠ -1) :
    b.append (wire ((vaTokens undefined types args).map Token.narrow)) = some c ∧
      (∀ t ∈ vaTokens undefined types args, t.narrow.Valid) ∧
      ∀ size, tvnpVlengthLoop undefined types args size =
        some (size + Int64.ofNat (wire (vaTokens undefined types args)).length) := by
  induction types generalizing args b with
  | nil =>
      cases h
      exact ⟨TvuBuffer.append_nil _, by simp [vaTokens], by simp [tvnpVlengthLoop, vaTokens]⟩
  | cons letter types ih =>
      rcases tvnpVencode_step h with ⟨hfail, -⟩ | ⟨arg, ap, next, rfl, hmatch, hnext, hrest⟩
      · exact absurd hfail hret
      obtain ⟨happend, hvalid, hlength⟩ := ih hrest
      refine ⟨?_, ?_, fun size => ?_⟩
      · rw [vaTokens_cons, List.map_cons, wire_cons, ← TvuBuffer.append_append, hnext,
          Option.bind_some, happend]
      · rw [vaTokens_cons, List.forall_mem_cons]
        exact ⟨VaArg.token_narrow arg letter ▸ hmatch.token_valid, hvalid⟩
      · rw [tvnpVlengthLoop_narrow_cons hmatch, hlength, vaTokens_cons, wire_cons,
          List.length_append, Int64.ofNat_add, Int64.add_assoc]

theorem VaArg.sizeFits_iff {arg : VaArg} {c : Char} :
    (arg.token undefined c).SizeFits ↔
      ∀ s, VaArg.string s = arg → s.1.length < 2 ^ 32 := by
  cases arg with
  | gp32 bits =>
      simp only [VaArg.token, reduceCtorEq, false_imp_iff, implies_true, iff_true]
      split <;> trivial
  | gp64 bits => simp [VaArg.token, Token.SizeFits]
  | float64 x => simp [VaArg.token, (Token.ofDouble_valid undefined x).sizeFits]
  | float80 x => simp [VaArg.token, (Token.ofDouble_valid undefined x.convert).sizeFits]
  | string s => simp [VaArg.token, Token.SizeFits]

private theorem vaTokens_sizeFits_iff {types : List Char} {args : List VaArg} :
    (∀ t ∈ vaTokens undefined types args, t.SizeFits) ↔
      ∀ s, VaArg.string s ∈ args.take types.length → s.1.length < 2 ^ 32 := by
  induction types generalizing args with
  | nil => simp [vaTokens]
  | cons c types ih =>
      cases args with
      | nil => simp [vaTokens]
      | cons arg args =>
          rw [vaTokens_cons, List.forall_mem_cons, ih, List.length_cons, List.take_succ_cons]
          rw [VaArg.sizeFits_iff]
          simp only [List.mem_cons, or_imp, forall_and]

end Arguments

/-! ## The calls -/

/-- `pytvn_encode`, over what CPython allocates; the inner `none` is its `return NULL`. -/
def pytvnEncode {Unicode : Type} (python : CPython Unicode) (undefined : Binary64 → Int)
    (pyStringFromStringAndSize : Int → Option TvuBuffer) (args : List (PyObject Unicode)) :
    Option (Option EncodeState) := do
  let length ← pytvnLengthTuple python undefined args
  if length = -1 then some none
  else
    match pyStringFromStringAndSize length with
    | none => some none
    | some block => do
        let state ← pytvnEncodeTuple python undefined ⟨block.rewind, false⟩ args
        some (some state)

inductive SizedCall (Unicode : Type) where
  | tvnpEncodeUtf8String (buffer : TvuBuffer) (string : CString)
  | tvnpVencode (buffer : TvuBuffer) (fmt : List Char) (ap : List VaArg)
  | pytvnEncode (args : List (PyObject Unicode))

namespace SizedCall

variable {Unicode : Type} (python : CPython Unicode) (undefined : Binary64 → Int)
  (indeterminate : TvnpToken) (pyStringFromStringAndSize : Int → Option TvuBuffer)
  (call : SizedCall Unicode)

/-- The buffer behind the encoding; the inner `none` is a call that is rejected. -/
def run : Option (Option TvuBuffer) :=
  match call with
  | .tvnpEncodeUtf8String buffer string =>
      (Libtvnet.tvnpEncodeUtf8String buffer string.1).map some
  | .tvnpVencode buffer fmt ap =>
      (Libtvnet.tvnpVencode undefined buffer fmt ap).map fun (ret, buffer) =>
        if ret = -1 then none else some buffer
  | .pytvnEncode args =>
      (Libtvnet.pytvnEncode python undefined pyStringFromStringAndSize args).map fun state =>
        state.map EncodeState.buffer

def start : Nat :=
  match call with
  | .tvnpEncodeUtf8String buffer _ | .tvnpVencode buffer _ _ => buffer.offset
  | .pytvnEncode _ => 0

def counted : Option Int :=
  match call with
  | .tvnpEncodeUtf8String _ string => some (tvnpLengthUtf8String string.1.length)
  | .tvnpVencode _ fmt ap => (tvnpVlength undefined fmt ap).map Int64.toInt
  | .pytvnEncode args => pytvnLengthTuple python undefined args

/-- What is passed, before any size is converted. -/
def tokens : Option (List Token) :=
  match call with
  | .tvnpEncodeUtf8String _ string => some [.utf8 string.1]
  | .tvnpVencode _ fmt ap => some (vaTokens undefined fmt ap)
  | .pytvnEncode args => PyObject.tokensOfItems python undefined args

def KeepsSizes (written : TvuBuffer) : Prop :=
  ∃ ts counted, call.tokens python undefined = some ts ∧
    call.counted python undefined = some counted ∧
    SizesKept indeterminate ts counted call.start written

def Fits : Prop :=
  match call with
  | .tvnpEncodeUtf8String _ string => string.1.length < 2 ^ 32
  | .tvnpVencode _ fmt ap => ∀ s, VaArg.string s ∈ ap.take fmt.length → s.1.length < 2 ^ 32
  | .pytvnEncode args => PyObject.SizedItems python args

variable {python undefined indeterminate pyStringFromStringAndSize call}

private theorem keepsSizes_of_append {ts : List Token} {counted : Int} {b c : TvuBuffer}
    (hts : call.tokens python undefined = some ts)
    (hcounted : call.counted python undefined = some counted) (hstart : call.start = b.offset)
    (hvalid : ∀ t ∈ ts, t.narrow.Valid)
    (happend : b.append (wire (ts.map Token.narrow)) = some c)
    (hlength : (wire ts).length < 2 ^ 63 → counted = (wire ts).length) :
    call.KeepsSizes python undefined indeterminate c ↔ ∀ t ∈ ts, t.SizeFits := by
  rw [← sizesKept_iff_of_append indeterminate hvalid happend hlength, KeepsSizes, hts, hcounted,
    hstart]
  simp

private theorem keepsSizes_tvnpEncodeUtf8String {buffer c : TvuBuffer} {string : CString}
    (h : Libtvnet.tvnpEncodeUtf8String buffer string.1 = some c) :
    KeepsSizes python undefined indeterminate (.tvnpEncodeUtf8String buffer string) c ↔
      string.1.length < 2 ^ 32 := by
  rw [tvnpEncodeUtf8String_narrow] at h
  have hvalid : (Token.utf8 string.1).narrow.Valid := Token.narrow_valid_of_not_float (by simp)
  have hcounted : (tvnpLengthUtf8String string.1.length : Int) =
      (wire [Token.utf8 string.1]).length := by
    rw [tvnpLengthUtf8String_eq, wire_cons, wire_nil, List.append_nil]
  rw [keepsSizes_of_append rfl rfl rfl (List.forall_mem_singleton.mpr hvalid)
    (by simpa using h) fun _ => hcounted, List.forall_mem_singleton]
  rfl

theorem exists_not_keepsSizes {buffer : TvuBuffer} {string : CString}
    (hlong : 2 ^ 32 ≤ string.1.length)
    (hroom : buffer.offset + (wire [(Token.utf8 string.1).narrow]).length ≤ buffer.size) :
    ∃ written, run python undefined pyStringFromStringAndSize
        (.tvnpEncodeUtf8String buffer string) = some (some written) ∧
      ¬ KeepsSizes python undefined indeterminate (.tvnpEncodeUtf8String buffer string)
        written := by
  obtain ⟨written, hwritten, -⟩ := TvuBuffer.append_eq_some hroom
  rw [wire_cons, wire_nil, List.append_nil, ← tvnpEncodeUtf8String_narrow] at hwritten
  refine ⟨written, congrArg (Option.map some) hwritten, fun hkeeps => ?_⟩
  have hlt := (keepsSizes_tvnpEncodeUtf8String hwritten).mp hkeeps
  omega

private theorem keepsSizes_tvnpVencode {buffer c : TvuBuffer} {fmt : List Char} {ap : List VaArg}
    {ret : Int} (h : Libtvnet.tvnpVencode undefined buffer fmt ap = some (ret, c))
    (hret : ret ≠ -1) :
    KeepsSizes python undefined indeterminate (.tvnpVencode buffer fmt ap) c ↔
      ∀ s, VaArg.string s ∈ ap.take fmt.length → s.1.length < 2 ^ 32 := by
  obtain ⟨happend, hvalid, hlength⟩ := tvnpVencode_run h hret
  have hcounted : tvnpVlength undefined fmt ap =
      some (Int64.ofNat (wire (vaTokens undefined fmt ap)).length) := by
    rw [tvnpVlength, hlength, Int64.zero_add]
  have hkeeps : KeepsSizes python undefined indeterminate (.tvnpVencode buffer fmt ap) c ↔
      ∀ t ∈ vaTokens undefined fmt ap, t.SizeFits :=
    keepsSizes_of_append rfl (congrArg (Option.map Int64.toInt) hcounted) rfl hvalid happend
      Int64.toInt_ofNat_of_lt
  exact hkeeps.trans vaTokens_sizeFits_iff

private theorem keepsSizes_pytvnEncode {args : List (PyObject Unicode)} {state : EncodeState}
    (h : Libtvnet.pytvnEncode python undefined pyStringFromStringAndSize args =
      some (some state)) :
    KeepsSizes python undefined indeterminate (.pytvnEncode args) state.buffer ↔
      PyObject.SizedItems python args := by
  obtain ⟨n, hlength, h⟩ := Option.bind_eq_some_iff.mp h
  split at h
  next => cases h
  next hn =>
    split at h
    next => cases h
    next block hblock =>
      obtain ⟨state, hstate, hsame⟩ := Option.bind_eq_some_iff.mp h
      cases hsame
      obtain ⟨ts, hts, hwire⟩ := pytvnLengthItems_eq_wire hlength hn
      rw [pytvnEncodeTuple, pytvnEncodeItems_narrow _ hts] at hstate
      obtain ⟨c, hc, hsame⟩ := Option.bind_eq_some_iff.mp hstate
      cases hsame
      have hkeeps : KeepsSizes python undefined indeterminate (.pytvnEncode args) c ↔
          ∀ t ∈ ts, t.SizeFits :=
        keepsSizes_of_append hts hlength rfl (PyObject.narrow_valid_items hts) hc
          fun _ => hwire.trans (Int.zero_add _)
      exact hkeeps.trans (PyObject.sizedItems_iff hts).symm

theorem keepsSizes_iff_fits {written : TvuBuffer}
    (h : call.run python undefined pyStringFromStringAndSize = some (some written)) :
    call.KeepsSizes python undefined indeterminate written ↔ call.Fits python := by
  cases call with
  | tvnpEncodeUtf8String buffer string =>
      obtain ⟨c, hc, hwritten⟩ := Option.map_eq_some_iff.mp h
      cases hwritten
      exact keepsSizes_tvnpEncodeUtf8String hc
  | tvnpVencode buffer fmt ap =>
      obtain ⟨⟨ret, c⟩, hc, hwritten⟩ := Option.map_eq_some_iff.mp h
      simp only at hwritten
      split at hwritten
      next => cases hwritten
      next hret =>
        cases hwritten
        exact keepsSizes_tvnpVencode hc hret
  | pytvnEncode args =>
      obtain ⟨outcome, hrun, hwritten⟩ := Option.map_eq_some_iff.mp h
      obtain ⟨state, rfl, rfl⟩ := Option.map_eq_some_iff.mp hwritten
      exact keepsSizes_pytvnEncode hrun

end SizedCall

def zeroString (size : Int) : Option TvuBuffer := some (zeroAlloc (UInt64.ofInt size))

theorem keepsSizes_iff_fits_sampleDict :
    ∃ written, SizedCall.run CPython.ofBytes (fun _ => 0) zeroString
        (.pytvnEncode [sampleDict]) = some (some written) ∧
      (SizedCall.KeepsSizes CPython.ofBytes (fun _ => 0) .zeroFilled
          (.pytvnEncode [sampleDict]) written ↔
        SizedCall.Fits CPython.ofBytes (.pytvnEncode [sampleDict])) := by
  have hruns : (SizedCall.run CPython.ofBytes (fun _ => 0) zeroString
      (.pytvnEncode [sampleDict])).map Option.isSome = some true := by decide +kernel
  obtain ⟨outcome, hrun, hsome⟩ := Option.map_eq_some_iff.mp hruns
  obtain ⟨written, rfl⟩ := Option.isSome_iff_exists.mp hsome
  exact ⟨written, hrun, SizedCall.keepsSizes_iff_fits hrun⟩

def longString : CString :=
  ⟨List.replicate (2 ^ 32) 0x41, fun h => absurd (List.eq_of_mem_replicate h) (by decide)⟩

def longBuffer : TvuBuffer :=
  ⟨List.replicate (2 ^ 32 + 6) 0, 0, by rw [List.length_replicate]; decide, TvuBuffer.start_lt⟩

theorem not_keepsSizes_longString :
    ∃ written, SizedCall.run CPython.ofBytes (fun _ => 0) zeroString
        (.tvnpEncodeUtf8String longBuffer longString) = some (some written) ∧
      ¬ SizedCall.KeepsSizes CPython.ofBytes (fun _ => 0) .zeroFilled
        (.tvnpEncodeUtf8String longBuffer longString) written := by
  have hlength : longString.1.length = 2 ^ 32 := List.length_replicate
  have hnarrow : Token.narrowString longString.1 = [] := by
    rw [Token.narrowString, hlength, Nat.mod_self, List.take_zero]
  have hroom : longBuffer.offset + (wire [(Token.utf8 longString.1).narrow]).length ≤
      longBuffer.size := by
    rw [Token.narrow, hnarrow, TvuBuffer.size, longBuffer, List.length_replicate]
    decide
  exact SizedCall.exists_not_keepsSizes hlength.ge hroom

end Libtvnet
