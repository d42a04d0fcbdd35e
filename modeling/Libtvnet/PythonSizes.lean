import Libtvnet.PythonDecoded
import Libtvnet.ShortestToken

/-!
# Sizes from `2^32` on

The length pass counts a size in full and the encoding pass writes it as a
32-bit number.  A container that comes back has fewer than `2^32` entries, and
a long string leaves the end of the block unwritten.
-/

namespace Libtvnet

open Libtvnet.Foundation

variable {Unicode : Type}

/-! ## Containers that come back -/

namespace PyObject

theorem countedPairs_iff {items : List (PyObject Unicode × PyObject Unicode)} :
    CountedPairs items ↔
      (∀ key ∈ items.map Prod.fst, Counted key) ∧ ∀ value ∈ items.map Prod.snd, Counted value := by
  induction items with
  | nil => simp [CountedPairs]
  | cons item items ih =>
      simp only [CountedPairs, ih, List.map_cons, List.forall_mem_cons]
      tauto

end PyObject

section Counted

def CPython.GrowsByOne (python : CPython Unicode) : Prop :=
  ∀ items key value items', python.dictSetItem items key value = some items' →
    items'.length ≤ items.length + 1

variable {python : CPython Unicode} {indeterminate : TvnpToken}

theorem PyObject.IsScalar.counted {o : PyObject Unicode} (h : o.IsScalar) : o.Counted := by
  cases o with
  | list | dict | tuple | set => contradiction
  | _ => trivial

private theorem pytvnDecodeItems_counted
    {recurse : TvuBuffer → Option (DecodeRun Unicode (PyObject Unicode))}
    (hrecurse : ∀ b run object, recurse b = some run → run.result = some object →
      object.Counted) {n : Nat} {b : TvuBuffer}
    {items : List (PyObject Unicode)} {run : DecodeRun Unicode (List (PyObject Unicode))}
    (hrun : pytvnDecodeItems recurse n b = some run) (hresult : run.result = some items) :
    items.length = n ∧ PyObject.CountedItems items := by
  induction n generalizing b items run with
  | zero =>
      cases hrun
      cases hresult
      exact ⟨rfl, trivial⟩
  | succ n ih =>
      cases pytvnDecodeItems_succ_iff.mp hrun with
      | fails => cases hresult
      | sets first object rest hfirst hobject hrest =>
          obtain ⟨objects, hobjects, rfl⟩ := Option.map_eq_some_iff.mp hresult
          obtain ⟨hlength, hcounted⟩ := ih hrest hobjects
          exact ⟨congrArg Nat.succ hlength, hrecurse _ _ _ hfirst hobject, hcounted⟩

private theorem pytvnDecodePairs_counted (hgrow : python.GrowsByOne)
    {recurse : TvuBuffer → Option (DecodeRun Unicode (PyObject Unicode))}
    (hrecurse : ∀ b run object, recurse b = some run → run.result = some object →
      object.Counted) {n : Nat}
    {entries items : List (PyObject Unicode × PyObject Unicode)} {b : TvuBuffer}
    {run : DecodeRun Unicode (List (PyObject Unicode × PyObject Unicode))}
    (hrun : pytvnDecodePairs python recurse n entries b = some run)
    (hresult : run.result = some items) (hentries : PyObject.CountedPairs entries) :
    items.length ≤ entries.length + n ∧ PyObject.CountedPairs items := by
  induction n generalizing b entries run with
  | zero =>
      cases hrun
      cases hresult
      exact ⟨le_refl _, hentries⟩
  | succ n ih =>
      cases pytvnDecodePairs_succ_iff.mp hrun with
      | keyFails | valueFails | setFails => cases hresult
      | sets keyRun valueRun key value entries' rest hkeyRun hkey hvalueRun hvalue hset hrest =>
          have hnext : PyObject.CountedPairs entries' := by
            rw [PyObject.countedPairs_iff] at hentries ⊢
            exact python.forall_dictSetItem hset hentries (hrecurse _ _ _ hkeyRun hkey)
              (hrecurse _ _ _ hvalueRun hvalue)
          obtain ⟨hlength, hcounted⟩ := ih hrest hresult hnext
          have hstep := hgrow _ _ _ _ hset
          exact ⟨by omega, hcounted⟩

theorem pytvnDecodeRecurse_counted (hgrow : python.GrowsByOne) {fuel : Nat} {b : TvuBuffer}
    {run : DecodeRun Unicode (PyObject Unicode)} {object : PyObject Unicode}
    (hrun : pytvnDecodeRecurse python indeterminate fuel b = some run)
    (hresult : run.result = some object) : object.Counted := by
  induction fuel generalizing b run object with
  | zero => simp [pytvnDecodeRecurse] at hrun
  | succ fuel ih =>
      cases htoken : tvnpDecodeToken indeterminate b with
      | none => simp [pytvnDecodeRecurse, htoken] at hrun
      | some decoded =>
          obtain ⟨token, b'⟩ := decoded
          have hcount := tvnpDecodeToken_shortestOutcome htoken
          by_cases hleaf : token.type ≠ .tokenEnd ∧ token.type ≠ .tokenList ∧
              token.type ≠ .tokenDictionary
          · obtain ⟨heq, -⟩ := pytvnDecodeRecurse_of_leaf htoken hleaf hrun
            exact (leaf_isScalar (heq.symm.trans hresult)).counted
          · unfold ShortestOutcome at hcount
            simp only [pytvnDecodeRecurse, htoken, Option.bind_eq_bind, Option.bind_some] at hrun
            cases htype : token.type <;> simp only [htype, ne_eq, not_true_eq_false, false_and,
              and_false, not_false_eq_true, reduceCtorEq, and_self] at hleaf hrun hcount
            case tokenEnd =>
              obtain rfl := Option.some.inj hrun
              cases hresult
              trivial
            case tokenList =>
              obtain ⟨itemsRun, hitemsRun, hrun⟩ := Option.bind_eq_some_iff.mp hrun
              obtain rfl := Option.some.inj hrun
              obtain ⟨items, hitems, rfl⟩ := Option.map_eq_some_iff.mp hresult
              obtain ⟨hlength, hcounted⟩ :=
                pytvnDecodeItems_counted (fun _ _ _ h h' => ih h h') hitemsRun hitems
              exact ⟨hlength ▸ hcount.1, hcounted⟩
            case tokenDictionary =>
              obtain ⟨pairsRun, hpairsRun, hrun⟩ := Option.bind_eq_some_iff.mp hrun
              obtain rfl := Option.some.inj hrun
              obtain ⟨items, hitems, rfl⟩ := Option.map_eq_some_iff.mp hresult
              obtain ⟨hlength, hcounted⟩ :=
                pytvnDecodePairs_counted hgrow (fun _ _ _ h h' => ih h h') hpairsRun hitems trivial
              rw [List.length_nil, Nat.zero_add] at hlength
              exact ⟨hlength.trans_lt hcount.1, hcounted⟩

end Counted

/-! ## Bytes that are not written -/

private theorem length_compoundBytes_mono (control : UInt8) {m n : Nat} (h : m ≤ n) :
    (compoundBytes control m).length ≤ (compoundBytes control n).length := by
  unfold compoundBytes
  split_ifs <;> simp <;> omega

namespace Token

def StringFits : Token → Prop
  | utf8 string | binary string => string.length < 2 ^ 32
  | _ => True

private theorem length_narrow_le (t : Token) : t.narrow.bytes.length ≤ t.bytes.length ∧
    (t.narrow.bytes.length = t.bytes.length → t.StringFits) := by
  have hstring (string : List UInt8) : (narrowString string).length ≤ string.length := by
    rw [length_narrowString]
    exact Nat.mod_le _ _
  have hfits (string : List UInt8) (h : (narrowString string).length = string.length) :
      string.length < 2 ^ 32 := h ▸ length_narrowString_lt string
  cases t with
  | utf8 string =>
      have hle := hstring string
      have hheader := length_compoundBytes_mono 0x80 hle
      simp only [narrow, bytes, List.length_append, List.length_singleton]
      exact ⟨by omega, fun h => hfits string (by omega)⟩
  | binary string =>
      have hle := hstring string
      have hheader := length_compoundBytes_mono 0xa0 hle
      simp only [narrow, bytes, List.length_append]
      exact ⟨by omega, fun h => hfits string (by omega)⟩
  | list count => exact ⟨length_compoundBytes_mono _ (Nat.mod_le _ _), fun _ => trivial⟩
  | dictionary count => exact ⟨length_compoundBytes_mono _ (Nat.mod_le _ _), fun _ => trivial⟩
  | _ => exact ⟨le_refl _, fun _ => trivial⟩

end Token

theorem length_wire_narrow_le (ts : List Token) :
    (wire (ts.map Token.narrow)).length ≤ (wire ts).length ∧
      ((wire (ts.map Token.narrow)).length = (wire ts).length → ∀ t ∈ ts, t.StringFits) := by
  induction ts with
  | nil => simp
  | cons t ts ih =>
      obtain ⟨hle, hfits⟩ := t.length_narrow_le
      simp only [List.map_cons, wire_cons, List.length_append]
      exact ⟨by omega, fun h => List.forall_mem_cons.mpr ⟨hfits (by omega), ih.2 (by omega)⟩⟩

section Sized

variable {python : CPython Unicode} {undefined : Binary64 → Int}

mutual

theorem PyObject.Counted.sized {ts : List Token} : ∀ {o : PyObject Unicode}, o.Counted →
    o.tokens python undefined = some ts → (∀ t ∈ ts, t.StringFits) → o.Sized python
  | .endOfData, _, _, _ | .other, _, _, _ | .none, _, _, _ | .int _, _, _, _
  | .float _, _, _, _ => trivial
  | .string bytes, _, h, hfits | .byteArray bytes, _, h, hfits => by
      obtain rfl := Option.some.inj h
      exact hfits _ List.mem_cons_self
  | .unicode u, _, h, hfits => by
      rw [PyObject.tokens] at h
      obtain ⟨utf8String, hutf8, rfl⟩ := Option.map_eq_some_iff.mp h
      intro bytes hbytes
      obtain rfl := Option.some.inj (hutf8.symm.trans hbytes)
      exact hfits _ List.mem_cons_self
  | .dict items, hcounted, h, hfits => by
      rw [PyObject.tokens] at h
      obtain ⟨us, hus, rfl⟩ := Option.map_eq_some_iff.mp h
      exact ⟨hcounted.1, PyObject.CountedPairs.sized hcounted.2 hus
        (List.forall_mem_cons.mp hfits).2⟩
  | .list items, hcounted, h, hfits | .tuple items, hcounted, h, hfits
  | .set items, hcounted, h, hfits => by
      rw [PyObject.tokens] at h
      obtain ⟨us, hus, rfl⟩ := Option.map_eq_some_iff.mp h
      exact ⟨hcounted.1, PyObject.CountedItems.sized hcounted.2 hus
        (List.forall_mem_cons.mp hfits).2⟩

theorem PyObject.CountedItems.sized {ts : List Token} : ∀ {items : List (PyObject Unicode)},
    PyObject.CountedItems items → PyObject.tokensOfItems python undefined items = some ts →
    (∀ t ∈ ts, t.StringFits) → PyObject.SizedItems python items
  | [], _, _, _ => trivial
  | item :: items, hcounted, h, hfits => by
      rw [PyObject.tokensOfItems] at h
      obtain ⟨us, hus, h⟩ := Option.bind_eq_some_iff.mp h
      obtain ⟨vs, hvs, h⟩ := Option.bind_eq_some_iff.mp h
      obtain rfl := Option.some.inj h
      rw [List.forall_mem_append] at hfits
      exact ⟨PyObject.Counted.sized hcounted.1 hus hfits.1,
        PyObject.CountedItems.sized hcounted.2 hvs hfits.2⟩

theorem PyObject.CountedPairs.sized {ts : List Token} :
    ∀ {items : List (PyObject Unicode × PyObject Unicode)}, PyObject.CountedPairs items →
    PyObject.tokensOfPairs python undefined items = some ts → (∀ t ∈ ts, t.StringFits) →
    PyObject.SizedPairs python items
  | [], _, _, _ => trivial
  | (key, value) :: items, hcounted, h, hfits => by
      rw [PyObject.tokensOfPairs] at h
      obtain ⟨us, hus, h⟩ := Option.bind_eq_some_iff.mp h
      obtain ⟨vs, hvs, h⟩ := Option.bind_eq_some_iff.mp h
      obtain ⟨ws, hws, h⟩ := Option.bind_eq_some_iff.mp h
      obtain rfl := Option.some.inj h
      rw [List.forall_mem_append, List.forall_mem_append] at hfits
      exact ⟨PyObject.Counted.sized hcounted.1 hus hfits.1.1,
        PyObject.Counted.sized hcounted.2.1 hvs hfits.1.2,
        PyObject.CountedPairs.sized hcounted.2.2 hws hfits.2⟩

end

mutual

theorem PyObject.Sized.counted : ∀ {o : PyObject Unicode}, o.Sized python → o.Counted
  | .endOfData, _ | .other, _ | .none, _ | .int _, _ | .float _, _ | .string _, _
  | .byteArray _, _ | .unicode _, _ => trivial
  | .dict _, h => ⟨h.1, PyObject.SizedPairs.counted h.2⟩
  | .list _, h | .tuple _, h | .set _, h => ⟨h.1, PyObject.SizedItems.counted h.2⟩

theorem PyObject.SizedItems.counted : ∀ {items : List (PyObject Unicode)},
    PyObject.SizedItems python items → PyObject.CountedItems items
  | [], _ => trivial
  | _ :: _, h => ⟨PyObject.Sized.counted h.1, PyObject.SizedItems.counted h.2⟩

theorem PyObject.SizedPairs.counted :
    ∀ {items : List (PyObject Unicode × PyObject Unicode)},
    PyObject.SizedPairs python items → PyObject.CountedPairs items
  | [], _ => trivial
  | _ :: _, h => ⟨PyObject.Sized.counted h.1, PyObject.Sized.counted h.2.1,
      PyObject.SizedPairs.counted h.2.2⟩

end

end Sized

end Libtvnet
