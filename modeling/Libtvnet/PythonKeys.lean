import Libtvnet.Foundation.AssociationList
import Libtvnet.PythonSizes

/-!
# Dictionary keys that come back

A dictionary may have a tuple or a frozen set as a key, which is sent as a list
and cannot be a key again.  Two keys that are sent as equal ones are one key
behind the decoder.
-/

namespace Libtvnet

open Libtvnet.Foundation

variable {Unicode : Type}

/--
`PyDict_SetItem`, where `same` compares the keys: it fails for keys without a
hash, and otherwise sets an entry, in whatever order the dictionary has.
-/
structure CPython.SetsItems (python : CPython Unicode)
    (same : PyObject Unicode → PyObject Unicode → Bool) : Prop where
  fails : ∀ items key value, key.IsContainer → python.dictSetItem items key value = none
  succeeds : ∀ items key value, key.IsScalar → ∃ items',
    python.dictSetItem items key value = some items'
  sets : ∀ items key value items', python.dictSetItem items key value = some items' →
    items'.Perm (setEntry same items key value)

def CPython.DecodesStrings (python : CPython Unicode) : Prop :=
  ∀ u bytes, python.asUTF8String u = some bytes → ∃ u', python.decodeUTF8 bytes = some u'

theorem CPython.SetsItems.growsByOne {python : CPython Unicode}
    {same : PyObject Unicode → PyObject Unicode → Bool} (h : python.SetsItems same) :
    python.GrowsByOne := by
  intro items key value items' hset
  rw [(h.sets _ _ _ _ hset).length_eq]
  exact length_setEntry_le _ _ _

/-! ## The same numbers of entries -/

namespace PyObject

mutual

/-- The second object has an entry for each entry of the first, at every depth. -/
def SameShape : PyObject Unicode → PyObject Unicode → Prop
  | dict items, o => ∃ items' pairs, o = dict items' ∧ items'.Perm pairs ∧ SamePairs items pairs
  | list items, o | tuple items, o | set items, o =>
      ∃ items', o = list items' ∧ SameItems items items'
  | _, o => o.IsScalar

def SameItems : List (PyObject Unicode) → List (PyObject Unicode) → Prop
  | [], items' => items' = []
  | item :: items, items' => ∃ item' others, items' = item' :: others ∧ SameShape item item' ∧
      SameItems items others

def SamePairs : List (PyObject Unicode × PyObject Unicode) →
    List (PyObject Unicode × PyObject Unicode) → Prop
  | [], pairs => pairs = []
  | (key, value) :: items, pairs => ∃ key' value' others, pairs = (key', value') :: others ∧
      SameShape key key' ∧ SameShape value value' ∧ SamePairs items others

end

mutual

/-- The number of all entries, those inside of keys apart. -/
def entryCount : PyObject Unicode → Nat
  | dict items => entryCountPairs items
  | list items | tuple items | set items => entryCountItems items
  | _ => 0

def entryCountItems : List (PyObject Unicode) → Nat
  | [] => 0
  | item :: items => entryCount item + 1 + entryCountItems items

def entryCountPairs : List (PyObject Unicode × PyObject Unicode) → Nat
  | [] => 0
  | (_, value) :: items => entryCount value + 1 + entryCountPairs items

end

theorem entryCountPairs_eq (items : List (PyObject Unicode × PyObject Unicode)) :
    entryCountPairs items = entriesTotal entryCount items := by
  induction items with
  | nil => rfl
  | cons item items ih => rw [entryCountPairs, ih, entriesTotal, entriesTotal, List.map_cons,
      List.sum_cons]

theorem IsScalar.entryCount_eq {o : PyObject Unicode} (h : o.IsScalar) : o.entryCount = 0 := by
  cases o with
  | list | dict | tuple | set => contradiction
  | _ => rfl

mutual

theorem SameShape.entryCount_eq : ∀ {o o' : PyObject Unicode}, SameShape o o' →
    o'.entryCount = o.entryCount
  | .dict items, _, ⟨items', pairs, heq, hperm, hpairs⟩ => by
      rw [heq, entryCount, entryCount, ← SamePairs.entryCountPairs_eq hpairs,
        PyObject.entryCountPairs_eq, PyObject.entryCountPairs_eq, entriesTotal_of_perm hperm]
  | .list items, _, ⟨items', heq, hitems⟩ | .tuple items, _, ⟨items', heq, hitems⟩
  | .set items, _, ⟨items', heq, hitems⟩ => by
      rw [heq, entryCount, entryCount, SameItems.entryCountItems_eq hitems]
  | .endOfData, _, h | .none, _, h | .int _, _, h | .float _, _, h | .string _, _, h
  | .byteArray _, _, h | .unicode _, _, h | .other, _, h => IsScalar.entryCount_eq h

theorem SameItems.entryCountItems_eq : ∀ {items items' : List (PyObject Unicode)},
    SameItems items items' → entryCountItems items' = entryCountItems items
  | [], _, h => by
      obtain rfl := h
      rfl
  | item :: items, _, ⟨item', others, heq, hfirst, hrest⟩ => by
      rw [heq, entryCountItems, entryCountItems, SameShape.entryCount_eq hfirst,
        SameItems.entryCountItems_eq hrest]

theorem SamePairs.entryCountPairs_eq :
    ∀ {items pairs : List (PyObject Unicode × PyObject Unicode)},
    SamePairs items pairs → entryCountPairs pairs = entryCountPairs items
  | [], _, h => by
      obtain rfl := h
      rfl
  | (key, value) :: items, _, ⟨key', value', others, heq, _, hvalue, hrest⟩ => by
      rw [heq, entryCountPairs, entryCountPairs, SameShape.entryCount_eq hvalue,
        SamePairs.entryCountPairs_eq hrest]

end

theorem SameItems.length_eq {items items' : List (PyObject Unicode)}
    (h : SameItems items items') : items'.length = items.length := by
  induction items generalizing items' with
  | nil =>
      obtain rfl := h
      rfl
  | cons item items ih =>
      obtain ⟨item', others, rfl, -, hrest⟩ := h
      rw [List.length_cons, List.length_cons, ih hrest]

theorem SamePairs.length_eq {items pairs : List (PyObject Unicode × PyObject Unicode)}
    (h : SamePairs items pairs) : pairs.length = items.length := by
  induction items generalizing pairs with
  | nil =>
      obtain rfl := h
      rfl
  | cons item items ih =>
      obtain ⟨key', value', others, rfl, -, -, hrest⟩ := h
      rw [List.length_cons, List.length_cons, ih hrest]

mutual

theorem SameShape.counted : ∀ {o o' : PyObject Unicode}, SameShape o o' → o'.Counted → o.Counted
  | .dict items, _, ⟨items', pairs, heq, hperm, hpairs⟩, h => by
      rw [heq] at h
      refine ⟨?_, SamePairs.counted hpairs ?_⟩
      · rw [← hpairs.length_eq, ← hperm.length_eq]
        exact h.1
      · have hall := countedPairs_iff.mp h.2
        exact countedPairs_iff.mpr ⟨fun key hkey => hall.1 key ((hperm.map _).mem_iff.mpr hkey),
          fun value hvalue => hall.2 value ((hperm.map _).mem_iff.mpr hvalue)⟩
  | .list items, _, ⟨items', heq, hitems⟩, h | .tuple items, _, ⟨items', heq, hitems⟩, h
  | .set items, _, ⟨items', heq, hitems⟩, h => by
      rw [heq] at h
      exact ⟨hitems.length_eq ▸ h.1, SameItems.counted hitems h.2⟩
  | .endOfData, _, _, _ | .none, _, _, _ | .int _, _, _, _ | .float _, _, _, _
  | .string _, _, _, _ | .byteArray _, _, _, _ | .unicode _, _, _, _ | .other, _, _, _ => trivial

theorem SameItems.counted : ∀ {items items' : List (PyObject Unicode)},
    SameItems items items' → CountedItems items' → CountedItems items
  | [], _, _, _ => trivial
  | _ :: _, _, ⟨_, _, heq, hfirst, hrest⟩, h => by
      rw [heq] at h
      exact ⟨SameShape.counted hfirst h.1, SameItems.counted hrest h.2⟩

theorem SamePairs.counted : ∀ {items pairs : List (PyObject Unicode × PyObject Unicode)},
    SamePairs items pairs → CountedPairs pairs → CountedPairs items
  | [], _, _, _ => trivial
  | (_, _) :: _, _, ⟨_, _, _, heq, hkey, hvalue, hrest⟩, h => by
      rw [heq] at h
      exact ⟨SameShape.counted hkey h.1, SameShape.counted hvalue h.2.1,
        SamePairs.counted hrest h.2.2⟩

end

end PyObject

/-! ## Keys that are sent -/

namespace PyObject

variable (python : CPython Unicode) (undefined : Binary64 → Int)
  (same : PyObject Unicode → PyObject Unicode → Bool)

def sentKey : PyObject Unicode → Option (PyObject Unicode)
  | none => some none
  | int x => some (int x)
  | float x =>
      some (if x.integral then int (Int64.ofInt (IntegerType.int64.ofBinary undefined x))
        else float x)
  | string bytes | byteArray bytes => some (string bytes)
  | unicode u => do
      let bytes ← python.asUTF8String u
      let u ← python.decodeUTF8 bytes
      some (unicode u)
  | _ => .none

/-- No key is sent as a container, and no key as the same as one before. -/
def KeysApart (items : List (PyObject Unicode × PyObject Unicode)) : Prop :=
  ∃ sent : List (PyObject Unicode),
    items.map (fun item => item.1.sentKey python undefined) = sent.map some ∧
    sent.Pairwise fun earlier later => same earlier later = false

mutual

def KeysSent : PyObject Unicode → Prop
  | dict items => KeysApart python undefined same items ∧ KeysSentValues items
  | list items | tuple items | set items => KeysSentItems items
  | _ => True

def KeysSentItems : List (PyObject Unicode) → Prop
  | [] => True
  | item :: items => KeysSent item ∧ KeysSentItems items

def KeysSentValues : List (PyObject Unicode × PyObject Unicode) → Prop
  | [] => True
  | (_, value) :: items => KeysSent value ∧ KeysSentValues items

end

section Sent

variable {python undefined same}

private theorem sentKey_scalar {key sent : PyObject Unicode}
    (h : key.sentKey python undefined = some sent) : sent.IsScalar := by
  unfold sentKey at h
  split at h
  case h_3 =>
    split_ifs at h
    all_goals
      obtain rfl := Option.some.inj h
      trivial
  case h_6 =>
    obtain ⟨bytes, -, h⟩ := Option.bind_eq_some_iff.mp h
    obtain ⟨u, -, h⟩ := Option.bind_eq_some_iff.mp h
    obtain rfl := Option.some.inj h
    trivial
  all_goals
    first
    | contradiction
    | obtain rfl := Option.some.inj h
      trivial

private theorem sameShape_of_sentKey {key sent : PyObject Unicode}
    (h : key.sentKey python undefined = some sent) : SameShape key sent := by
  have hscalar := sentKey_scalar h
  cases key with
  | dict | list | tuple | set => contradiction
  | _ => exact hscalar

theorem decoded_key {key : PyObject Unicode} (hsized : key.Sized python) :
    key.decoded python undefined = key.sentKey python undefined ∨
      key.sentKey python undefined = .none ∧
        ∀ object, key.decoded python undefined = some object → object.IsContainer := by
  cases key with
  | dict items | list items | tuple items | set items =>
      refine .inr ⟨rfl, fun object hobject => ?_⟩
      obtain ⟨_, -, rfl⟩ := Option.map_eq_some_iff.mp hobject
      trivial
  | string bytes | byteArray bytes =>
      left
      rw [decoded, sentKey, Token.narrowString_of_lt hsized]
  | unicode u =>
      left
      cases hutf8 : python.asUTF8String u with
      | none => simp [decoded, sentKey, hutf8]
      | some bytes =>
          simp only [decoded, sentKey, hutf8, Option.bind_eq_bind, Option.bind_some,
            Token.narrowString_of_lt (hsized bytes hutf8)]
  | _ => exact .inl rfl

mutual

theorem entryCount_decoded (hset : python.SetsItems same) : ∀ {o o' : PyObject Unicode},
    o.Sized python → o.decoded python undefined = some o' →
    o'.entryCount ≤ o.entryCount ∧
      (o'.entryCount = o.entryCount → o.KeysSent python undefined same)
  | .dict items, o', hsized, h => by
      obtain ⟨items', hitems, rfl⟩ := Option.map_eq_some_iff.mp h
      obtain ⟨hle, hsent⟩ := entryCountPairs_decoded hset hsized.2 hitems
      rw [entryCount, entryCount, entryCountPairs_eq items']
      refine ⟨by simpa [entriesTotal] using hle, fun heq => ?_⟩
      obtain ⟨sent, hkeys, hapart, -, hvalues⟩ := hsent (by simpa [entriesTotal] using heq)
      exact ⟨⟨sent, hkeys, hapart⟩, hvalues⟩
  | .list items, o', hsized, h | .tuple items, o', hsized, h | .set items, o', hsized, h => by
      obtain ⟨items', hitems, rfl⟩ := Option.map_eq_some_iff.mp h
      exact entryCountItems_decoded hset hsized.2 hitems
  | .endOfData, _, _, h | .other, _, _, h => by cases h
  | .none, _, _, h | .int _, _, _, h | .string _, _, _, h | .byteArray _, _, _, h => by
      obtain rfl := Option.some.inj h
      exact ⟨le_refl _, fun _ => trivial⟩
  | .float x, _, _, h => by
      rw [decoded] at h
      split_ifs at h
      all_goals
        obtain rfl := Option.some.inj h
        exact ⟨le_refl _, fun _ => trivial⟩
  | .unicode u, _, _, h => by
      obtain ⟨bytes, -, h⟩ := Option.bind_eq_some_iff.mp h
      obtain ⟨u, -, h⟩ := Option.bind_eq_some_iff.mp h
      obtain rfl := Option.some.inj h
      exact ⟨le_refl _, fun _ => trivial⟩

theorem entryCountItems_decoded (hset : python.SetsItems same) :
    ∀ {items items' : List (PyObject Unicode)}, SizedItems python items →
    decodedItems python undefined items = some items' →
    entryCountItems items' ≤ entryCountItems items ∧
      (entryCountItems items' = entryCountItems items → KeysSentItems python undefined same items)
  | [], _, _, h => by
      obtain rfl := Option.some.inj h
      exact ⟨le_refl _, fun _ => trivial⟩
  | item :: items, _, hsized, h => by
      obtain ⟨object, hobject, h⟩ := Option.bind_eq_some_iff.mp h
      obtain ⟨objects, hobjects, h⟩ := Option.bind_eq_some_iff.mp h
      obtain rfl := Option.some.inj h
      obtain ⟨hle, hsent⟩ := entryCount_decoded hset hsized.1 hobject
      obtain ⟨hles, hsents⟩ := entryCountItems_decoded hset hsized.2 hobjects
      rw [entryCountItems, entryCountItems]
      exact ⟨by omega, fun heq => ⟨hsent (by omega), hsents (by omega)⟩⟩

private theorem entryCountPairs_decoded (hset : python.SetsItems same) :
    ∀ {items entries items' : List (PyObject Unicode × PyObject Unicode)},
    SizedPairs python items → decodedPairs python undefined entries items = some items' →
    entriesTotal entryCount items' ≤ entriesTotal entryCount entries + entryCountPairs items ∧
      (entriesTotal entryCount items' =
          entriesTotal entryCount entries + entryCountPairs items →
        ∃ sent : List (PyObject Unicode),
          items.map (fun item => item.1.sentKey python undefined) = sent.map some ∧
          (sent.Pairwise fun earlier later => same earlier later = false) ∧
          (∀ key ∈ sent, Absent same entries key) ∧ KeysSentValues python undefined same items)
  | [], _, _, _, h => by
      obtain rfl := Option.some.inj h
      exact ⟨le_refl _, fun _ => ⟨[], rfl, .nil, nofun, trivial⟩⟩
  | (key, value) :: items, entries, items', hsized, h => by
      obtain ⟨key', hkey, h⟩ := Option.bind_eq_some_iff.mp h
      obtain ⟨value', hvalue, h⟩ := Option.bind_eq_some_iff.mp h
      obtain ⟨entries', hentries, h⟩ := Option.bind_eq_some_iff.mp h
      have hsent : key.sentKey python undefined = some key' := by
        rcases decoded_key hsized.1 with heq | ⟨-, hcontainer⟩
        · exact heq.symm.trans hkey
        · rw [hset.fails _ _ _ (hcontainer key' hkey)] at hentries
          contradiction
      have hperm := hset.sets _ _ _ _ hentries
      have htotal : entriesTotal entryCount entries' =
          entriesTotal entryCount (setEntry same entries key' value') :=
        entriesTotal_of_perm hperm
      obtain ⟨hle, hvalueSent⟩ := entryCount_decoded hset hsized.2.1 hvalue
      obtain ⟨hles, hsents⟩ := entryCountPairs_decoded hset hsized.2.2 h
      rw [entryCountPairs]
      rcases @entriesTotal_setEntry _ _ same entryCount entries key' value' with
        ⟨habsent, hgrown⟩ | hlost
      · refine ⟨by omega, fun heq => ?_⟩
        obtain ⟨sent, hkeys, hapart, hnew, hvalues⟩ := hsents (by omega)
        rw [setEntry_of_absent value' habsent] at hperm
        have hmem (entry : PyObject Unicode × PyObject Unicode) :
            entry ∈ entries' ↔ entry ∈ entries ∨ entry = (key', value') := by
          rw [hperm.mem_iff, List.mem_append, List.mem_singleton]
        refine ⟨key' :: sent, by simp only [List.map_cons, hsent, hkeys],
          List.pairwise_cons.mpr ⟨fun later hlater => ?_, hapart⟩,
          List.forall_mem_cons.mpr ⟨habsent, fun later hlater entry hentry => ?_⟩,
          hvalueSent (by omega), hvalues⟩
        · exact hnew later hlater (key', value') ((hmem _).mpr (.inr rfl))
        · exact hnew later hlater entry ((hmem entry).mpr (.inl hentry))
      · exact ⟨by omega, fun heq => by omega⟩

end

/-! ## Keys that stay apart come back -/

mutual

theorem KeysSent.decoded (hset : python.SetsItems same) (hstrings : python.DecodesStrings) :
    ∀ {o : PyObject Unicode} {ts : List Token}, o.Sized python →
    o.tokens python undefined = some ts → o.KeysSent python undefined same →
    ∃ o', o.decoded python undefined = some o' ∧ SameShape o o'
  | .endOfData, _, _, hts, _ | .other, _, _, hts, _ => by simp [tokens] at hts
  | .none, _, _, _, _ | .int _, _, _, _, _ | .string _, _, _, _, _
  | .byteArray _, _, _, _, _ => ⟨_, rfl, trivial⟩
  | .float x, _, _, _, _ => by
      refine ⟨_, rfl, ?_⟩
      split_ifs
      all_goals trivial
  | .unicode u, _, hsized, hts, _ => by
      obtain ⟨bytes, hutf8, -⟩ := Option.map_eq_some_iff.mp hts
      obtain ⟨u', hu'⟩ := hstrings u bytes hutf8
      refine ⟨.unicode u', ?_, trivial⟩
      simp only [PyObject.decoded, hutf8, Option.bind_eq_bind, Option.bind_some,
        Token.narrowString_of_lt (hsized bytes hutf8), hu']
  | .list items, _, hsized, hts, hsent | .tuple items, _, hsized, hts, hsent
  | .set items, _, hsized, hts, hsent => by
      obtain ⟨us, hus, -⟩ := Option.map_eq_some_iff.mp hts
      obtain ⟨items', hitems, hshape⟩ :=
        KeysSentItems.decodedItems hset hstrings hsized.2 hus hsent
      exact ⟨.list items', by rw [PyObject.decoded, hitems]; rfl, items', rfl, hshape⟩
  | .dict items, _, hsized, hts, ⟨⟨sent, hkeys, hapart⟩, hvalues⟩ => by
      obtain ⟨us, hus, -⟩ := Option.map_eq_some_iff.mp hts
      have habsent : ∀ key ∈ sent, Absent same ([] : List (PyObject Unicode × PyObject Unicode))
          key := by simp [Absent]
      obtain ⟨items', pairs, hitems, hperm, hshape⟩ := KeysSentValues.decodedPairs hset hstrings
        hsized.2 hus hkeys hapart habsent hvalues
      exact ⟨.dict items', by rw [PyObject.decoded, hitems]; rfl, items', pairs, rfl, hperm,
        hshape⟩

theorem KeysSentItems.decodedItems (hset : python.SetsItems same)
    (hstrings : python.DecodesStrings) : ∀ {items : List (PyObject Unicode)} {ts : List Token},
    SizedItems python items → tokensOfItems python undefined items = some ts →
    KeysSentItems python undefined same items →
    ∃ items', PyObject.decodedItems python undefined items = some items' ∧ SameItems items items'
  | [], _, _, _, _ => ⟨[], rfl, rfl⟩
  | item :: items, _, hsized, hts, hsent => by
      obtain ⟨us, hus, hts⟩ := Option.bind_eq_some_iff.mp hts
      obtain ⟨vs, hvs, -⟩ := Option.bind_eq_some_iff.mp hts
      obtain ⟨item', hitem, hfirst⟩ := KeysSent.decoded hset hstrings hsized.1 hus hsent.1
      obtain ⟨items', hitems, hrest⟩ :=
        KeysSentItems.decodedItems hset hstrings hsized.2 hvs hsent.2
      exact ⟨item' :: items', by rw [PyObject.decodedItems, hitem, hitems]; rfl, item', items',
        rfl, hfirst, hrest⟩

theorem KeysSentValues.decodedPairs (hset : python.SetsItems same)
    (hstrings : python.DecodesStrings) :
    ∀ {items entries : List (PyObject Unicode × PyObject Unicode)} {ts : List Token}
    {sent : List (PyObject Unicode)}, SizedPairs python items →
    tokensOfPairs python undefined items = some ts →
    items.map (fun item => item.1.sentKey python undefined) = sent.map some →
    (sent.Pairwise fun earlier later => same earlier later = false) →
    (∀ key ∈ sent, Absent same entries key) → KeysSentValues python undefined same items →
    ∃ items' pairs, PyObject.decodedPairs python undefined entries items = some items' ∧
      items'.Perm (entries ++ pairs) ∧ SamePairs items pairs
  | [], entries, _, _, _, _, _, _, _, _ =>
      ⟨entries, [], rfl, by rw [List.append_nil], rfl⟩
  | (key, value) :: items, entries, _, [], _, _, hkeys, _, _, _ => by simp at hkeys
  | (key, value) :: items, entries, _, key' :: sent, hsized, hts, hkeys, hapart, habsent,
      hvalues => by
      obtain ⟨us, hus, hts⟩ := Option.bind_eq_some_iff.mp hts
      obtain ⟨vs, hvs, hts⟩ := Option.bind_eq_some_iff.mp hts
      obtain ⟨ws, hws, -⟩ := Option.bind_eq_some_iff.mp hts
      obtain ⟨hkey, hkeys⟩ := List.cons.inj hkeys
      obtain ⟨hlater, hapart⟩ := List.pairwise_cons.mp hapart
      obtain ⟨hfirst, habsent⟩ := List.forall_mem_cons.mp habsent
      have hkeyDecoded : key.decoded python undefined = some key' := by
        rcases decoded_key hsized.1 with heq | ⟨hnone, -⟩
        · exact heq.trans hkey
        · exact absurd (hkey.symm.trans hnone) (by simp)
      obtain ⟨value', hvalue, hvalueShape⟩ :=
        KeysSent.decoded hset hstrings hsized.2.1 hvs hvalues.1
      obtain ⟨entries', hentries⟩ := hset.succeeds entries key' value' (sentKey_scalar hkey)
      have hperm := hset.sets _ _ _ _ hentries
      rw [setEntry_of_absent value' hfirst] at hperm
      have hnext : ∀ k ∈ sent, Absent same entries' k := by
        intro k hk entry hentry
        rcases List.mem_append.mp (hperm.mem_iff.mp hentry) with hold | hnew
        · exact habsent k hk entry hold
        · obtain rfl := List.mem_singleton.mp hnew
          exact hlater k hk
      obtain ⟨items', pairs, hitems, hitemsPerm, hshape⟩ := KeysSentValues.decodedPairs hset
        hstrings hsized.2.2 hws hkeys hapart hnext hvalues.2
      refine ⟨items', (key', value') :: pairs, ?_, ?_, key', value', pairs, rfl, ?_, hvalueShape,
        hshape⟩
      · simp only [PyObject.decodedPairs, hkeyDecoded, hvalue, hentries, Option.bind_eq_bind,
          Option.bind_some, hitems]
      · have happend := hitemsPerm.trans (hperm.append_right pairs)
        rw [List.append_assoc] at happend
        exact happend
      · exact sameShape_of_sentKey hkey

end

end Sent

end PyObject

end Libtvnet
