import Libtvnet.EndOfData
import Libtvnet.PythonRoundTrip
import Libtvnet.ShortestToken

/-!
# The canonical encoding of a value tree

A tree may lie in many byte strings, as numbers and lengths have wider forms.
What the encoders write for it is one of them and takes no more bytes.
-/

namespace Libtvnet

open Libtvnet.Foundation

variable {Unicode : Type}

/-- A UTF-8 string is taken as its bytes: what was decoded encodes to them again. -/
def CPython.StringsAsBytes (python : CPython Unicode) : Prop :=
  ∀ bytes u, python.decodeUTF8 bytes = some u → python.asUTF8String u = some bytes

namespace PyObject

mutual

def NoFloat : PyObject Unicode → Prop
  | float _ => False
  | dict items => NoFloatPairs items
  | list items | tuple items | set items => NoFloatItems items
  | _ => True

def NoFloatItems : List (PyObject Unicode) → Prop
  | [] => True
  | item :: items => NoFloat item ∧ NoFloatItems items

def NoFloatPairs : List (PyObject Unicode × PyObject Unicode) → Prop
  | [] => True
  | (key, value) :: items => NoFloat key ∧ NoFloat value ∧ NoFloatPairs items

end

instance (o : PyObject Unicode) : Decidable (o = .endOfData) :=
  match o with
  | .endOfData => isTrue rfl
  | .none | .int _ | .float _ | .string _ | .byteArray _ | .unicode _ | .dict _ | .list _
  | .tuple _ | .set _ | .other => isFalse nofun

end PyObject

instance : DecidablePred (DecodeEvent.UsesEndOfData : DecodeEvent Unicode → Prop)
  | .returned _ => isFalse id
  | .setItem object => inferInstanceAs (Decidable (object = .endOfData))
  | .dictSetItem key value => inferInstanceAs (Decidable (key = .endOfData ∨ value = .endOfData))

instance (events : List (DecodeEvent Unicode)) : Decidable (UsesEndOfData events) :=
  inferInstanceAs (Decidable (∃ event ∈ events, event.UsesEndOfData))

/-! ## The tree decoder -/

section Decoder

variable (python : CPython Unicode) (indeterminate : TvnpToken)

/-- The recursion, with the end of the input as a failure, inside of a container too. -/
def treeDecode (b : TvuBuffer) : Option (PyObject Unicode × TvuBuffer) := do
  let run ← pytvnDecodeRecurse python indeterminate (b.size + 2) b
  let object ← run.result
  if object = .endOfData ∨ UsesEndOfData run.events then none
  else some (object, run.buffer)

variable {python indeterminate} {b b' : TvuBuffer} {o : PyObject Unicode}

theorem Lies.offset_lt (h : Lies python indeterminate b o b') : b.offset < b.size := by
  have hstart {token : TvnpToken} {b₁ : TvuBuffer}
      (htoken : tvnpDecodeToken indeterminate b = some (token, b₁))
      (hend : token.type ≠ .tokenEnd) : b.offset < b.size :=
    (tvnpDecodeToken_some htoken hend).1
  cases h with
  | leaf htoken hleaf =>
      refine hstart htoken fun hend => ?_
      rw [TvnpToken.leaf, hend] at hleaf
      contradiction
  | list htoken htype => exact hstart htoken (by simp [htype])
  | dict htoken htype => exact hstart htoken (by simp [htype])

private theorem fueled_of_offset_lt (h : b.offset < b.size) : Fueled (b.size + 2) b :=
  ⟨by omega, by omega⟩

theorem Lies.unique {b'' : TvuBuffer} {o' : PyObject Unicode}
    (h : Lies python indeterminate b o b') (h' : Lies python indeterminate b o' b'') :
    o = o' ∧ b' = b'' := by
  obtain ⟨run, hrun, -⟩ := pytvnDecodeRecurse_outcome python indeterminate _
    (fueled_of_offset_lt h.offset_lt)
  obtain ⟨hresult, hbuffer⟩ := pytvnDecodeRecurse_of_lies h hrun
  obtain ⟨hresult', hbuffer'⟩ := pytvnDecodeRecurse_of_lies h' hrun
  rw [hresult] at hresult'
  exact ⟨Option.some.inj hresult', hbuffer.symm.trans hbuffer'⟩

private theorem leaf_not_compound {token : TvnpToken} {data : List UInt8}
    (hleaf : token.leaf python data = some o) :
    token.type ≠ .tokenList ∧ token.type ≠ .tokenDictionary := by
  constructor
  all_goals
    intro htype
    simp [TvnpToken.leaf, htype] at hleaf

mutual

theorem Lies.not_cut : ∀ {b b' : TvuBuffer} {o : PyObject Unicode},
    Lies python indeterminate b o b' → ¬ Cut python indeterminate b
  | _, _, _, .leaf htoken hleaf, .list htoken' htype _ => by
      obtain ⟨rfl, rfl⟩ := Prod.mk.inj (Option.some.inj (htoken.symm.trans htoken'))
      exact (leaf_not_compound hleaf).1 htype
  | _, _, _, .leaf htoken hleaf, .dict htoken' htype _ => by
      obtain ⟨rfl, rfl⟩ := Prod.mk.inj (Option.some.inj (htoken.symm.trans htoken'))
      exact (leaf_not_compound hleaf).2 htype
  | _, _, _, .list htoken htype hitems, .list htoken' _ hcut => by
      obtain ⟨rfl, rfl⟩ := Prod.mk.inj (Option.some.inj (htoken.symm.trans htoken'))
      exact hitems.not_cut hcut
  | _, _, _, .list htoken htype _, .dict htoken' htype' _ => by
      obtain ⟨rfl, rfl⟩ := Prod.mk.inj (Option.some.inj (htoken.symm.trans htoken'))
      rw [htype] at htype'
      contradiction
  | _, _, _, .dict htoken htype _, .list htoken' htype' _ => by
      obtain ⟨rfl, rfl⟩ := Prod.mk.inj (Option.some.inj (htoken.symm.trans htoken'))
      rw [htype] at htype'
      contradiction
  | _, _, _, .dict htoken htype hpairs, .dict htoken' _ hcut => by
      obtain ⟨rfl, rfl⟩ := Prod.mk.inj (Option.some.inj (htoken.symm.trans htoken'))
      exact hpairs.not_cut hcut

theorem LieItems.not_cut : ∀ {n : Nat} {b b' : TvuBuffer} {items : List (PyObject Unicode)},
    LieItems python indeterminate n b items b' → ¬ CutItems python indeterminate n b
  | _, _, _, _, .cons hfirst _, .here hend => absurd hfirst.offset_lt (Nat.not_lt.mpr hend)
  | _, _, _, _, .cons hfirst _, .inside hcut => hfirst.not_cut hcut
  | _, _, _, _, .cons hfirst hrest, .later hfirst' hcut => by
      obtain ⟨-, rfl⟩ := hfirst.unique hfirst'
      exact hrest.not_cut hcut

theorem LiePairs.not_cut : ∀ {n : Nat} {b b' : TvuBuffer}
    {items items' : List (PyObject Unicode × PyObject Unicode)},
    LiePairs python indeterminate n items b items' b' →
    ¬ CutPairs python indeterminate n items b
  | _, _, _, _, _, .cons hkey _ _ _, .key hend => absurd hkey.offset_lt (Nat.not_lt.mpr hend)
  | _, _, _, _, _, .cons hkey _ _ _, .insideKey hcut => hkey.not_cut hcut
  | _, _, _, _, _, .cons hkey hvalue _ _, .value hkey' hend => by
      obtain ⟨-, rfl⟩ := hkey.unique hkey'
      exact absurd hvalue.offset_lt (Nat.not_lt.mpr hend)
  | _, _, _, _, _, .cons hkey hvalue _ _, .insideValue hkey' hcut => by
      obtain ⟨-, rfl⟩ := hkey.unique hkey'
      exact hvalue.not_cut hcut
  | _, _, _, _, _, .cons hkey hvalue hset hrest, .later hkey' hvalue' hset' hcut => by
      obtain ⟨rfl, rfl⟩ := hkey.unique hkey'
      obtain ⟨rfl, rfl⟩ := hvalue.unique hvalue'
      obtain rfl := Option.some.inj (hset.symm.trans hset')
      exact hrest.not_cut hcut

end

private theorem treeDecode_iff :
    treeDecode python indeterminate b = some (o, b') ↔ Lies python indeterminate b o b' := by
  constructor
  · intro h
    obtain ⟨run, hrun, h⟩ := Option.bind_eq_some_iff.mp h
    obtain ⟨object, hobject, h⟩ := Option.bind_eq_some_iff.mp h
    split at h
    · contradiction
    next hguard =>
      cases h
      rw [not_or] at hguard
      have hlt : b.offset < b.size := by
        by_contra hend
        obtain rfl := pytvnDecodeRecurse_exhausted (Nat.not_lt.mp hend) hrun
        exact hguard.1 (Option.some.inj hobject).symm
      obtain ⟨run', hrun', houtcome⟩ := pytvnDecodeRecurse_outcome python indeterminate _
        (fueled_of_offset_lt hlt)
      obtain rfl := Option.some.inj (hrun.symm.trans hrun')
      have hwhole : ¬ Cut python indeterminate b := fun hcut =>
        hguard.2 (hcut.usesEndOfData hrun)
      obtain ⟨-, hlies⟩ := houtcome.lies.resolve_left hwhole
      exact ((hlies _ hobject).resolve_left fun hend => hguard.1 hend.1).2
  · intro h
    obtain ⟨run, hrun, houtcome⟩ := pytvnDecodeRecurse_outcome python indeterminate _
      (fueled_of_offset_lt h.offset_lt)
    obtain ⟨hresult, rfl⟩ := pytvnDecodeRecurse_of_lies h hrun
    obtain ⟨hclean, -⟩ := houtcome.lies.resolve_left h.not_cut
    have hguard : ¬ (o = .endOfData ∨ UsesEndOfData run.events) := by
      rintro (hend | ⟨event, hevent, huse⟩)
      · exact h.ne_endOfData hend
      · exact (hclean event hevent).1 huse
    simp only [treeDecode, hrun, hresult, Option.bind_eq_bind, Option.bind_some, if_neg hguard]

end Decoder

/-! ## Trees in their shortest form -/

section Shortest

variable {python : CPython Unicode} {undefined : Binary64 → Int} {indeterminate : TvnpToken}

theorem LieItems.length_eq {n : Nat} {b b' : TvuBuffer} {items : List (PyObject Unicode)}
    (h : LieItems python indeterminate n b items b') : items.length = n := by
  induction items generalizing n b with
  | nil =>
      cases h
      rfl
  | cons item items ih =>
      cases h with
      | cons hfirst hrest => rw [List.length_cons, ih hrest]

private theorem leaf_fitsBetween (hstrings : python.StringsAsBytes) {b b' : TvuBuffer}
    {token : TvnpToken} {o : PyObject Unicode}
    (htoken : tvnpDecodeToken indeterminate b = some (token, b'))
    (hleaf : token.leaf python b'.data = some o) (hfloat : o.NoFloat) :
    o.IsTree python ∧ o.Sized python ∧ ∃ t, o.tokens python undefined = some [t] ∧
      b.offset + t.bytes.length ≤ b'.offset := by
  have hnotFloat : token.type ≠ .tokenFloat := by
    intro htype
    simp only [TvnpToken.leaf, htype, Option.some.injEq] at hleaf
    rw [← hleaf] at hfloat
    exact hfloat
  have hend : token.type ≠ .tokenEnd := by
    intro htype
    simp [TvnpToken.leaf, htype] at hleaf
  have hdata := (tvnpDecodeToken_some htoken hend).2.1
  rw [hdata] at hleaf
  have hshortest {t : Token} (ht : token.meaning b.data = some t) :=
    tvnpDecodeToken_shortest htoken ht hnotFloat
  unfold TvnpToken.leaf at hleaf
  unfold TvnpToken.meaning at hshortest
  cases htype : token.type <;> simp only [htype, reduceCtorEq] at hleaf hshortest hnotFloat
  case tokenUtf8String =>
    obtain ⟨u, hu, rfl⟩ := Option.map_eq_some_iff.mp hleaf
    have hutf8 := hstrings _ _ hu
    obtain ⟨hvalid, hfits⟩ := hshortest rfl
    refine ⟨⟨_, hutf8, hu⟩, ?_, _, by rw [PyObject.tokens, hutf8]; rfl, hfits⟩
    intro bytes hbytes
    obtain rfl := Option.some.inj (hutf8.symm.trans hbytes)
    exact hvalid
  case tokenFloat => contradiction
  all_goals
    obtain rfl := Option.some.inj hleaf
    obtain ⟨hvalid, hfits⟩ := hshortest rfl
    exact ⟨trivial, hvalid, _, rfl, hfits⟩

mutual

theorem Lies.fitsBetween (hdicts : python.OrderedDicts) (hstrings : python.StringsAsBytes) :
    ∀ {b b' : TvuBuffer} {o : PyObject Unicode}, Lies python indeterminate b o b' → o.NoFloat →
    o.IsTree python ∧ o.Sized python ∧ ∃ ts, o.tokens python undefined = some ts ∧
      b.offset + (wire ts).length ≤ b'.offset
  | _, _, _, .leaf htoken hleaf, hfloat => by
      obtain ⟨htree, hsized, t, ht, hfits⟩ := leaf_fitsBetween hstrings htoken hleaf hfloat
      exact ⟨htree, hsized, [t], ht, by simpa using hfits⟩
  | _, _, _, .list htoken htype hitems, hfloat => by
      obtain ⟨htree, hsized, ts, hts, hfits⟩ := hitems.fitsBetween hdicts hstrings hfloat
      obtain ⟨hvalid, hheader⟩ := tvnpDecodeToken_shortest (t := .list _) htoken
        (by rw [TvnpToken.meaning, htype]) (by simp [htype])
      rw [← hitems.length_eq] at hvalid hheader
      refine ⟨htree, ⟨hvalid, hsized⟩, _, by rw [PyObject.tokens, hts]; rfl, ?_⟩
      rw [wire_cons, List.length_append]
      omega
  | _, _, _, .dict htoken htype hpairs, hfloat => by
      obtain ⟨pairs, heq, hlength, hnext⟩ := hpairs.fitsBetween hdicts hstrings
      rw [List.nil_append] at heq
      subst heq
      obtain ⟨htree, hsized, ts, hts, hfits⟩ := hnext hfloat
      obtain ⟨hvalid, hheader⟩ := tvnpDecodeToken_shortest (t := .dictionary _) htoken
        (by rw [TvnpToken.meaning, htype]) (by simp [htype])
      rw [← hlength] at hvalid hheader
      refine ⟨htree, ⟨hvalid, hsized⟩, _, by rw [PyObject.tokens, hts]; rfl, ?_⟩
      rw [wire_cons, List.length_append]
      omega

theorem LieItems.fitsBetween (hdicts : python.OrderedDicts)
    (hstrings : python.StringsAsBytes) : ∀ {n : Nat} {b b' : TvuBuffer}
    {items : List (PyObject Unicode)}, LieItems python indeterminate n b items b' →
    PyObject.NoFloatItems items →
    PyObject.TreeItems python items ∧ PyObject.SizedItems python items ∧
      ∃ ts, PyObject.tokensOfItems python undefined items = some ts ∧
        b.offset + (wire ts).length ≤ b'.offset
  | _, _, _, _, .nil, _ => ⟨trivial, trivial, [], rfl, le_refl _⟩
  | _, _, _, _, .cons hfirst hrest, hfloat => by
      obtain ⟨htree, hsized, ts, hts, hfits⟩ := hfirst.fitsBetween hdicts hstrings hfloat.1
      obtain ⟨htrees, hsizes, us, hus, hall⟩ := hrest.fitsBetween hdicts hstrings hfloat.2
      refine ⟨⟨htree, htrees⟩, ⟨hsized, hsizes⟩, ts ++ us,
        by rw [PyObject.tokensOfItems, hts, hus]; rfl, ?_⟩
      rw [wire_append, List.length_append]
      omega

theorem LiePairs.fitsBetween (hdicts : python.OrderedDicts)
    (hstrings : python.StringsAsBytes) : ∀ {n : Nat} {b b' : TvuBuffer}
    {items items' : List (PyObject Unicode × PyObject Unicode)},
    LiePairs python indeterminate n items b items' b' →
    ∃ pairs, items' = items ++ pairs ∧ pairs.length = n ∧ (PyObject.NoFloatPairs pairs →
      PyObject.TreePairs python pairs ∧ PyObject.SizedPairs python pairs ∧
        ∃ ts, PyObject.tokensOfPairs python undefined pairs = some ts ∧
          b.offset + (wire ts).length ≤ b'.offset)
  | _, _, _, _, _, .nil =>
      ⟨[], (List.append_nil _).symm, rfl, fun _ => ⟨trivial, trivial, [], rfl, le_refl _⟩⟩
  | _, _, _, _, _, @LiePairs.cons _ _ _ _ _ _ _ _ _ _ _ key value hkey hvalue hset hrest => by
      obtain ⟨pairs, heq, hlength, hnext⟩ := hrest.fitsBetween hdicts hstrings
      rw [hdicts] at hset
      refine ⟨(key, value) :: pairs, ?_, congrArg Nat.succ hlength, fun hfloat => ?_⟩
      · rw [heq, ← Option.some.inj hset, List.append_assoc, List.singleton_append]
      obtain ⟨htree, hsized, ts, hts, hfits⟩ := hkey.fitsBetween hdicts hstrings hfloat.1
      obtain ⟨htree', hsized', us, hus, hfits'⟩ :=
        hvalue.fitsBetween hdicts hstrings hfloat.2.1
      obtain ⟨htrees, hsizes, vs, hvs, hall⟩ := hnext hfloat.2.2
      refine ⟨⟨htree, htree', htrees⟩, ⟨hsized, hsized', hsizes⟩, ts ++ us ++ vs,
        by rw [PyObject.tokensOfPairs, hts, hus, hvs]; rfl, ?_⟩
      rw [wire_append, wire_append, List.length_append, List.length_append]
      omega

end

/-! ## The room that the encoders need -/

def NeedsAtMost (encoder : TvuBuffer → Option TvuBuffer) (n : Nat) : Prop :=
  ∀ c : TvuBuffer, c.offset + n ≤ c.size →
    ∃ c', encoder c = some c' ∧ c'.offset ≤ c.offset + n

private theorem needsAtMost_of_eq_append {encoder : TvuBuffer → Option TvuBuffer}
    {bytes : List UInt8}
    {n : Nat} (hencoder : ∀ c, encoder c = c.append bytes) (hn : bytes.length ≤ n) :
    NeedsAtMost encoder n := by
  intro c hroom
  obtain ⟨c', hc, hoffset, -⟩ := TvuBuffer.append_eq_some
    (show c.offset + bytes.length ≤ c.size by omega)
  exact ⟨c', by rw [hencoder, hc], by omega⟩

structure EncodesShortest (token : TvnpToken) (data : List UInt8) (n : Nat) : Prop where
  integer : token.type = .tokenInteger → NeedsAtMost (tvnpEncodeInteger · token.i) n
  utf8 : token.type = .tokenUtf8String → NeedsAtMost
    (tvnpEncodeUtf8StringAndSize · (token.span data) (UInt32.ofNat token.u)) n
  binary : token.type = .tokenBinString → NeedsAtMost
    (tvnpEncodeBinaryString · (token.span data) (UInt32.ofNat token.u)) n
  list : token.type = .tokenList → NeedsAtMost (tvnpEncodeList · (UInt32.ofNat token.u)) n
  dictionary : token.type = .tokenDictionary →
    NeedsAtMost (tvnpEncodeDictionary · (UInt32.ofNat token.u)) n

private theorem encodesShortest_of_decode {b b' : TvuBuffer} {token : TvnpToken}
    (h : tvnpDecodeToken indeterminate b = some (token, b')) :
    EncodesShortest token b.data (b'.offset - b.offset) := by
  have hshortest {t : Token} (ht : token.meaning b.data = some t)
      (hfloat : token.type ≠ .tokenFloat) :
      t.Valid ∧ t.bytes.length ≤ b'.offset - b.offset := by
    obtain ⟨hvalid, hfits⟩ := tvnpDecodeToken_shortest h ht hfloat
    exact ⟨hvalid, by omega⟩
  have hstring := length_span_of_string h
  unfold TvnpToken.meaning at hshortest
  constructor
  all_goals
    intro htype
    simp only [htype, reduceCtorEq, ne_eq, not_false_eq_true, forall_const, Option.some.injEq,
      forall_eq'] at hshortest
    obtain ⟨hvalid, hfits⟩ := hshortest
  · exact needsAtMost_of_eq_append (tvnpEncodeInteger_eq · token.i) hfits
  · rw [← hstring (.inl htype)]
    exact needsAtMost_of_eq_append (tvnpEncodeUtf8StringAndSize_eq · hvalid) hfits
  · rw [← hstring (.inr htype)]
    exact needsAtMost_of_eq_append (tvnpEncodeBinaryString_eq · hvalid) hfits
  · exact needsAtMost_of_eq_append (tvnpEncodeList_eq · hvalid) hfits
  · exact needsAtMost_of_eq_append (tvnpEncodeDictionary_eq · hvalid) hfits

/--
A tree without floats is encoded in no more bytes than the offset advanced by when
it was decoded, and the same tree is decoded from these, whatever follows them;
its bytes are the same from then on.
-/
theorem treeDecode_shortest (undefined : Binary64 → Int) (indeterminate : TvnpToken)
    {b b' : TvuBuffer} {t : PyObject Unicode} (hdicts : python.OrderedDicts)
    (hstrings : python.StringsAsBytes) (hfloat : t.NoFloat)
    (h : treeDecode python indeterminate b = some (t, b')) :
    (∃ encoding : List UInt8, b.offset + encoding.length ≤ b'.offset ∧
      (∀ state : EncodeState, state.buffer.offset + encoding.length ≤ state.buffer.size →
        ∃ c, pytvnEncodeRecurse python undefined state t = some { state with buffer := c } ∧
          c.offset = state.buffer.offset + encoding.length ∧
          c.data = state.buffer.data.take state.buffer.offset ++ encoding ++
            state.buffer.data.drop (state.buffer.offset + encoding.length)) ∧
      ∀ (again : TvuBuffer) (suffix : List UInt8), again.rest = encoding ++ suffix →
        ∃ c, treeDecode python indeterminate again = some (t, c) ∧
          c.data = again.data ∧ c.offset = again.offset + encoding.length) ∧
    ∀ (c c' : TvuBuffer) (token : TvnpToken),
      tvnpDecodeToken indeterminate c = some (token, c') →
        EncodesShortest token c.data (c'.offset - c.offset) := by
  refine ⟨?_, fun _ _ _ => encodesShortest_of_decode⟩
  obtain ⟨htree, hsized, ts, hts, hfits⟩ : t.IsTree python ∧ t.Sized python ∧
      ∃ ts, t.tokens python undefined = some ts ∧
        b.offset + (wire ts).length ≤ b'.offset :=
    (treeDecode_iff.mp h).fitsBetween hdicts hstrings hfloat
  refine ⟨wire ts, hfits, fun state hroom => ?_, fun again suffix hrest => ?_⟩
  · obtain ⟨c, hc, hend, hdata⟩ := TvuBuffer.append_eq_some hroom
    refine ⟨c, ?_, hend, hdata⟩
    rw [pytvnEncodeRecurse_eq_append state hsized hts]
    simp [EncodeState.append, EncodeState.encode, hc]
  · have hlies := lies_of_wire indeterminate hdicts htree hsized hts hrest
    refine ⟨again.skip (wire ts).length, treeDecode_iff.mpr hlies, rfl, ?_⟩
    apply TvuBuffer.offset_skip_of_le
    have hlt := hlies.offset_lt
    have hlength := congrArg List.length hrest
    rw [TvuBuffer.length_rest, List.length_append] at hlength
    omega

end Shortest

def wideList : TvuBuffer := ⟨[0xdd, 1, 0x45, 0, 5], 0, by decide, TvuBuffer.start_lt⟩

theorem treeDecode_wideList :
    ∃ encoding : List UInt8, encoding.length ≤ 5 ∧
      ∀ (again : TvuBuffer) (suffix : List UInt8), again.rest = encoding ++ suffix →
        ∃ c, treeDecode CPython.ofBytes .zeroFilled again = some (.list [.int 5], c) := by
  have hlist : tvnpDecodeToken .zeroFilled wideList =
      some (⟨.tokenList, 1, 0⟩, wideList.skip 2) := rfl
  have hitem : tvnpDecodeToken .zeroFilled (wideList.skip 2) =
      some (⟨.tokenInteger, 5, 0⟩, wideList.skip 5) := by
    decide +kernel
  have hlies : Lies CPython.ofBytes .zeroFilled wideList (.list [.int 5]) (wideList.skip 5) :=
    .list hlist rfl (.cons (.leaf hitem rfl) .nil)
  have hstrings : CPython.ofBytes.StringsAsBytes := fun _ _ h => h.symm
  have hfloat : (.list [.int 5] : PyObject (List UInt8)).NoFloat := ⟨trivial, trivial⟩
  obtain ⟨⟨encoding, hlength, -, hagain⟩, -⟩ := treeDecode_shortest (fun _ => 0) .zeroFilled
    (fun _ _ _ => rfl) hstrings hfloat (treeDecode_iff.mpr hlies)
  refine ⟨encoding, ?_, fun again suffix hrest => ?_⟩
  · exact (Nat.le_add_left _ _).trans hlength
  · obtain ⟨c, hc, -⟩ := hagain again suffix hrest
    exact ⟨c, hc⟩

end Libtvnet
