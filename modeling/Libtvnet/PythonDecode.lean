import Libtvnet.DecodeBounds
import Libtvnet.PythonObject

/-!
# `tvnetmodule.c`: decoding

The recursion answers the pointer that the source returns: an object, the
end-of-data pointer `(PyObject *)-1`, or NULL.  What is done with the pointers
inside a list or a dictionary is recorded as events.  The recursion has no
outcome (`none`) where its fuel does not last or a load is outside the buffer;
fuel for every position in the buffer, and for the one behind it, lasts.
-/

namespace Libtvnet

open Libtvnet.Foundation

inductive DecodeEvent (Unicode : Type) where
  | returned (object : Option (PyObject Unicode))
  | setItem (object : PyObject Unicode)
  | dictSetItem (key value : PyObject Unicode)

/-- A call that has returned; a `result` of `none` is NULL with an exception set. -/
structure DecodeRun (Unicode α : Type) where
  result : Option α
  buffer : TvuBuffer
  events : List (DecodeEvent Unicode)

namespace DecodeRun

variable {Unicode α β : Type}

def after (events : List (DecodeEvent Unicode)) (run : DecodeRun Unicode α) :
    DecodeRun Unicode α :=
  { run with events := events ++ run.events }

def map (f : α → β) (run : DecodeRun Unicode α) : DecodeRun Unicode β :=
  { run with result := run.result.map f }

end DecodeRun

section Decode

variable {Unicode : Type} (python : CPython Unicode) (indeterminate : TvnpToken)

def pytvnDecodeItems
    (recurse : TvuBuffer → Option (DecodeRun Unicode (PyObject Unicode))) :
    Nat → TvuBuffer → Option (DecodeRun Unicode (List (PyObject Unicode)))
  | 0, buffer => some ⟨some [], buffer, []⟩
  | n + 1, buffer => do
      let run ← recurse buffer
      match run.result with
      | none => some ⟨none, run.buffer, run.events ++ [.returned none]⟩
      | some object =>
          let rest ← pytvnDecodeItems recurse n run.buffer
          some ((rest.map (object :: ·)).after
            (run.events ++ [.returned (some object), .setItem object]))

def pytvnDecodePairs
    (recurse : TvuBuffer → Option (DecodeRun Unicode (PyObject Unicode))) :
    Nat → List (PyObject Unicode × PyObject Unicode) → TvuBuffer →
      Option (DecodeRun Unicode (List (PyObject Unicode × PyObject Unicode)))
  | 0, items, buffer => some ⟨some items, buffer, []⟩
  | n + 1, items, buffer => do
      let keyRun ← recurse buffer
      match keyRun.result with
      | none => some ⟨none, keyRun.buffer, keyRun.events ++ [.returned none]⟩
      | some key =>
          let valueRun ← recurse keyRun.buffer
          let events := keyRun.events ++ .returned (some key) :: valueRun.events
          match valueRun.result with
          | none => some ⟨none, valueRun.buffer, events ++ [.returned none]⟩
          | some value =>
              let events := events ++ [.returned (some value), .dictSetItem key value]
              match python.dictSetItem items key value with
              | none => some ⟨none, valueRun.buffer, events⟩
              | some items =>
                  let rest ← pytvnDecodePairs recurse n items valueRun.buffer
                  some (rest.after events)

def TvnpToken.bytes (token : TvnpToken) (buffer : TvuBuffer) : Option (List UInt8) :=
  buffer.load token.data token.u

def pytvnDecodeRecurse : Nat → TvuBuffer → Option (DecodeRun Unicode (PyObject Unicode))
  | 0, _ => none
  | fuel + 1, buffer => do
      let (token, buffer) ← tvnpDecodeToken indeterminate buffer
      match token.type with
      | .tokenEnd => some ⟨some .endOfData, buffer, []⟩
      | .tokenError => some ⟨none, buffer, []⟩
      | .tokenNull => some ⟨some .none, buffer, []⟩
      | .tokenInteger => some ⟨some (.int token.i), buffer, []⟩
      | .tokenFloat => some ⟨some (.float token.f), buffer, []⟩
      | .tokenUtf8String =>
          let bytes ← token.bytes buffer
          some ⟨(python.decodeUTF8 bytes).map .unicode, buffer, []⟩
      | .tokenBinString =>
          let bytes ← token.bytes buffer
          some ⟨some (.string bytes), buffer, []⟩
      | .tokenList =>
          let run ← pytvnDecodeItems (pytvnDecodeRecurse fuel) token.u buffer
          some (run.map .list)
      | .tokenDictionary =>
          let run ← pytvnDecodePairs python (pytvnDecodeRecurse fuel) token.u [] buffer
          some (run.map .dict)

/-- The loop of `pytvn_decode_tuple`, with the objects appended to its list from here on. -/
def pytvnDecodeLoop (recurse : TvuBuffer → Option (DecodeRun Unicode (PyObject Unicode))) :
    Nat → TvuBuffer → Option (DecodeRun Unicode (List (PyObject Unicode)))
  | 0, _ => none
  | fuel + 1, buffer => do
      let run ← recurse buffer
      match run.result with
      | none => some ⟨none, run.buffer, run.events⟩
      | some .endOfData => some ⟨some [], run.buffer, run.events⟩
      | some object =>
          let rest ← pytvnDecodeLoop recurse fuel run.buffer
          some ((rest.map (object :: ·)).after run.events)

def pytvnDecodeTuple (buffer : TvuBuffer) :
    Option (DecodeRun Unicode (List (PyObject Unicode))) :=
  pytvnDecodeLoop (pytvnDecodeRecurse python indeterminate (buffer.size + 2))
    (buffer.size + 2) buffer

/-- A single object is returned as it is, any other number of them in a tuple. -/
def pytvnDecode (buffer : TvuBuffer) : Option (DecodeRun Unicode (PyObject Unicode)) := do
  let run ← pytvnDecodeTuple python indeterminate buffer
  some (run.map fun
    | [object] => object
    | objects => .tuple objects)

end Decode

/-! ## One round of a loop -/

section Rounds

variable {Unicode : Type} (python : CPython Unicode)
  (recurse : TvuBuffer → Option (DecodeRun Unicode (PyObject Unicode)))

inductive ItemsRound (n : Nat) (b : TvuBuffer) :
    DecodeRun Unicode (List (PyObject Unicode)) → Prop
  | fails (run : DecodeRun Unicode (PyObject Unicode)) :
      recurse b = some run → run.result = none →
      ItemsRound n b ⟨none, run.buffer, run.events ++ [.returned none]⟩
  | sets (run : DecodeRun Unicode (PyObject Unicode)) (object : PyObject Unicode)
      (rest : DecodeRun Unicode (List (PyObject Unicode))) :
      recurse b = some run → run.result = some object →
      pytvnDecodeItems recurse n run.buffer = some rest →
      ItemsRound n b ((rest.map (object :: ·)).after
        (run.events ++ [.returned (some object), .setItem object]))

inductive PairsRound (n : Nat) (items : List (PyObject Unicode × PyObject Unicode))
    (b : TvuBuffer) : DecodeRun Unicode (List (PyObject Unicode × PyObject Unicode)) → Prop
  | keyFails (keyRun : DecodeRun Unicode (PyObject Unicode)) :
      recurse b = some keyRun → keyRun.result = none →
      PairsRound n items b ⟨none, keyRun.buffer, keyRun.events ++ [.returned none]⟩
  | valueFails (keyRun valueRun : DecodeRun Unicode (PyObject Unicode))
      (key : PyObject Unicode) :
      recurse b = some keyRun → keyRun.result = some key →
      recurse keyRun.buffer = some valueRun → valueRun.result = none →
      PairsRound n items b ⟨none, valueRun.buffer,
        keyRun.events ++ .returned (some key) :: valueRun.events ++ [.returned none]⟩
  | setFails (keyRun valueRun : DecodeRun Unicode (PyObject Unicode))
      (key value : PyObject Unicode) :
      recurse b = some keyRun → keyRun.result = some key →
      recurse keyRun.buffer = some valueRun → valueRun.result = some value →
      python.dictSetItem items key value = none →
      PairsRound n items b ⟨none, valueRun.buffer,
        keyRun.events ++ .returned (some key) :: valueRun.events ++
          [.returned (some value), .dictSetItem key value]⟩
  | sets (keyRun valueRun : DecodeRun Unicode (PyObject Unicode))
      (key value : PyObject Unicode) (items' : List (PyObject Unicode × PyObject Unicode))
      (rest : DecodeRun Unicode (List (PyObject Unicode × PyObject Unicode))) :
      recurse b = some keyRun → keyRun.result = some key →
      recurse keyRun.buffer = some valueRun → valueRun.result = some value →
      python.dictSetItem items key value = some items' →
      pytvnDecodePairs python recurse n items' valueRun.buffer = some rest →
      PairsRound n items b (rest.after
        (keyRun.events ++ .returned (some key) :: valueRun.events ++
          [.returned (some value), .dictSetItem key value]))

variable {python recurse}

theorem pytvnDecodeItems_succ_iff {n : Nat} {b : TvuBuffer}
    {run : DecodeRun Unicode (List (PyObject Unicode))} :
    pytvnDecodeItems recurse (n + 1) b = some run ↔ ItemsRound recurse n b run := by
  rw [pytvnDecodeItems]
  constructor
  · intro h
    obtain ⟨first, hfirst, h⟩ := Option.bind_eq_some_iff.mp h
    cases hobject : first.result with
    | none =>
        simp only [hobject] at h
        obtain rfl := Option.some.inj h
        exact .fails first hfirst hobject
    | some object =>
        simp only [hobject] at h
        obtain ⟨rest, hrest, h⟩ := Option.bind_eq_some_iff.mp h
        obtain rfl := Option.some.inj h
        exact .sets first object rest hfirst hobject hrest
  · intro h
    cases h with
    | fails first hfirst hobject =>
        simp only [hfirst, Option.bind_eq_bind, Option.bind_some, hobject]
    | sets first object rest hfirst hobject hrest =>
        simp only [hfirst, Option.bind_eq_bind, Option.bind_some, hobject, hrest]

theorem pytvnDecodePairs_succ_iff {n : Nat} {items : List (PyObject Unicode × PyObject Unicode)}
    {b : TvuBuffer} {run : DecodeRun Unicode (List (PyObject Unicode × PyObject Unicode))} :
    pytvnDecodePairs python recurse (n + 1) items b = some run ↔
      PairsRound python recurse n items b run := by
  rw [pytvnDecodePairs]
  constructor
  · intro h
    obtain ⟨keyRun, hkeyRun, h⟩ := Option.bind_eq_some_iff.mp h
    cases hkey : keyRun.result with
    | none =>
        simp only [hkey] at h
        obtain rfl := Option.some.inj h
        exact .keyFails keyRun hkeyRun hkey
    | some key =>
        simp only [hkey] at h
        obtain ⟨valueRun, hvalueRun, h⟩ := Option.bind_eq_some_iff.mp h
        cases hvalue : valueRun.result with
        | none =>
            simp only [hvalue] at h
            obtain rfl := Option.some.inj h
            exact .valueFails keyRun valueRun key hkeyRun hkey hvalueRun hvalue
        | some value =>
            simp only [hvalue] at h
            cases hset : python.dictSetItem items key value with
            | none =>
                simp only [hset] at h
                obtain rfl := Option.some.inj h
                exact .setFails keyRun valueRun key value hkeyRun hkey hvalueRun hvalue hset
            | some items' =>
                simp only [hset] at h
                obtain ⟨rest, hrest, h⟩ := Option.bind_eq_some_iff.mp h
                obtain rfl := Option.some.inj h
                exact .sets keyRun valueRun key value items' rest hkeyRun hkey hvalueRun hvalue
                  hset hrest
  · intro h
    cases h with
    | keyFails keyRun hkeyRun hkey =>
        simp only [hkeyRun, Option.bind_eq_bind, Option.bind_some, hkey]
    | valueFails keyRun valueRun key hkeyRun hkey hvalueRun hvalue =>
        simp only [hkeyRun, Option.bind_eq_bind, Option.bind_some, hkey, hvalueRun, hvalue]
    | setFails keyRun valueRun key value hkeyRun hkey hvalueRun hvalue hset =>
        simp only [hkeyRun, Option.bind_eq_bind, Option.bind_some, hkey, hvalueRun, hvalue, hset]
    | sets keyRun valueRun key value items' rest hkeyRun hkey hvalueRun hvalue hset hrest =>
        simp only [hkeyRun, Option.bind_eq_bind, Option.bind_some, hkey, hvalueRun, hvalue, hset,
          hrest]

end Rounds

end Libtvnet
