import Libtvnet.Token

/-!
# Python objects

The objects that `tvnetmodule.c` hands over and gets back, through the CPython
2 interface.  A dictionary is the list of its items in iteration order.
-/

namespace Libtvnet

open Libtvnet.Foundation

/--
`other` is an object of a type that is none of the listed ones; `endOfData` is
the pointer `(PyObject *)-1`, which is not an object at all.
-/
inductive PyObject (Unicode : Type) where
  | endOfData
  | none
  | int (x : Int64)
  | float (x : Binary64)
  | string (bytes : List UInt8)
  | byteArray (bytes : List UInt8)
  | unicode (u : Unicode)
  | dict (items : List (PyObject Unicode × PyObject Unicode))
  | list (items : List (PyObject Unicode))
  | tuple (items : List (PyObject Unicode))
  | set (items : List (PyObject Unicode))
  | other

/-- What the module uses of CPython; `none` is the failure of a call. -/
structure CPython (Unicode : Type) where
  asUTF8String : Unicode → Option (List UInt8)
  decodeUTF8 : List UInt8 → Option Unicode
  dictSetItem : List (PyObject Unicode × PyObject Unicode) → PyObject Unicode →
    PyObject Unicode → Option (List (PyObject Unicode × PyObject Unicode))
  /-- Nothing gets into a dictionary but what was there and what is set. -/
  dictSetItem_mem : ∀ {items key value items'}, dictSetItem items key value = some items' →
    ∀ item ∈ items', (item.1 = key ∨ item.1 ∈ items.map Prod.fst) ∧
      (item.2 = value ∨ item.2 ∈ items.map Prod.snd)

/-- An interpreter whose Unicode strings are kept in UTF-8 and whose dictionaries only grow. -/
def CPython.ofBytes : CPython (List UInt8) where
  asUTF8String := some
  decodeUTF8 := some
  dictSetItem items key value := some (items ++ [(key, value)])
  dictSetItem_mem := by
    intro items key value items' h item hitem
    obtain rfl := Option.some.inj h
    rcases List.mem_append.mp hitem with hold | hnew
    · exact ⟨.inr (List.mem_map_of_mem hold), .inr (List.mem_map_of_mem hold)⟩
    · obtain rfl := List.mem_singleton.mp hnew
      exact ⟨.inl rfl, .inl rfl⟩

namespace PyObject

variable {Unicode : Type} (python : CPython Unicode) (undefined : Binary64 → Int)

mutual

def tokens : PyObject Unicode → Option (List Token)
  | none => some [.null]
  | int x => some [.integer x]
  | float x => some [Token.ofDouble undefined x]
  | string bytes => some [.binary bytes]
  | byteArray bytes => some [.binary bytes]
  | unicode u => (python.asUTF8String u).map fun bytes => [.utf8 bytes]
  | dict items => (tokensOfPairs items).map (.dictionary items.length :: ·)
  | list items => (tokensOfItems items).map (.list items.length :: ·)
  | tuple items => (tokensOfItems items).map (.list items.length :: ·)
  | set items => (tokensOfItems items).map (.list items.length :: ·)
  | endOfData | other => .none

def tokensOfItems : List (PyObject Unicode) → Option (List Token)
  | [] => some []
  | item :: items => do
      let ts ← tokens item
      let us ← tokensOfItems items
      some (ts ++ us)

def tokensOfPairs : List (PyObject Unicode × PyObject Unicode) → Option (List Token)
  | [] => some []
  | (key, value) :: items => do
      let ts ← tokens key
      let us ← tokens value
      let vs ← tokensOfPairs items
      some (ts ++ us ++ vs)

end

mutual

def Sized : PyObject Unicode → Prop
  | string bytes => bytes.length < 2 ^ 32
  | byteArray bytes => bytes.length < 2 ^ 32
  | unicode u => ∀ bytes, python.asUTF8String u = some bytes → bytes.length < 2 ^ 32
  | dict items => items.length < 2 ^ 32 ∧ SizedPairs items
  | list items | tuple items | set items => items.length < 2 ^ 32 ∧ SizedItems items
  | _ => True

def SizedItems : List (PyObject Unicode) → Prop
  | [] => True
  | item :: items => Sized item ∧ SizedItems items

def SizedPairs : List (PyObject Unicode × PyObject Unicode) → Prop
  | [] => True
  | (key, value) :: items => Sized key ∧ Sized value ∧ SizedPairs items

end

mutual

def IsReal : PyObject Unicode → Prop
  | endOfData => False
  | dict items => RealPairs items
  | list items | tuple items | set items => RealItems items
  | _ => True

def RealItems : List (PyObject Unicode) → Prop
  | [] => True
  | item :: items => IsReal item ∧ RealItems items

def RealPairs : List (PyObject Unicode × PyObject Unicode) → Prop
  | [] => True
  | (key, value) :: items => IsReal key ∧ IsReal value ∧ RealPairs items

end

private theorem realPairs_iff {items : List (PyObject Unicode × PyObject Unicode)} :
    RealPairs items ↔
      (∀ key ∈ items.map Prod.fst, IsReal key) ∧ ∀ value ∈ items.map Prod.snd, IsReal value := by
  induction items with
  | nil => simp [RealPairs]
  | cons item items ih =>
      simp only [RealPairs, ih, List.map_cons, List.forall_mem_cons]
      tauto

end PyObject

theorem CPython.forall_dictSetItem {Unicode : Type} (python : CPython Unicode)
    {P : PyObject Unicode → Prop} {items items' : List (PyObject Unicode × PyObject Unicode)}
    {key value : PyObject Unicode} (hset : python.dictSetItem items key value = some items')
    (hitems : (∀ key ∈ items.map Prod.fst, P key) ∧ ∀ value ∈ items.map Prod.snd, P value)
    (hkey : P key) (hvalue : P value) :
    (∀ key ∈ items'.map Prod.fst, P key) ∧ ∀ value ∈ items'.map Prod.snd, P value := by
  have hmem := python.dictSetItem_mem hset
  constructor
  · intro key' hkey'
    obtain ⟨item, hitem, rfl⟩ := List.mem_map.mp hkey'
    rcases (hmem item hitem).1 with heq | hold
    · rw [heq]
      exact hkey
    · exact hitems.1 _ hold
  · intro value' hvalue'
    obtain ⟨item, hitem, rfl⟩ := List.mem_map.mp hvalue'
    rcases (hmem item hitem).2 with heq | hold
    · rw [heq]
      exact hvalue
    · exact hitems.2 _ hold

theorem CPython.realPairs_dictSetItem {Unicode : Type} (python : CPython Unicode)
    {items items' : List (PyObject Unicode × PyObject Unicode)} {key value : PyObject Unicode}
    (hset : python.dictSetItem items key value = some items')
    (hitems : PyObject.RealPairs items) (hkey : key.IsReal) (hvalue : value.IsReal) :
    PyObject.RealPairs items' := by
  rw [PyObject.realPairs_iff] at hitems ⊢
  exact python.forall_dictSetItem hset hitems hkey hvalue

end Libtvnet
