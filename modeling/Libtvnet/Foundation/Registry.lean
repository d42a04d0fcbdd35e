import Mathlib.Data.List.Basic
import Mathlib.Logic.Function.Basic
import Mathlib.Tactic

/-!
# Boxes with names

A name is bound to one box at most, and can be taken away from it; a box keeps
the name that it was bound to.  What is sent to a name goes into the box that
is bound to it at that time, with the name of the sender's box.
-/

namespace Libtvnet.Foundation

structure Letter (Name Data : Type) where
  sender : Option Name
  data : Data
  deriving DecidableEq

def Letter.rename {Name Name' Data : Type} (f : Name → Name') (letter : Letter Name Data) :
    Letter Name' Data :=
  ⟨letter.sender.map f, letter.data⟩

structure Registry (Name Box Data : Type) where
  owner : Name → Option Box
  name : Box → Option Name
  closed : Box → Bool
  inbox : Box → List (Letter Name Data)

namespace Registry

variable {Name Box Data : Type}

def empty : Registry Name Box Data := ⟨fun _ => none, fun _ => none, fun _ => false, fun _ => []⟩

inductive Event (Name Box Data : Type) where
  | unlinked (n : Name)
  | bound (box : Box) (n : Name)
  | delivered (target : Box) (n : Name) (letter : Letter Name Data)
  | received (box : Box) (letter : Letter Name Data)
  | closed (box : Box)
  deriving DecidableEq

section Operations

variable [DecidableEq Name] [DecidableEq Box] (r : Registry Name Box Data)

def unlink (n : Name) : Registry Name Box Data :=
  { r with owner := Function.update r.owner n none }

def bind (box : Box) (n : Name) : Registry Name Box Data :=
  { r with
    owner := Function.update r.owner n (some box)
    name := Function.update r.name box (some n) }

def setInbox (box : Box) (letters : List (Letter Name Data)) : Registry Name Box Data :=
  { r with inbox := Function.update r.inbox box letters }

def close (box : Box) : Registry Name Box Data :=
  { r.setInbox box [] with closed := Function.update r.closed box true }

end Operations

section Steps

variable [DecidableEq Name] [DecidableEq Box]

inductive Step : Registry Name Box Data → Event Name Box Data → Registry Name Box Data → Prop
  | unlink {r : Registry Name Box Data} (n : Name) : Step r (.unlinked n) (r.unlink n)
  | bind {r : Registry Name Box Data} {box : Box} {n : Name} :
      r.closed box = false → r.name box = none → r.owner n = none →
      Step r (.bound box n) (r.bind box n)
  | send {r : Registry Name Box Data} {box target : Box} {n : Name} (data : Data) :
      r.closed box = false → r.owner n = some target → r.closed target = false →
      Step r (.delivered target n ⟨r.name box, data⟩)
        (r.setInbox target (r.inbox target ++ [⟨r.name box, data⟩]))
  | receive {r : Registry Name Box Data} {box : Box} {letter : Letter Name Data}
      {letters : List (Letter Name Data)} :
      r.closed box = false → r.inbox box = letter :: letters →
      Step r (.received box letter) (r.setInbox box letters)
  | close {r : Registry Name Box Data} (box : Box) : Step r (.closed box) (r.close box)

inductive Run :
    Registry Name Box Data → List (Event Name Box Data) → Registry Name Box Data → Prop
  | nil {r : Registry Name Box Data} : Run r [] r
  | cons {r r' r'' : Registry Name Box Data} {event : Event Name Box Data}
      {events : List (Event Name Box Data)} :
      Step r event r' → Run r' events r'' → Run r (event :: events) r''

variable {r r' r'' : Registry Name Box Data} {event : Event Name Box Data}
  {events events' : List (Event Name Box Data)}

theorem Step.run (h : Step r event r') : Run r [event] r' := .cons h .nil

theorem Run.step (h : Run r [event] r') : Step r event r' := by
  cases h with
  | cons hstep hrest =>
      cases hrest with
      | nil => exact hstep

theorem Run.append (h : Run r events r') (h' : Run r' events' r'') :
    Run r (events ++ events') r'' := by
  induction h with
  | nil => exact h'
  | cons hstep _ ih => exact .cons hstep (ih h')

/-! ## What is kept -/

/-- A bound name is that of its box, and a closed box is empty. -/
structure Consistent (r : Registry Name Box Data) : Prop where
  name_of_owner : ∀ n box, r.owner n = some box → r.name box = some n
  inbox_closed : ∀ box, r.closed box = true → r.inbox box = []

omit [DecidableEq Name] [DecidableEq Box] in
theorem consistent_empty : Consistent (empty : Registry Name Box Data) where
  name_of_owner _ _ h := by cases h
  inbox_closed _ _ := rfl

theorem Step.name_mono (h : Step r event r') {box : Box} {n : Name}
    (hname : r.name box = some n) : r'.name box = some n := by
  cases h with
  | @bind bound n' hopen hnone howner =>
      have hother : box ≠ bound := by
        rintro rfl
        rw [hnone] at hname
        cases hname
      simpa [Registry.bind, hother] using hname
  | _ => exact hname

theorem Step.closed_mono (h : Step r event r') {box : Box} (hclosed : r.closed box = true) :
    r'.closed box = true := by
  cases h with
  | close box' =>
      by_cases hself : box = box'
      · simp [Registry.close, hself]
      · simpa [Registry.close, setInbox, hself] using hclosed
  | _ => exact hclosed

theorem Run.name_mono (h : Run r events r') {box : Box} {n : Name}
    (hname : r.name box = some n) : r'.name box = some n := by
  induction h with
  | nil => exact hname
  | cons hstep _ ih => exact ih (hstep.name_mono hname)

theorem Run.closed_mono (h : Run r events r') {box : Box} (hclosed : r.closed box = true) :
    r'.closed box = true := by
  induction h with
  | nil => exact hclosed
  | cons hstep _ ih => exact ih (hstep.closed_mono hclosed)

theorem Step.consistent (h : Step r event r') (hr : r.Consistent) : r'.Consistent := by
  have hclosed (box : Box) (letters : List (Letter Name Data)) (hopen : r.closed box = false) :
      ∀ box', r.closed box' = true → Function.update r.inbox box letters box' = [] := by
    intro box' hclosed'
    have hother : box' ≠ box := by
      rintro rfl
      rw [hopen] at hclosed'
      cases hclosed'
    rw [Function.update_of_ne hother]
    exact hr.inbox_closed box' hclosed'
  cases h with
  | unlink n =>
      refine ⟨fun n' box howner => ?_, hr.inbox_closed⟩
      by_cases hsame : n' = n
      · simp [Registry.unlink, hsame] at howner
      · exact hr.name_of_owner n' box (by simpa [Registry.unlink, hsame] using howner)
  | @bind box n hopen hnone howner =>
      refine ⟨fun n' box' howner' => ?_, hr.inbox_closed⟩
      by_cases hsame : n' = n
      · simp only [Registry.bind, hsame, Function.update_self, Option.some.injEq] at howner' ⊢
        rw [← howner', Function.update_self]
      · have hname := hr.name_of_owner n' box' (by simpa [Registry.bind, hsame] using howner')
        exact (Step.bind hopen hnone howner).name_mono hname
  | send data hopen howner htarget => exact ⟨hr.name_of_owner, hclosed _ _ htarget⟩
  | receive hopen hinbox => exact ⟨hr.name_of_owner, hclosed _ _ hopen⟩
  | close box =>
      refine ⟨hr.name_of_owner, fun box' hclosed' => ?_⟩
      by_cases hself : box' = box
      · simp [Registry.close, Registry.setInbox, hself]
      · simp only [Registry.close, Registry.setInbox, Function.update_of_ne hself] at hclosed' ⊢
        exact hr.inbox_closed box' hclosed'

theorem Run.consistent (h : Run r events r') (hr : r.Consistent) : r'.Consistent := by
  induction h with
  | nil => exact hr
  | cons hstep _ ih => exact ih (hstep.consistent hr)

/-! ## Letters -/

omit [DecidableEq Name] in
def deliveredTo (box : Box) : List (Event Name Box Data) → List (Letter Name Data) :=
  List.filterMap fun
    | .delivered target _ letter => if target = box then some letter else none
    | _ => none

omit [DecidableEq Name] in
def receivedBy (box : Box) : List (Event Name Box Data) → List (Letter Name Data) :=
  List.filterMap fun
    | .received box' letter => if box' = box then some letter else none
    | _ => none

theorem Step.ledger (h : Step r event r') {box : Box} (hopen : r'.closed box = false) :
    r.inbox box ++ deliveredTo box [event] = receivedBy box [event] ++ r'.inbox box := by
  cases h with
  | unlink n | bind => simp [deliveredTo, receivedBy, Registry.unlink, Registry.bind]
  | @send sender target n data hsender howner htarget =>
      by_cases hself : box = target
      · obtain rfl := hself
        simp [deliveredTo, receivedBy, setInbox]
      · simp [deliveredTo, receivedBy, setInbox, hself, Ne.symm hself]
  | @receive box' letter letters hbox hinbox =>
      by_cases hself : box = box'
      · obtain rfl := hself
        simp [deliveredTo, receivedBy, setInbox, hinbox]
      · simp [deliveredTo, receivedBy, setInbox, hself, Ne.symm hself]
  | close box' =>
      have hother : box ≠ box' := by
        rintro rfl
        simp [Registry.close] at hopen
      simp [deliveredTo, receivedBy, Registry.close, setInbox, hother]

/-- A box that is open has received what was delivered to it, but for what is still in it. -/
theorem Run.ledger (h : Run r events r') {box : Box} (hopen : r'.closed box = false) :
    r.inbox box ++ deliveredTo box events = receivedBy box events ++ r'.inbox box := by
  induction h with
  | nil => simp [deliveredTo, receivedBy]
  | @cons r r' r'' event events hstep hrun ih =>
      have hstill : r'.closed box = false := by
        cases hclosed : r'.closed box with
        | false => rfl
        | true => rw [hrun.closed_mono hclosed] at hopen; cases hopen
      have hfirst := hstep.ledger hstill
      have hrest := ih hopen
      have hdelivered : deliveredTo box (event :: events) =
          deliveredTo box [event] ++ deliveredTo box events := List.filterMap_append (l := [event])
      have hreceived : receivedBy box (event :: events) =
          receivedBy box [event] ++ receivedBy box events := List.filterMap_append (l := [event])
      rw [hdelivered, hreceived, ← List.append_assoc, hfirst, List.append_assoc, hrest,
        List.append_assoc]

theorem Step.owner_of_delivered {target : Box} {n : Name} {letter : Letter Name Data}
    (h : Step r (.delivered target n letter) r') : r.owner n = some target := by
  cases h with
  | send data hopen howner htarget => exact howner

/-! ## Owners -/

def Event.Rebinds (n : Name) : Event Name Box Data → Prop
  | .unlinked n' | .bound _ n' => n' = n
  | _ => False

theorem Run.owner_eq (h : Run r events r') {n : Name}
    (hevents : ∀ event ∈ events, ¬ event.Rebinds n) : r'.owner n = r.owner n := by
  induction h with
  | nil => rfl
  | cons hstep _ ih =>
      rw [ih fun event hevent => hevents event (List.mem_cons_of_mem _ hevent)]
      have hfirst := hevents _ List.mem_cons_self
      cases hstep with
      | unlink n' => exact Function.update_of_ne (Ne.symm hfirst) _ _
      | bind => exact Function.update_of_ne (Ne.symm hfirst) _ _
      | _ => rfl

/-- Every open box with a name is bound to it, but for the boxes that are given up. -/
def Served (givenUp : Box → Prop) (r : Registry Name Box Data) : Prop :=
  ∀ box n, r.name box = some n → r.closed box = false → ¬ givenUp box → r.owner n = some box

omit [DecidableEq Name] [DecidableEq Box] in
theorem served_empty (givenUp : Box → Prop) :
    Served givenUp (empty : Registry Name Box Data) := fun _ _ h => by cases h

omit [DecidableEq Name] [DecidableEq Box] in
theorem Served.mono {givenUp givenUp' : Box → Prop} (hr : r.Served givenUp)
    (h : ∀ box, r.closed box = false → givenUp box → givenUp' box) : r.Served givenUp' :=
  fun box n hname hopen hkept => hr box n hname hopen fun hgiven => hkept (h box hopen hgiven)

/-- The event takes no name away from an open box, but for the boxes that are given up. -/
def Event.Spares (givenUp : Box → Prop) (r : Registry Name Box Data) :
    Event Name Box Data → Prop
  | .unlinked n => ∀ box, r.name box = some n → r.closed box = true ∨ givenUp box
  | _ => True

theorem Step.served {givenUp : Box → Prop} (h : Step r event r') (hr : r.Served givenUp)
    (hspares : event.Spares givenUp r) : r'.Served givenUp := by
  intro box n hname hopen hkept
  cases h with
  | unlink n' =>
      have hother : n ≠ n' := by
        rintro rfl
        cases hspares box hname with
        | inl hclosed => simp [Registry.unlink, hclosed] at hopen
        | inr hgiven => exact hkept hgiven
      simpa [Registry.unlink, hother] using hr box n hname hopen hkept
  | @bind box' n' hopen' hnone howner =>
      by_cases hself : box = box'
      · simp only [Registry.bind, hself, Function.update_self, Option.some.injEq] at hname ⊢
        rw [hname, Function.update_self]
      · simp only [Registry.bind, Function.update_of_ne hself] at hname ⊢
        have hbound := hr box n hname hopen hkept
        have hother : n ≠ n' := by
          rintro rfl
          rw [howner] at hbound
          cases hbound
        rw [Function.update_of_ne hother, hbound]
  | send => exact hr box n hname hopen hkept
  | receive => exact hr box n hname hopen hkept
  | close box' =>
      by_cases hself : box = box'
      · simp [Registry.close, hself] at hopen
      · simp only [Registry.close, Function.update_of_ne hself] at hopen
        exact hr box n hname hopen hkept

end Steps

/-! ## Other names -/

section Renames

variable {Name' : Type} (f : Name → Name')

structure Renames (r' : Registry Name' Box Data) (r : Registry Name Box Data) : Prop where
  owner : ∀ n, r'.owner (f n) = r.owner n
  name : ∀ box, r'.name box = (r.name box).map f
  closed : ∀ box, r'.closed box = r.closed box
  inbox : ∀ box, r'.inbox box = (r.inbox box).map (Letter.rename f)

theorem renames_empty :
    Renames f (empty : Registry Name' Box Data) (empty : Registry Name Box Data) :=
  ⟨fun _ => rfl, fun _ => rfl, fun _ => rfl, fun _ => rfl⟩

namespace Renames

variable {f} {r' : Registry Name' Box Data} {r : Registry Name Box Data}
  [DecidableEq Name] [DecidableEq Name'] [DecidableEq Box]

omit [DecidableEq Box] in
theorem unlink (h : Renames f r' r) (hf : Function.Injective f) (n : Name) :
    Renames f (r'.unlink (f n)) (r.unlink n) where
  owner n' := by
    by_cases hsame : n' = n
    · simp [Registry.unlink, hsame]
    · simpa [Registry.unlink, hsame, hf.ne hsame] using h.owner n'
  name := h.name
  closed := h.closed
  inbox := h.inbox

theorem bind (h : Renames f r' r) (hf : Function.Injective f) (box : Box) (n : Name) :
    Renames f (r'.bind box (f n)) (r.bind box n) where
  owner n' := by
    by_cases hsame : n' = n
    · simp [Registry.bind, hsame]
    · simpa [Registry.bind, hsame, hf.ne hsame] using h.owner n'
  name box' := by
    by_cases hself : box' = box
    · simp [Registry.bind, hself]
    · simpa [Registry.bind, hself] using h.name box'
  closed := h.closed
  inbox := h.inbox

omit [DecidableEq Name] [DecidableEq Name'] in
theorem setInbox (h : Renames f r' r) (box : Box) (letters : List (Letter Name Data)) :
    Renames f (r'.setInbox box (letters.map (Letter.rename f))) (r.setInbox box letters) where
  owner := h.owner
  name := h.name
  closed := h.closed
  inbox box' := by
    by_cases hself : box' = box
    · simp [Registry.setInbox, hself]
    · simpa [Registry.setInbox, hself] using h.inbox box'

omit [DecidableEq Name] [DecidableEq Name'] in
theorem close (h : Renames f r' r) (box : Box) : Renames f (r'.close box) (r.close box) where
  owner := h.owner
  name := h.name
  closed box' := by
    by_cases hself : box' = box
    · simp [Registry.close, hself]
    · simpa [Registry.close, Registry.setInbox, hself] using h.closed box'
  inbox := (h.setInbox box []).inbox

end Renames

end Renames

end Registry

end Libtvnet.Foundation
