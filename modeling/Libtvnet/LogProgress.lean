import Libtvnet.LogDelivery

/-!
# The progress of the log server

The server takes the packets in order, so a message that is still being written
holds up the ones behind it.  Nothing else does: where the ring gives no packet,
the servers have had every message up to such a one.
-/

namespace Libtvnet

open Libtvnet.Foundation

/-- A packet whose data is marked is found by the next look at the ring. -/
def RingBuffer.Prompt (buffer : RingBuffer) : Prop :=
  ∀ ring ring', buffer.tvuRingTail ring = (none, ring') → (buffer.queue ring).oldest = none

section System

variable {buffer : RingBuffer} {Thread : Type} [DecidableEq Thread]
  {undefined : Binary64 → Int} {indeterminate : TvnpToken} {lib : Formatters}
  {optionLogdir : List UInt8} {s s' : LogSystem buffer Thread}

def LogSystem.AllLogged (s : LogSystem buffer Thread) : Prop :=
  s.entries.length = s.calls.length

/-- The first message that no server has had is still being written. -/
def LogSystem.HeldUp (s : LogSystem buffer Thread) : Prop :=
  ∃ thread sending, s.sending thread = some sending ∧ sending.number = s.entries.length

def SlotsOwned (s : LogSystem buffer Thread) : Prop :=
  ∀ number, (buffer.queue s.ring).at? number = some none →
    ∃ thread sending, s.sending thread = some sending ∧ sending.number = number

/-! ## What a step does -/

omit [DecidableEq Thread] in
theorem LogSystem.Initial.slotsOwned (h : s.Initial) : SlotsOwned s := by
  intro number hat
  simp [h.queue, SlotQueue.at?, SlotQueue.empty] at hat

omit [DecidableEq Thread] in
theorem SlotsOwned.congr (h : SlotsOwned s) (hqueue : buffer.queue s'.ring = buffer.queue s.ring)
    (hsending : s'.sending = s.sending) : SlotsOwned s' := by
  intro number hat
  rw [hqueue] at hat
  rw [hsending]
  exact h number hat

theorem LogStep.slotsOwned (h : LogStep undefined indeterminate lib optionLogdir s s')
    (hring : RingHolds undefined s) (hs : SlotsOwned s) : SlotsOwned s' := by
  cases h with
  | refuse hsize hhead => exact hs.congr (buffer.head_refuses _ _ _ hhead) rfl
  | @reserve thread call size number packet ring hthread hcall hparse hsize hhead =>
      obtain ⟨hnumber, hqueue, -⟩ := buffer.head_reserves _ _ _ _ _ hhead
      intro number' hat
      rw [hqueue, SlotQueue.at?_reserve, ← hnumber] at hat
      split at hat
      case isTrue hnew => exact ⟨thread, _, Function.update_self .., hnew.symm⟩
      case isFalse =>
        obtain ⟨thread', sending, hsending, hsame⟩ := hs number' hat
        have hother : thread' ≠ thread := by
          rintro rfl
          rw [hthread] at hsending
          cases hsending
        exact ⟨thread', sending, (Function.update_of_ne hother ..).trans hsending, hsame⟩
  | @mark thread sending written hthread hwritten =>
      obtain ⟨hslot, -⟩ := hring.sending thread sending hthread
      intro number' hat
      rw [buffer.markdata_fills, SlotQueue.at?_fill hslot] at hat
      split at hat
      case isTrue => cases hat
      case isFalse hne =>
        obtain ⟨thread', sending', hsending', hsame⟩ := hs number' hat
        have hother : thread' ≠ thread := by
          rintro rfl
          rw [hthread] at hsending'
          cases hsending'
          exact hne hsame.symm
        exact ⟨thread', sending', (Function.update_of_ne hother ..).trans hsending', hsame⟩
  | wait htaken htail => exact hs.congr (buffer.tail_waits _ _ htail) rfl
  | log htaken htail | abort htaken htail =>
      obtain ⟨-, hqueue⟩ := buffer.tail_takes _ _ _ _ htail
      intro number' hat
      rw [hqueue, SlotQueue.at?_take] at hat
      split at hat
      case isTrue => cases hat
      case isFalse => exact hs number' hat
  | free htaken => exact hs.congr (buffer.free_keeps _ _) rfl
  | restart htaken => exact hs.congr rfl rfl

theorem RingHolds.run_slotsOwned (hring : RingHolds undefined s) (hs : SlotsOwned s)
    (hrun : Relation.ReflTransGen (LogStep undefined indeterminate lib optionLogdir) s s') :
    RingHolds undefined s' ∧ SlotsOwned s' := by
  induction hrun with
  | refl => exact ⟨hring, hs⟩
  | tail _ hstep ih => exact ⟨hstep.ringHolds ih.1, hstep.slotsOwned ih.1 ih.2⟩

/-! ## Where the server stops -/

omit [DecidableEq Thread] in
theorem RingHolds.entries_le (h : RingHolds undefined s) {thread : Thread} {sending : Sending}
    (hsending : s.sending thread = some sending) : s.entries.length ≤ sending.number := by
  obtain ⟨hslot, -⟩ := h.sending thread sending hsending
  rw [← h.taken]
  exact (SlotQueue.lt_next_of_at? hslot).1

omit [DecidableEq Thread] in
theorem RingHolds.oldest_iff (h : RingHolds undefined s) (hs : SlotsOwned s) :
    (buffer.queue s.ring).oldest = none ↔ s.AllLogged ∨ s.HeldUp := by
  rw [SlotQueue.oldest_eq_none_iff, h.taken, h.next]
  refine or_congr Iff.rfl ⟨hs _, ?_⟩
  rintro ⟨thread, sending, hsending, hnumber⟩
  exact hnumber ▸ (h.sending thread sending hsending).1

omit [DecidableEq Thread] in
theorem RingHolds.tail_iff (h : RingHolds undefined s) (hs : SlotsOwned s)
    (hprompt : buffer.Prompt) :
    (buffer.tvuRingTail s.ring).1 = none ↔ s.AllLogged ∨ s.HeldUp := by
  rw [← h.oldest_iff hs]
  rcases htail : buffer.tvuRingTail s.ring with ⟨_ | ⟨number, packet⟩, ring⟩
  · simp [hprompt _ _ htail]
  · obtain ⟨holdest, -⟩ := buffer.tail_takes _ _ _ _ htail
    simp [holdest]

/-! ## Iterations -/

/-- With steps of the server alone, and no failing `open`, `s'` comes behind `s`. -/
structure ServerRun (undefined : Binary64 → Int) (indeterminate : TvnpToken) (lib : Formatters)
    (optionLogdir : List UInt8) (s s' : LogSystem buffer Thread) : Prop where
  steps : Relation.ReflTransGen (LogStep undefined indeterminate lib optionLogdir) s s'
  calls : s'.calls = s.calls
  sending : s'.sending = s.sending
  aborts : s'.aborts = s.aborts

theorem ServerRun.trans {s'' : LogSystem buffer Thread}
    (h : ServerRun undefined indeterminate lib optionLogdir s s')
    (h' : ServerRun undefined indeterminate lib optionLogdir s' s'') :
    ServerRun undefined indeterminate lib optionLogdir s s'' :=
  ⟨h.steps.trans h'.steps, h'.calls.trans h.calls, h'.sending.trans h.sending,
    h'.aborts.trans h.aborts⟩

theorem LogSystem.exists_freed (undefined : Binary64 → Int) (indeterminate : TvnpToken)
    (lib : Formatters) (optionLogdir : List UInt8) (s : LogSystem buffer Thread) :
    ∃ s', ServerRun undefined indeterminate lib optionLogdir s s' ∧ s'.taken = none ∧
      s'.entries = s.entries := by
  cases htaken : s.taken with
  | none => exact ⟨s, ⟨.refl, rfl, rfl, rfl⟩, htaken, rfl⟩
  | some number => exact ⟨_, ⟨.single (.free htaken), rfl, rfl, rfl⟩, rfl, rfl⟩

theorem RingHolds.exists_iteration (h : RingHolds undefined s) (indeterminate : TvnpToken)
    (lib : Formatters) (optionLogdir : List UInt8) (htaken : s.taken = none)
    (htail : (buffer.tvuRingTail s.ring).1 ≠ none) :
    ∃ s', ServerRun undefined indeterminate lib optionLogdir s s' ∧ s'.taken = none ∧
      s'.entries.length = s.entries.length + 1 := by
  obtain ⟨⟨number, packet⟩, hpacket⟩ := Option.ne_none_iff_exists'.mp htail
  obtain ⟨s₁, hlog, hentries, hcalls, hsending, -, haborts⟩ :=
    h.exists_log indeterminate lib optionLogdir htaken (Prod.ext hpacket rfl)
      (by decide : (3 : Int) ≠ -1) ⟨0, 0, 0, 0, 0, 0, 0, 0, 0, []⟩
  obtain ⟨s', hfree, hfreed, hsame⟩ :=
    s₁.exists_freed undefined indeterminate lib optionLogdir
  exact ⟨s', .trans ⟨.single hlog, hcalls, hsending, haborts⟩ hfree, hfreed,
    by rw [hsame, hentries]⟩

private theorem exists_stopped (hprompt : buffer.Prompt) (indeterminate : TvnpToken)
    (lib : Formatters) (optionLogdir : List UInt8) {left : Nat} {s : LogSystem buffer Thread}
    (hring : RingHolds undefined s) (hs : SlotsOwned s) (htaken : s.taken = none)
    (hleft : s.calls.length ≤ s.entries.length + left) :
    ∃ s', ServerRun undefined indeterminate lib optionLogdir s s' ∧
      (s'.AllLogged ∨ s'.HeldUp) := by
  induction left generalizing s with
  | zero =>
      have hle : s.entries.length ≤ s.calls.length := by
        rw [← hring.taken, ← hring.next]
        exact Nat.le_add_right _ _
      exact ⟨s, ⟨.refl, rfl, rfl, rfl⟩, .inl (Nat.le_antisymm hle hleft)⟩
  | succ left ih =>
      by_cases htail : (buffer.tvuRingTail s.ring).1 = none
      · exact ⟨s, ⟨.refl, rfl, rfl, rfl⟩, (hring.tail_iff hs hprompt).mp htail⟩
      · obtain ⟨s₁, hrun, hfreed, hentries⟩ :=
          hring.exists_iteration indeterminate lib optionLogdir htaken htail
        obtain ⟨hring₁, hs₁⟩ := hring.run_slotsOwned hs hrun.steps
        obtain ⟨s', hrun', hstopped⟩ := ih hring₁ hs₁ hfreed (by rw [hrun.calls]; omega)
        exact ⟨s', hrun.trans hrun', hstopped⟩

end System

/-! ## One message, marked -/

theorem slotRing_prompt : slotRing.Prompt := by
  intro ring ring' htail
  exact congrArg Prod.fst htail

end Libtvnet
