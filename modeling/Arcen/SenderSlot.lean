import Arcen.History

/-! The slot of the bulk lane (`transport/quic/session_lanes.rs`) between the reader, which installs and clears it, and the
writers in `send_on_slot` (`transport/quic/lane_relay.rs`). Every wait, send, current and clear is a step of its own. A sender
is known by its lane generation. -/

namespace Arcen

open List

/-- Where a writer is in the loop of `send_on_slot`. -/
inductive SlotWriter where
  | waiting
  | sending (generation : Nat)
  /-- The send found the lane closed. -/
  | refused (generation : Nat)
  /-- The slot was seen to hold the stale sender. -/
  | clearing

structure SenderSlot (W : Type) where
  current : Option Nat := none
  closed : List Nat := []
  /-- The sender that the reader installed and did not clear or replace since. -/
  installed : Option Nat := none
  writers : W → SlotWriter := fun _ => .waiting

inductive SlotCall (W : Type) where
  | install (generation : Nat)
  | readerClear
  | close (generation : Nat)
  | wait (writer : W)
  | send (writer : W)
  | current (writer : W)
  | clear (writer : W)
  /-- The timeout drops the loop. -/
  | timeout (writer : W)

namespace SenderSlot

variable {W : Type} [DecidableEq W] (slot : SenderSlot W)

def setWriter (writer : W) (state : SlotWriter) : SenderSlot W :=
  { slot with writers := Function.update slot.writers writer state }

/-- A step that a writer cannot take leaves the slot as it is. -/
def step : SlotCall W → SenderSlot W
  | .install generation => { slot with current := some generation, installed := some generation }
  | .readerClear => { slot with current := none, installed := none }
  | .close generation => { slot with closed := generation :: slot.closed }
  | .wait writer =>
    match slot.writers writer, slot.current with
    | .waiting, some generation => slot.setWriter writer (.sending generation)
    | _, _ => slot
  | .send writer =>
    match slot.writers writer with
    | .sending generation => slot.setWriter writer (if generation ∈ slot.closed then .refused generation else .waiting)
    | _ => slot
  | .current writer =>
    match slot.writers writer with
    | .refused generation => slot.setWriter writer (if slot.current = some generation then .clearing else .waiting)
    | _ => slot
  | .clear writer =>
    match slot.writers writer with
    | .clearing => { slot.setWriter writer .waiting with current := none }
    | _ => slot
  | .timeout writer => slot.setWriter writer .waiting

end SenderSlot

def senderSlot (W : Type) [DecidableEq W] : Machine (SenderSlot W) (SlotCall W) Unit where
  init := {}
  step slot call := (slot.step call, ())

/-- What the writers know: a refused sender is closed, and so is the installed one while a writer is about to clear. -/
structure SlotKept {W : Type} (slot : SenderSlot W) : Prop where
  refused : ∀ writer generation, slot.writers writer = .refused generation → generation ∈ slot.closed
  clearing : ∀ writer generation, slot.writers writer = .clearing → slot.installed = some generation →
    generation ∈ slot.closed
  held : ∀ generation, slot.installed = some generation → generation ∈ slot.closed ∨ slot.current = some generation

variable {W : Type} [DecidableEq W] {slot : SenderSlot W}

/-- A writer moves on, and what its new state stands for holds. -/
theorem SlotKept.setWriter (h : SlotKept slot) (writer : W)
    (hr : ∀ generation, state = .refused generation → generation ∈ slot.closed)
    (hc : state = .clearing → ∀ generation, slot.installed = some generation → generation ∈ slot.closed) :
    SlotKept (slot.setWriter writer state) := by
  refine ⟨fun other generation heq => ?_, fun other generation heq hi => ?_, h.held⟩
  · simp only [SenderSlot.setWriter, Function.update_apply] at heq
    split_ifs at heq
    · exact hr generation heq
    · exact h.refused other generation heq
  · simp only [SenderSlot.setWriter, Function.update_apply] at heq
    split_ifs at heq
    · exact hc heq generation hi
    · exact h.clearing other generation heq hi

theorem SlotKept.step (h : SlotKept slot) (call : SlotCall W)
    (hi : ∀ generation, call = .install generation → ∀ writer, slot.writers writer ≠ .clearing) :
    SlotKept (slot.step call) := by
  cases call with
  | install generation =>
    refine ⟨h.refused, fun writer _ heq => absurd heq (hi generation rfl writer), fun other heq => .inr heq⟩
  | readerClear => exact ⟨h.refused, nofun, nofun⟩
  | close generation =>
    refine ⟨fun writer other heq => ?_, fun writer other heq hn => ?_, fun other hn => ?_⟩
    · exact mem_cons_of_mem _ (h.refused writer other heq)
    · exact mem_cons_of_mem _ (h.clearing writer other heq hn)
    · exact (h.held other hn).imp_left (mem_cons_of_mem _)
  | timeout writer => exact h.setWriter writer nofun nofun
  | wait writer =>
    simp only [SenderSlot.step]
    split
    · exact h.setWriter writer nofun nofun
    · exact h
  | send writer =>
    simp only [SenderSlot.step]
    split
    · refine h.setWriter writer ?_ ?_
      · intro other heq
        split_ifs at heq with hm
        exact SlotWriter.refused.inj heq ▸ hm
      · intro heq
        split_ifs at heq
    · exact h
  | current writer =>
    simp only [SenderSlot.step]
    split
    · rename_i generation hw
      refine h.setWriter writer ?_ ?_
      · intro other heq
        split_ifs at heq
      · intro heq other hn
        split_ifs at heq with hs
        -- the slot holds the refused sender, which is closed
        rcases h.held other hn with hm | ho
        · exact hm
        · exact Option.some.inj (hs.symm.trans ho) ▸ h.refused writer generation hw
    · exact h
  | clear writer =>
    simp only [SenderSlot.step]
    split
    · rename_i hw
      have hk : SlotKept (slot.setWriter writer .waiting) := h.setWriter writer nofun nofun
      exact ⟨hk.refused, hk.clearing, fun other hn => .inl (h.clearing writer other hw hn)⟩
    · exact h

end Arcen
