import Arcen.History

/-! The cursor record that a relay holds back for the input lane (`transport/quic/lane_relay.rs`). What `try_send` answers
comes with the call; a record that does not fit the frame bound of the lane is refused for good. -/

namespace Arcen

open List

inductive TrySendAnswer where
  | queued
  | full
  | closed

structure RelayCursor (R : Type) where
  pendingCursor : Option R := none
  /-- Whether the input slot holds a sender. -/
  inputSlot : Bool := false

inductive CursorCall (R : Type) where
  | routeCursor (record : R) (answer : TrySendAnswer)
  | retry (answer : TrySendAnswer)
  | install
  | clear

namespace RelayCursor

variable {R : Type} (fits : R → Bool) (relay : RelayCursor R)

/-- The relay, and the record that a sender accepted. The pending record is taken before the slot is looked at. -/
def flushCursor (answer : TrySendAnswer) : RelayCursor R × Option R :=
  match relay.pendingCursor, relay.inputSlot with
  | some record, true =>
    match fits record, answer with
    | true, .queued => ({ relay with pendingCursor := none }, some record)
    | true, _ => (relay, none)
    | false, _ => ({ relay with pendingCursor := none }, none)
  | _, _ => ({ relay with pendingCursor := none }, none)

/-- A retry waits for a pending record. -/
def step : CursorCall R → RelayCursor R × Option R
  | .routeCursor record answer => flushCursor fits { relay with pendingCursor := some record } answer
  | .retry answer => if relay.pendingCursor.isSome then relay.flushCursor fits answer else (relay, none)
  | .install => ({ relay with inputSlot := true }, none)
  | .clear => ({ relay with inputSlot := false }, none)

def machine : Machine (RelayCursor R) (CursorCall R) (Option R) := ⟨{}, step fits⟩

def routed : CursorCall R → Option R
  | .routeCursor record _ => some record
  | _ => none

def Flushes : CursorCall R → Prop
  | .routeCursor _ _ => True
  | .retry _ => relay.pendingCursor.isSome
  | _ => False

/-- Every flush finds a sender in the slot. -/
def Occupied : RelayCursor R → List (CursorCall R) → Prop
  | _, [] => True
  | relay, call :: calls => (relay.Flushes call → relay.inputSlot) ∧ Occupied (relay.step fits call).1 calls

/-- A record is accepted by a sender, or pending in the end. -/
def Kept (calls : List (CursorCall R)) (record : R) : Prop :=
  some record ∈ ((machine fits).logFrom relay calls).map Prod.snd ∨
    ((machine fits).execFrom relay calls).pendingCursor = some record

variable {fits relay} (record : R)

theorem kept_cons (call : CursorCall R) (calls : List (CursorCall R)) : Kept fits relay (call :: calls) record ↔
    (relay.step fits call).2 = some record ∨ Kept fits (relay.step fits call).1 calls record := by
  rw [Kept, Machine.logFrom_cons, map_cons, mem_cons, or_assoc, eq_comm]
  rfl

/-- Without a pending record nothing is sent. -/
theorem not_kept (hp : relay.pendingCursor = none) (calls : List (CursorCall R)) (hn : ∀ call ∈ calls, routed call = none) :
    ¬Kept fits relay calls record ∧ Occupied fits relay calls := by
  induction calls generalizing relay with
  | nil => simp [Kept, Occupied, hp]
  | cons call calls ih =>
    obtain ⟨hc, hr⟩ := forall_mem_cons.mp hn
    have hs : (relay.step fits call).2 = none ∧ (relay.step fits call).1.pendingCursor = none ∧ ¬relay.Flushes call := by
      cases call <;> simp_all [step, routed, Flushes]
    obtain ⟨hk, ho⟩ := ih hs.2.1 hr
    refine ⟨?_, fun hf => absurd hf hs.2.2, ho⟩
    rw [kept_cons, hs.1]
    exact fun h => h.elim nofun hk

variable {record} (hf : fits record)
include hf

theorem kept_iff (hp : relay.pendingCursor = some record) (calls : List (CursorCall R))
    (hn : ∀ call ∈ calls, routed call = none) : Kept fits relay calls record ↔ Occupied fits relay calls := by
  induction calls generalizing relay with
  | nil => simp [Kept, Occupied, hp]
  | cons call calls ih =>
    obtain ⟨hc, hr⟩ := forall_mem_cons.mp hn
    obtain ⟨_, slot⟩ := relay
    cases hp
    obtain ⟨hk, ho⟩ := @not_kept R fits ⟨none, slot⟩ record rfl calls hr
    rw [kept_cons, Occupied]
    cases call with
    | routeCursor => cases hc
    | install => simpa [step, Flushes] using @ih ⟨some record, true⟩ rfl hr
    | clear => simpa [step, Flushes] using @ih ⟨some record, false⟩ rfl hr
    | retry answer =>
      cases slot with
      | false => simp [step, flushCursor, Flushes, hk]
      | true =>
        cases answer with
        | queued => simp [step, flushCursor, hf, ho]
        | full | closed => simpa [step, flushCursor, hf] using @ih ⟨some record, true⟩ rfl hr

omit hf

theorem flush_sublist (relay : RelayCursor R) (answer : TrySendAnswer) :
    ((relay.flushCursor fits answer).2.toList ++ (relay.flushCursor fits answer).1.pendingCursor.toList).Sublist
      relay.pendingCursor.toList := by
  obtain ⟨_ | record, _ | _⟩ := relay
  · simp [flushCursor]
  · simp [flushCursor]
  · simp [flushCursor]
  · cases hf : fits record <;> cases answer <;> simp [flushCursor, hf]

/-- What is accepted or pending after a call was pending or is routed by it. -/
theorem step_sublist (relay : RelayCursor R) (call : CursorCall R) :
    ((relay.step fits call).2.toList ++ (relay.step fits call).1.pendingCursor.toList).Sublist
      (relay.pendingCursor.toList ++ (routed call).toList) := by
  cases call with
  | routeCursor record answer => exact (flush_sublist _ answer).trans (sublist_append_right _ _)
  | install | clear => simp [step]
  | retry answer =>
    rw [step]
    split_ifs
    · exact (flush_sublist relay answer).trans (sublist_append_left _ _)
    · exact sublist_append_left _ _

theorem accepted_sublist (calls : List (CursorCall R)) :
    (((machine fits).log calls).filterMap Prod.snd ++ ((machine fits).exec calls).pendingCursor.toList).Sublist
      (calls.filterMap routed) := by
  induction calls using reverseRecOn with
  | nil => exact .slnil
  | append_singleton calls call ih =>
    rw [Machine.log_concat, filterMap_concat, filterMap_concat, Machine.exec_concat, append_assoc]
    refine ((Sublist.refl _).append (step_sublist _ call)).trans ?_
    rw [← append_assoc]
    exact ih.append (.refl _)

/-- **The newest cursor record** is accepted by a sender or pending, as long as no newer one is routed, if and only if every
flush since it was routed finds a sender in the slot. The accepted records are a subsequence of the routed ones. -/
theorem newest_cursor_kept_iff (fits : R → Bool) (calls : List (CursorCall R)) :
    (∀ before record answer after, calls = before ++ .routeCursor record answer :: after → fits record →
      (∀ call ∈ after, routed call = none) →
        (Kept fits ((machine fits).exec before) (.routeCursor record answer :: after) record ↔
          Occupied fits ((machine fits).exec before) (.routeCursor record answer :: after))) ∧
    (((machine fits).log calls).filterMap Prod.snd).Sublist (calls.filterMap routed) := by
  refine ⟨?_, (sublist_append_left _ _).trans (accepted_sublist calls)⟩
  intro before record answer after _ hf hn
  -- to route a record is to retry with the record pending
  have hr := @kept_iff R fits { (machine fits).exec before with pendingCursor := some record } record hf rfl
    (.retry answer :: after) (forall_mem_cons.mpr ⟨rfl, hn⟩)
  refine Iff.trans (Iff.trans (kept_cons _ _ _) (kept_cons _ _ _).symm) (hr.trans ?_)
  simp [Occupied, Flushes, step]

/-- A record that is routed before a lane is installed is lost. -/
theorem cursor_lost_without_sender :
    ¬Kept (fun _ => true) ((machine fun _ => true).exec []) [.routeCursor 7 .queued, .install, .retry .queued] 7 := by
  unfold Kept
  decide

end RelayCursor
end Arcen
