import Mathlib.Tactic

/-! Atomic start (`outputs/atomic_start.rs`): the specifications are started in order, and when one fails the items
already started are stopped in reverse. The callbacks may keep a state, so an answer depends on all calls before it. -/

namespace Arcen

open List

structure RollbackFailure (R : Type) where
  index : Nat
  source : R

structure AtomicStartFailure (E R : Type) where
  index : Nat
  started : Nat
  source : E
  rollbackFailures : List (RollbackFailure R)

/-- A call of a callback with its answer. A specification is of type `S` and an item of type `I`. -/
inductive StartCall (S I E R : Type) where
  | start (spec : S) (result : Except E I)
  | stop (item : I) (result : Except R Unit)

abbrev StartLog (S I E R : Type) := List (StartCall S I E R)

structure StartCallbacks (S I E R : Type) where
  startOne : StartLog S I E R → S → Except E I
  stopOne : StartLog S I E R → I → Except R Unit

variable {S I E R : Type}

namespace StartCallbacks

variable (callbacks : StartCallbacks S I E R)

/-- The teardown loop, on the started items from the last one on. -/
def stopAll : List I → List (RollbackFailure R) → StartLog S I E R → List (RollbackFailure R) × StartLog S I E R
  | [], failures, log => (failures, log)
  | item :: started, failures, log =>
    match callbacks.stopOne log item with
    | .ok () => stopAll started failures (log ++ [.stop item (.ok ())])
    | .error source => stopAll started (failures ++ [⟨started.length, source⟩]) (log ++ [.stop item (.error source)])

/-- The start loop, with the started items from the last one on. -/
def startFrom : Nat → List I → List S → StartLog S I E R → Except (AtomicStartFailure E R) (List I) × StartLog S I E R
  | _, started, [], log => (.ok started.reverse, log)
  | index, started, spec :: specs, log =>
    match callbacks.startOne log spec with
    | .ok item => startFrom (index + 1) (item :: started) specs (log ++ [.start spec (.ok item)])
    | .error source =>
      let (failures, log) := callbacks.stopAll started [] (log ++ [.start spec (.error source)])
      (.error ⟨index, started.length, source, failures⟩, log)

/-- The result, and the calls of the callbacks. -/
def startAllOrRollback (specs : List S) : Except (AtomicStartFailure E R) (List I) × StartLog S I E R :=
  callbacks.startFrom 0 [] specs []

end StartCallbacks

/-! ### The calls of a start -/

def startCalls (specs : List S) (items : List I) : StartLog S I E R :=
  (specs.zip items).map fun (spec, item) => .start spec (.ok item)

/-- The items are stopped from the last to the first, with the given answers. -/
def stopCalls (items : List I) (stops : List (Except R Unit)) : StartLog S I E R :=
  (items.reverse.zip stops).map fun (item, stop) => .stop item stop

def rollbackFailure : (I × Nat) × Except R Unit → Option (RollbackFailure R)
  | (_, .ok ()) => none
  | ((_, index), .error source) => some ⟨index, source⟩

/-- The failed stops in their order, each with the index at which its item was started. -/
def failedStops (items : List I) (stops : List (Except R Unit)) : List (RollbackFailure R) :=
  (items.zipIdx.reverse.zip stops).filterMap rollbackFailure

namespace StartCallbacks

variable (callbacks : StartCallbacks S I E R)

theorem stopAll_eq (items : List I) (failures : List (RollbackFailure R)) (log : StartLog S I E R)
    : ∃ stops, stops.length = items.length ∧
      callbacks.stopAll items.reverse failures log = (failures ++ failedStops items stops, log ++ stopCalls items stops) := by
  induction items using reverseRecOn generalizing failures log with
  | nil => exact ⟨[], rfl, by simp [stopAll, failedStops, stopCalls]⟩
  | append_singleton items item ih =>
    rw [reverse_concat, stopAll]
    cases callbacks.stopOne log item with
    | ok u =>
      obtain ⟨stops, hl, hs⟩ := ih failures (log ++ [.stop item (.ok ())])
      refine ⟨.ok () :: stops, by simp [hl], hs.trans ?_⟩
      simp [failedStops, stopCalls, zipIdx_append, filterMap_cons, rollbackFailure]
    | error source =>
      obtain ⟨stops, hl, hs⟩ := ih (failures ++ [⟨items.reverse.length, source⟩])
        (log ++ [.stop item (.error source)])
      refine ⟨.error source :: stops, by simp [hl], hs.trans ?_⟩
      simp [failedStops, stopCalls, zipIdx_append, rollbackFailure]

/-- What a start does to the log, behind the items that were started before. -/
theorem startFrom_eq (specs : List S) (items : List I) (log : StartLog S I E R) :
    (∃ later, later.length = specs.length ∧ callbacks.startFrom items.length items.reverse specs log =
      (.ok (items ++ later), log ++ startCalls specs later)) ∨
    ∃ before spec after later source stops, specs = before ++ spec :: after ∧ later.length = before.length ∧
      stops.length = (items ++ later).length ∧ callbacks.startFrom items.length items.reverse specs log =
        (.error ⟨(items ++ later).length, (items ++ later).length, source, failedStops (items ++ later) stops⟩,
          log ++ startCalls before later ++ [.start spec (.error source)] ++ stopCalls (items ++ later) stops) := by
  induction specs generalizing items log with
  | nil => exact .inl ⟨[], rfl, by simp [startFrom, startCalls]⟩
  | cons spec specs ih =>
    rw [startFrom]
    cases callbacks.startOne log spec with
    | ok item =>
      have hrest := ih (items ++ [item]) (log ++ [.start spec (.ok item)])
      rw [length_append, reverse_concat] at hrest
      rcases hrest with ⟨later, hl, hr⟩ | ⟨before, failing, after, later, source, stops, rfl, hl, hs, hr⟩
      · refine .inl ⟨item :: later, by simp [hl], hr.trans ?_⟩
        simp [startCalls]
      · rw [append_assoc] at hs hr
        refine .inr ⟨spec :: before, failing, after, item :: later, source, stops, rfl, by simp [hl], hs, hr.trans ?_⟩
        simp [startCalls]
    | error source =>
      obtain ⟨stops, hl, hs⟩ := callbacks.stopAll_eq items [] (log ++ [.start spec (.error source)])
      refine .inr ⟨[], spec, specs, [], source, stops, rfl, rfl, by simp [hl], ?_⟩
      simp [hs, startCalls]

end StartCallbacks

end Arcen
