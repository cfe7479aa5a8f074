import Arcen.VideoQueue

/-! Keyframe requests of the outbound video queue. While the queue waits for a keyframe a request is pending or was
handed to the encoder, and a request falls due no sooner than the minimum interval after the last one handed over. -/

namespace Arcen

open List
namespace SharedVideoQueue

variable {T : Type}

structure KeyframeRequestRetry where
  due : Bool
  pending : Bool
  retryAt : Option Nat

section

variable (queue : SharedVideoQueue T)

def keyframeRequestRetryAt (now : Nat) : Option Nat :=
  if !queue.keyframeRequestPending then none
  else
    queue.lastKeyframeRequestAt.bind fun last =>
      let due := last + queue.keyframeRequestMinInterval
      if now < due then some due else none

def keyframeRequestRetry (now : Nat) : KeyframeRequestRetry :=
  ⟨queue.keyframeRequestDueAt now, queue.keyframeRequestPending, queue.keyframeRequestRetryAt now⟩

def noteKeyframeRequestHandoff (success : Bool) (now : Nat) : SharedVideoQueue T :=
  if success then { queue with keyframeRequestPending := false, lastKeyframeRequestAt := some now } else queue

end

/-- A call on the queue, or what the host adapter says of a handoff to the encoder. -/
inductive RequestCall (T : Type) where
  | queue (call : Call T)
  | noteKeyframeRequestHandoff (success : Bool) (now : Nat)

def handoffTimes (calls : List (RequestCall T)) : List Nat := calls.filterMap fun call =>
    match call with
    | .noteKeyframeRequestHandoff true now => some now
    | _ => none

def begins : Call T → Bool
  | .beginGeneration => true
  | _ => false

/-- A queue, with the successful handoffs since it began to wait. -/
structure Waiting (T : Type) where
  queue : SharedVideoQueue T
  handoffs : List Nat

/-- The wait ends with the flag, and a generation that begins waits anew. -/
def Waiting.step (waiting : Waiting T) : RequestCall T → Waiting T
  | .queue call =>
    let next := (waiting.queue.step call).1
    ⟨next, if next.awaitingKeyframe && !begins call then waiting.handoffs else []⟩
  | .noteKeyframeRequestHandoff success now =>
    ⟨waiting.queue.noteKeyframeRequestHandoff success now,
      if success && waiting.queue.awaitingKeyframe then waiting.handoffs ++ [now] else waiting.handoffs⟩

/-- A fresh queue and its host adapter. -/
def requestMachine (T : Type) (capacity interval : Nat) : Machine (Waiting T) (RequestCall T) Unit where
  init := ⟨new capacity interval, []⟩
  step waiting call := (waiting.step call, ())

variable {queue : SharedVideoQueue T} {waiting : Waiting T} {now interval : Nat} {times : List Nat}

/-! ### What falls due -/

theorem interval_of_due (h : queue.keyframeRequestDueAt now = true) {last : Nat}
    (hl : queue.lastKeyframeRequestAt = some last) : queue.keyframeRequestMinInterval ≤ now - last := by
  simp only [keyframeRequestDueAt, hl, Bool.and_eq_true, decide_eq_true_eq] at h
  exact h.2

theorem interval_of_push {item : T} {cls : FrameClassification} {count : Nat} {started : Bool}
    (h : (queue.push item cls now).2 = .dropped count started true) {last : Nat}
    (hl : queue.lastKeyframeRequestAt = some last) : queue.keyframeRequestMinInterval ≤ now - last := by
  generalize hres : queue.push item cls now = result at h
  unfold push at hres
  dsimp only at hres
  repeat' split at hres
  all_goals subst hres
  all_goals first
    | cases h
    | (simp only [drop, keyframeRequestDue, VideoQueuePush.dropped.injEq] at h
       exact interval_of_due h.2.2 hl)

/-- A pending request is due, or is to be retried when the interval has passed since the last handoff. -/
theorem due_or_retry (h : queue.keyframeRequestPending = true) (now : Nat) :
    (queue.keyframeRequestRetry now).due = true ∨ ∃ last, queue.lastKeyframeRequestAt = some last ∧
      (queue.keyframeRequestRetry now).retryAt = some (last + queue.keyframeRequestMinInterval) := by
  cases hl : queue.lastKeyframeRequestAt with
  | none => exact .inl (by simp [keyframeRequestRetry, keyframeRequestDueAt, h, hl])
  | some last =>
    by_cases hearly : now < last + queue.keyframeRequestMinInterval
    · exact .inr ⟨last, rfl, by simp [keyframeRequestRetry, keyframeRequestRetryAt, h, hl, hearly]⟩
    · refine .inl ?_
      simp only [keyframeRequestRetry, keyframeRequestDueAt, h, hl, Bool.true_and, decide_eq_true_eq]
      omega

/-! ### Runs -/

/-- What a call does to the request. -/
structure RequestEffect (queue : SharedVideoQueue T) (call : Call T) (next : SharedVideoQueue T) : Prop where
  interval : next.keyframeRequestMinInterval = queue.keyframeRequestMinInterval
  last : next.lastKeyframeRequestAt = queue.lastKeyframeRequestAt ∨
    next.lastKeyframeRequestAt = none ∧ (next.awaitingKeyframe && !begins call) = false
  asked : next.awaitingKeyframe = true → next.keyframeRequestPending = true ∨
    begins call = false ∧ queue.awaitingKeyframe = true ∧ next.keyframeRequestPending = queue.keyframeRequestPending

theorem requestEffect (queue : SharedVideoQueue T) (call : Call T) : RequestEffect queue call (queue.step call).1 := by
  generalize hnext : (queue.step call).1 = next
  cases call <;> simp only [step, push, popFront, popFrontWithBytes, pinGenerationRecovery, beginGeneration,
    activateGeneration, close, drop, keyframeRequestDue, recordDrop] at hnext
  all_goals repeat' split at hnext
  all_goals subst hnext
  all_goals constructor <;> simp_all [begins]

/-- What a run with these handoffs leaves behind. -/
structure Requested (interval : Nat) (times : List Nat) (waiting : Waiting T) : Prop where
  interval : waiting.queue.keyframeRequestMinInterval = interval
  asked : waiting.queue.awaitingKeyframe = true → waiting.queue.keyframeRequestPending = true ∨ waiting.handoffs ≠ []
  last : ∀ last, waiting.queue.lastKeyframeRequestAt = some last → times.getLast? = some last
  covers : ∀ handoff ∈ waiting.handoffs, handoff ∈ times ∧ waiting.queue.lastKeyframeRequestAt ≠ none

section

variable (h : Requested interval times waiting)
include h

theorem Requested.call (call : Call T) : Requested interval times (waiting.step (.queue call)) := by
  have heff := requestEffect waiting.queue call
  refine ⟨heff.interval.trans h.interval, fun hawai => ?_, fun last hl => ?_, fun handoff hmem => ?_⟩
  · refine (heff.asked hawai).elim .inl fun ⟨hbegi, hpre, hpend⟩ => ?_
    have hstill : (waiting.queue.step call).1.awaitingKeyframe = true := hawai
    simp only [Waiting.step, hstill, hbegi]
    exact (h.asked hpre).imp_left hpend.trans
  · rcases heff.last with hsame | hnone
    · exact h.last last (hsame.symm.trans hl)
    · cases hnone.1.symm.trans hl
  · simp only [Waiting.step] at hmem
    split at hmem
    · next hwaits =>
      have hsame := heff.last.resolve_right fun hnone => Bool.eq_false_iff.mp hnone.2 hwaits
      exact (h.covers handoff hmem).imp_right (hsame.trans_ne ·)
    · cases hmem

theorem Requested.handedOver (now : Nat) :
    Requested interval (times ++ [now]) (waiting.step (.noteKeyframeRequestHandoff true now)) := by
  refine ⟨h.interval, fun hawai => .inr ?_, fun last hl => ?_, fun handoff hmem => ⟨?_, nofun⟩⟩
  · have hpre : waiting.queue.awaitingKeyframe = true := hawai
    simp [Waiting.step, hpre]
  · cases hl
    exact getLast?_concat
  · simp only [Waiting.step] at hmem
    split at hmem
    · exact (mem_append.mp hmem).elim (fun hold => mem_append_left _ (h.covers handoff hold).1)
        (mem_append_right _)
    · exact mem_append_left _ (h.covers handoff hmem).1

/-- If the handoffs did not go back in time, none of this wait is later than the last. -/
theorem Requested.le_last (htm : times.Pairwise (· ≤ ·))
    (hmem : handoff ∈ waiting.handoffs) : ∃ last, waiting.queue.lastKeyframeRequestAt = some last ∧ handoff ≤ last := by
  obtain ⟨hhand, hsome⟩ := h.covers handoff hmem
  obtain ⟨last, hl⟩ := Option.ne_none_iff_exists'.mp hsome
  refine ⟨last, hl, ?_⟩
  obtain ⟨_, rfl⟩ := getLast?_eq_some_iff.mp (h.last last hl)
  rcases mem_append.mp hhand with hearl | hnow
  · exact (pairwise_append.mp htm).2.2 handoff hearl last (mem_singleton.mpr rfl)
  · exact Nat.le_of_eq (mem_singleton.mp hnow)
end

/-- **A keyframe request is never forgotten.** After any run with non-decreasing handoffs: a queue that waits for a
keyframe has a request pending or one handed over since it began to wait; a pending request is due, or is to be retried
the minimum interval after the last handoff; and a request that a retry or a push reports as due has no handoff of this
wait that is younger than the interval. -/
theorem keyframe_request_never_forgotten (capacity interval : Nat) (calls : List (RequestCall T))
    (htimes : (handoffTimes calls).Pairwise (· ≤ ·)) :
    let waiting := (requestMachine T capacity interval).exec calls
    (waiting.queue.awaitingKeyframe = true → waiting.queue.keyframeRequestPending = true ∨ waiting.handoffs ≠ []) ∧
      (waiting.queue.keyframeRequestPending = true → ∀ now, (waiting.queue.keyframeRequestRetry now).due = true ∨
        ∃ last, (handoffTimes calls).getLast? = some last ∧
          (waiting.queue.keyframeRequestRetry now).retryAt = some (last + interval)) ∧
      (∀ now, (waiting.queue.keyframeRequestRetry now).due = true →
        ∀ handoff ∈ waiting.handoffs, interval ≤ now - handoff) ∧
      ∀ item cls now count started, (waiting.queue.push item cls now).2 = .dropped count started true →
          ∀ handoff ∈ waiting.handoffs, interval ≤ now - handoff := by
  intro waiting
  have h : Requested interval (handoffTimes calls) waiting := by
    refine (requestMachine T capacity interval).calls_invariant
        (P := fun calls => Requested interval (handoffTimes calls))
      ⟨rfl, nofun, nofun, nofun⟩ (fun calls waiting call h => ?_) calls
    rw [handoffTimes, filterMap_append]
    cases call with
    | queue call => exact (append_nil (handoffTimes calls)).symm ▸ h.call call
    | noteKeyframeRequestHandoff success now =>
      cases success with
      | true => exact h.handedOver now
      | false => exact (append_nil (handoffTimes calls)).symm ▸ h
  have hyoun : ∀ now, (∀ last, waiting.queue.lastKeyframeRequestAt = some last →
      waiting.queue.keyframeRequestMinInterval ≤ now - last) → ∀ handoff ∈ waiting.handoffs, interval ≤ now - handoff := by
    intro now hdue handoff hmem
    obtain ⟨last, hl, hle⟩ := h.le_last htimes hmem
    rw [← h.interval]
    exact Nat.le_trans (hdue last hl) (Nat.sub_le_sub_left hle now)
  refine ⟨h.asked, fun hpend now => ?_, fun now hdue => hyoun now fun _ => interval_of_due hdue,
    fun _ _ now _ _ hpush => hyoun now fun _ => interval_of_push hpush⟩
  refine (due_or_retry hpend now).imp_right fun ⟨last, hl, hretry⟩ => ⟨last, h.last last hl, ?_⟩
  rw [hretry, h.interval]

theorem keyframe_request_handed_over :
    ((requestMachine Unit 2 250).exec [.queue .beginGeneration, .noteKeyframeRequestHandoff true 5]).handoffs ≠ [] :=
  ((keyframe_request_never_forgotten 2 250 [.queue .beginGeneration, .noteKeyframeRequestHandoff true 5]
    (by decide)).1 rfl).resolve_left (by decide)

end SharedVideoQueue
end Arcen
