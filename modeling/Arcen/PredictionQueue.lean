import Arcen.VideoQueue

/-! The decisions of the video queue without its clocks and counters: which items wait, which is pinned, and the flags
that decide about the next push. The faithful queue projects onto this one, call by call; the flags keep an invariant
under which a push has one of seven effects. -/

namespace Arcen

open List

structure PredictionQueue (T : Type) where
  capacity : Nat
  deque : List T
  generationRecovery : Option T
  generationChain : Bool
  requireGenerationRecovery : Bool
  protectedFront : Bool
  awaitingKeyframe : Bool
  paused : Bool
  closed : Bool

namespace PredictionQueue

open SharedVideoQueue (Call)

variable {T : Type}

variable (q : PredictionQueue T)

def push (item : T) (classification : FrameClassification) : PredictionQueue T :=
  if q.closed then q
  else if q.generationChain && q.requireGenerationRecovery then
    if classification.recoveryPoint && decide (q.deque.length < q.capacity) then
      { q with
        deque := q.deque ++ [item], requireGenerationRecovery := false, awaitingKeyframe := false
        generationChain := q.generationChain && q.paused }
    else q
  else if q.paused && q.generationChain then
    if q.deque.length < q.capacity - q.generationRecovery.isSome.toNat then { q with deque := q.deque ++ [item] }
    else { q with deque := [], requireGenerationRecovery := true, awaitingKeyframe := true }
  else if q.paused && q.generationRecovery.isSome then q
  else if q.protectedFront then
    if q.deque.length < q.capacity then { q with deque := q.deque ++ [item] }
    else
      let kept := { q with
        deque := q.deque.head?.toList
        generationChain := true
        requireGenerationRecovery := !classification.recoveryPoint
        awaitingKeyframe := !classification.recoveryPoint }
      if classification.recoveryPoint then { kept with deque := kept.deque ++ [item] } else kept
  else if classification.keyframe then { q with deque := [item], awaitingKeyframe := false }
  else if q.awaitingKeyframe then q
  else if q.deque.length < q.capacity then { q with deque := q.deque ++ [item] }
  else { q with deque := [], awaitingKeyframe := true }

def pin (item : T) : PredictionQueue T :=
  if q.closed || !q.paused || q.generationRecovery.isSome then q
  else
    { q with
      deque := [], generationRecovery := some item, generationChain := true, requireGenerationRecovery := true
      awaitingKeyframe := true }

/-- The item the writer gets. -/
def front : Option T := if q.paused then none else q.deque.head?

def pop : PredictionQueue T :=
  match q.front with
  | none => q
  | some _ => { q with deque := q.deque.tail, protectedFront := false }

def begin : PredictionQueue T := { q with
    deque := [], generationRecovery := none, generationChain := false, requireGenerationRecovery := false
    protectedFront := false, awaitingKeyframe := true, paused := true }

def activate : PredictionQueue T :=
  match q.generationRecovery with
  | none => q
  | some recovery =>
    { q with
      generationRecovery := none, deque := recovery :: q.deque, paused := false, protectedFront := true
      generationChain := q.generationChain && q.requireGenerationRecovery }

def step : Call T → PredictionQueue T
  | .push item classification _ => q.push item classification
  | .popFront _ => q.pop
  | .pinGenerationRecovery item _ => q.pin item
  | .beginGeneration => q.begin
  | .activateGeneration => q.activate
  | .close => { q with closed := true }

/-! ### The flags -/

/-- What the flags of a queue mean. -/
structure WellFlagged (q : PredictionQueue T) : Prop where
  two_le : 2 ≤ q.capacity
  pinned : q.generationRecovery.isSome = true → q.paused = true ∧ q.generationChain = true
  require : q.requireGenerationRecovery = true → q.generationChain = true ∧ q.awaitingKeyframe = true
  barrier : q.paused = true ∧ q.generationChain = true ∨ q.protectedFront = true →
    q.awaitingKeyframe = true → q.requireGenerationRecovery = true
  unprotected : q.paused = true → q.protectedFront = false
  protected_pos : q.protectedFront = true → 0 < q.deque.length
  require_length : q.requireGenerationRecovery = true → q.deque.length ≤ q.protectedFront.toNat
  recovered : q.generationRecovery.isSome = true → q.awaitingKeyframe = false → 0 < q.deque.length
  bound : q.deque.length + q.generationRecovery.isSome.toNat ≤ q.capacity

/-- What a push does to a queue with meaningful flags. -/
inductive PushEffect (q : PredictionQueue T) (item : T) (classification : FrameClassification) :
    PredictionQueue T → Prop where
  /-- The item is handed back or suppressed. -/
  | refused (h : q.closed = true ∨ q.awaitingKeyframe = true) : PushEffect q item classification q
  /-- The chain goes on. -/
  | appended (hopen : q.closed = false) (hawaiting : q.awaitingKeyframe = false)
      (hroom : q.deque.length + 1 + q.generationRecovery.isSome.toNat ≤ q.capacity) :
      PushEffect q item classification { q with deque := q.deque ++ [item] }
  | recovered (hrequire : q.requireGenerationRecovery = true) (hpoint : classification.recoveryPoint = true) :
      PushEffect q item classification
        { q with
          deque := q.deque ++ [item], requireGenerationRecovery := false, awaitingKeyframe := false
          generationChain := q.generationChain && q.paused }
  /-- The chain behind a pin overflows before the barrier is lifted. -/
  | overflowedPaused (hpaused : q.paused = true) (hchain : q.generationChain = true) :
      PushEffect q item classification
        { q with deque := [], requireGenerationRecovery := true, awaitingKeyframe := true }
  | restarted (hprotected : q.protectedFront = true) (hrequire : q.requireGenerationRecovery = false)
      (hpoint : classification.recoveryPoint = true) : PushEffect q item classification
        { q with
          deque := q.deque.head?.toList ++ [item], generationChain := true, requireGenerationRecovery := false
          awaitingKeyframe := false }
  | overflowedProtected (hprotected : q.protectedFront = true) : PushEffect q item classification
        { q with
          deque := q.deque.head?.toList, generationChain := true, requireGenerationRecovery := true
          awaitingKeyframe := true }
  /-- A keyframe makes what waits obsolete. -/
  | replaced (hprotected : q.protectedFront = false) (hpinned : q.generationRecovery = none)
      (hrequire : q.requireGenerationRecovery = false) (hchain : q.paused = true → q.generationChain = false)
      (hkey : classification.keyframe = true) :
      PushEffect q item classification { q with deque := [item], awaitingKeyframe := false }
  /-- The ordinary queue overflows. -/
  | overflowed (hprotected : q.protectedFront = false) (hpinned : q.generationRecovery = none)
      (hrequire : q.requireGenerationRecovery = false) (hchain : q.paused = true → q.generationChain = false) :
      PushEffect q item classification { q with deque := [], awaitingKeyframe := true }

variable {q : PredictionQueue T}

theorem WellFlagged.pushEffect (h : WellFlagged q) (item : T)
    (cls : FrameClassification) : PushEffect q item cls (q.push item cls) := by
  unfold push
  split_ifs with hcl hrequ hpoint hpause hroom hpinn hprot hroom hpoint hkey ha hroom
  · exact .refused (.inl hcl)
  · rw [Bool.and_eq_true] at hrequ hpoint
    exact .recovered hrequ.2 hpoint.1
  · rw [Bool.and_eq_true] at hrequ
    exact .refused (.inr (h.require hrequ.2).2)
  all_goals
    have hf : q.requireGenerationRecovery = false := by
      refine Bool.eq_false_iff.mpr fun hr => hrequ ?_
      rw [Bool.and_eq_true]
      exact ⟨(h.require hr).1, hr⟩
  · rw [Bool.and_eq_true] at hpause
    refine .appended (Bool.eq_false_iff.mpr hcl) (Bool.eq_false_iff.mpr fun hw => ?_) (by omega)
    rw [h.barrier (.inl hpause) hw] at hf
    cases hf
  · rw [Bool.and_eq_true] at hpause
    exact .overflowedPaused hpause.1 hpause.2
  all_goals rw [Bool.and_eq_true, not_and] at hpause
  · rw [Bool.and_eq_true] at hpinn
    exact absurd (h.pinned hpinn.2).2 (hpause hpinn.1)
  all_goals
    have hn : q.generationRecovery = none := by
      refine Option.not_isSome_iff_eq_none.mp fun hsome => ?_
      exact hpause (h.pinned hsome).1 (h.pinned hsome).2
  · refine .appended (Bool.eq_false_iff.mpr hcl) (Bool.eq_false_iff.mpr fun hw => ?_) ?_
    · rw [h.barrier (.inr hprot) hw] at hf
      cases hf
    · rw [hn]
      exact hroom
  · simp only [hpoint, Bool.not_true]
    exact .restarted hprot hf hpoint
  · simp only [hpoint, Bool.not_false]
    exact .overflowedProtected hprot
  all_goals
    have hopen : q.protectedFront = false := Bool.eq_false_iff.mpr hprot
    have hch : q.paused = true → q.generationChain = false := fun hp => Bool.eq_false_iff.mpr (hpause hp)
  · exact .replaced hopen hn hf hch hkey
  · exact .refused (.inr ha)
  · refine .appended (Bool.eq_false_iff.mpr hcl) (Bool.eq_false_iff.mpr ha) ?_
    rw [hn]
    exact hroom
  · exact .overflowed hopen hn hf hch

theorem WellFlagged.unpinned_of_protected (h : WellFlagged q)
    (hprot : q.protectedFront = true) : q.generationRecovery = none := by
  refine Option.not_isSome_iff_eq_none.mp fun hpinn => ?_
  rw [h.unprotected (h.pinned hpinn).1] at hprot
  cases hprot

theorem length_toList_head?_pos {xs : List T} (h : 0 < xs.length) : 0 < xs.head?.toList.length := by
  cases xs with
  | nil => exact h
  | cons => exact Nat.one_pos

section

variable (h : WellFlagged q)
include h

theorem WellFlagged.push (item : T) (cls : FrameClassification) : WellFlagged (q.push item cls) := by
  have heff := h.pushEffect item cls
  generalize q.push item cls = q' at heff
  have hhead : q.deque.head?.toList.length ≤ 1 := Option.length_toList_le
  have ht := h.two_le
  have hl : ∀ xs : List T, 0 < (xs ++ [item]).length := fun xs => by simp
  cases heff with
  | refused => exact h
  | appended _ ha hroom =>
    refine ⟨ht, h.pinned, h.require, h.barrier, h.unprotected, fun _ => hl _, fun hr => ?_,
      fun _ _ => hl _, by simpa using hroom⟩
    rw [(h.require hr).2] at ha
    cases ha
  | recovered hrequ =>
    have hlen := h.require_length hrequ
    refine ⟨ht, fun hpin => ?_, nofun, fun _ => nofun, h.unprotected, fun _ => hl _, nofun, fun _ _ => hl _, ?_⟩
    · rw [(h.pinned hpin).1, (h.pinned hpin).2]
      exact ⟨rfl, rfl⟩
    · -- A pin is only there while paused, and then nothing is protected.
      rw [length_append, length_singleton]
      cases hpinn : q.generationRecovery.isSome with
      | true =>
        rw [h.unprotected (h.pinned hpinn).1] at hlen
        simp only [Bool.toNat_false, Bool.toNat_true] at hlen ⊢
        omega
      | false =>
        have := Bool.toNat_le q.protectedFront
        simp only [Bool.toNat_false]
        omega
  | overflowedPaused hpause hch =>
    refine ⟨ht, h.pinned, fun _ => ⟨hch, rfl⟩, fun _ _ => rfl, h.unprotected, fun hprot => ?_,
      fun _ => Nat.zero_le _, fun _ => nofun, ?_⟩
    · rw [h.unprotected hpause] at hprot
      cases hprot
    · have := h.bound
      simp only [length_nil]
      omega
  | restarted hprot =>
    have hunpi := h.unpinned_of_protected hprot
    refine ⟨ht, fun hpin => (h.pinned hpin).imp_right fun _ => rfl, nofun, fun _ => nofun, h.unprotected,
      fun _ => hl _, nofun, fun _ _ => hl _, ?_⟩
    simp only [hunpi, length_append, length_singleton, Option.isSome_none, Bool.toNat_false]
    omega
  | overflowedProtected hprot =>
    have hunpi := h.unpinned_of_protected hprot
    refine ⟨ht, fun hpin => (h.pinned hpin).imp_right fun _ => rfl, fun _ => ⟨rfl, rfl⟩, fun _ _ => rfl, h.unprotected,
      fun _ => length_toList_head?_pos (h.protected_pos hprot), fun _ => ?_, fun _ => nofun, ?_⟩
    · rw [hprot]
      exact hhead
    · simp only [hunpi, Option.isSome_none, Bool.toNat_false]
      omega
  | replaced _ hpinn hrequ =>
    refine ⟨ht, h.pinned, fun hr => ?_, fun _ => nofun, h.unprotected, fun _ => Nat.one_pos,
      fun hr => ?_, fun _ _ => Nat.one_pos, ?_⟩
    · rw [hrequ] at hr
      cases hr
    · rw [hrequ] at hr
      cases hr
    · simp only [hpinn, length_singleton, Option.isSome_none, Bool.toNat_false]
      omega
  | overflowed hprot hpinn _ hch =>
    refine ⟨ht, h.pinned, fun hr => ⟨(h.require hr).1, rfl⟩, ?_, h.unprotected, fun hp => ?_,
      fun _ => Nat.zero_le _, fun _ => nofun, ?_⟩
    · rintro (⟨hpause, hchd⟩ | hp) -
      · rw [hch hpause] at hchd
        cases hchd
      · rw [hprot] at hp
        cases hp
    · rw [hprot] at hp
      cases hp
    · simp only [hpinn, length_nil, Option.isSome_none, Bool.toNat_false]
      omega

theorem WellFlagged.pop : WellFlagged q.pop := by
  unfold PredictionQueue.pop PredictionQueue.front
  split
  · exact h
  · next item hfrt =>
    split_ifs at hfrt with hpause
    obtain ⟨rest, hd⟩ := head?_eq_some_iff.mp hfrt
    have hbd := h.bound
    refine ⟨h.two_le, h.pinned, h.require, ?_, fun hp => absurd hp hpause, nofun, fun hr => ?_, fun hp => ?_, ?_⟩
    · rintro (⟨hp, -⟩ | hp)
      · exact absurd hp hpause
      · cases hp
    · have hlen := h.require_length hr
      have := Bool.toNat_le q.protectedFront
      rw [hd, length_cons] at hlen
      simp only [hd, tail_cons]
      omega
    · exact absurd (h.pinned hp).1 hpause
    · rw [hd, length_cons] at hbd
      simp only [hd, tail_cons]
      omega

theorem WellFlagged.pin (item : T) : WellFlagged (q.pin item) := by
  unfold PredictionQueue.pin
  split_ifs with href
  · exact h
  · simp only [Bool.or_eq_true, Bool.not_eq_true', not_or, Bool.not_eq_false] at href
    obtain ⟨⟨-, hpause⟩, -⟩ := href
    have ht := h.two_le
    refine ⟨ht, fun _ => ⟨hpause, rfl⟩, fun _ => ⟨rfl, rfl⟩, fun _ _ => rfl, h.unprotected, fun hp => ?_,
      fun _ => Nat.zero_le _, fun _ => nofun, ?_⟩
    · rw [h.unprotected hpause] at hp
      cases hp
    · simp only [length_nil, Option.isSome_some, Bool.toNat_true]
      omega

theorem WellFlagged.begin : WellFlagged q.begin :=
  ⟨h.two_le, nofun, nofun, by rintro (⟨-, hch⟩ | hp) <;> contradiction, fun _ => rfl, nofun, nofun, nofun,
    Nat.zero_le _⟩

theorem WellFlagged.activate : WellFlagged q.activate := by
  unfold PredictionQueue.activate
  split
  · exact h
  · next recovery hrecov =>
    have hpinn : q.generationRecovery.isSome = true := by rw [hrecov]; rfl
    obtain ⟨hpause, hch⟩ := h.pinned hpinn
    have hbd := h.bound
    rw [hpinn] at hbd
    refine ⟨h.two_le, nofun, fun hr => ?_, fun _ hw => h.barrier (.inl ⟨hpause, hch⟩) hw, nofun,
      fun _ => Nat.succ_pos _, fun hr => ?_, nofun, by simpa using hbd⟩
    · exact ⟨by rw [hch, hr]; rfl, (h.require hr).2⟩
    · have hlen := h.require_length hr
      rw [h.unprotected hpause, Bool.toNat_false] at hlen
      simp only [length_cons, Bool.toNat_true]
      omega

theorem WellFlagged.step (call : Call T) : WellFlagged (q.step call) := by
  cases call with
  | push item cls => exact h.push item cls
  | popFront => exact h.pop
  | pinGenerationRecovery item => exact h.pin item
  | beginGeneration => exact h.begin
  | activateGeneration => exact h.activate
  | close =>
    exact ⟨h.two_le, h.pinned, h.require, h.barrier, h.unprotected, h.protected_pos, h.require_length, h.recovered,
      h.bound⟩

end

end PredictionQueue

/-! ### The queue projects onto its decisions -/

namespace SharedVideoQueue

variable {T : Type}

variable (queue : SharedVideoQueue T)

def core : PredictionQueue T where
  capacity := queue.capacity
  deque := queue.deque.map QueuedVideo.item
  generationRecovery := queue.generationRecovery.map QueuedVideo.item
  generationChain := queue.generationChain
  requireGenerationRecovery := queue.requireGenerationRecovery
  protectedFront := queue.protectedFront
  awaitingKeyframe := queue.awaitingKeyframe
  paused := queue.paused
  closed := queue.closed

@[simp] theorem core_drop (count : Nat) (started : Bool) (now : Nat) :
    (queue.drop count started now).1.core = queue.core := rfl

section

variable (queue : SharedVideoQueue T)

theorem core_push (item : T) (classification : FrameClassification) (now : Nat) :
    (queue.push item classification now).1.core = queue.core.push item classification := by
  simp only [push, PredictionQueue.push, apply_ite Prod.fst, apply_ite core, core_drop]
  have hch : (if !queue.paused then false else queue.generationChain) = (queue.generationChain && queue.paused) := by
    cases queue.paused <;> simp
  simp only [core, recordDrop, length_map, Option.isSome_map, map_append, map_cons, map_nil,
    head?_map, ← Option.toList_map, hch]

theorem core_pin (item : T) (now : Nat) : (queue.pinGenerationRecovery item now).1.core = queue.core.pin item := by
  simp only [pinGenerationRecovery, PredictionQueue.pin, core, Option.isSome_map]
  split_ifs <;> rfl

theorem core_popFront (now : Nat) :
    (queue.popFront now).1.core = queue.core.pop ∧ (queue.popFront now).2 = queue.core.front := by
  have hd : queue.core.deque = queue.deque.map QueuedVideo.item := rfl
  by_cases hpause : queue.paused = true
  · have hfrt : queue.core.front = none := if_pos hpause
    rw [popFront, popFrontWithBytes, if_pos hpause, PredictionQueue.pop, hfrt]
    exact ⟨rfl, rfl⟩
  · have hfrt : queue.core.front = queue.core.deque.head? := if_neg hpause
    rw [popFront, popFrontWithBytes, if_neg hpause, PredictionQueue.pop, hfrt, hd]
    split
    · next hemp =>
      rw [hemp]
      exact ⟨rfl, rfl⟩
    · next queued deque hcons =>
      rw [hcons]
      exact ⟨rfl, rfl⟩

theorem core_activate : queue.activateGeneration.1.core = queue.core.activate := by
  have hrecov : queue.core.generationRecovery = queue.generationRecovery.map QueuedVideo.item := rfl
  rw [activateGeneration, PredictionQueue.activate, hrecov]
  split
  · next hn =>
    rw [hn]
    rfl
  · next recovery hsome =>
    rw [hsome]
    cases hrequ : queue.requireGenerationRecovery <;> simp [core, hrequ]

/-- **Every call on the queue is the same call on its decisions.** -/
theorem core_step (call : Call T) : (queue.step call).1.core = queue.core.step call := by
  cases call with
  | push item cls now => exact core_push queue item cls now
  | popFront now => exact (core_popFront queue now).1
  | pinGenerationRecovery item now => exact core_pin queue item now
  | beginGeneration | close => rfl
  | activateGeneration => exact core_activate queue

end

end SharedVideoQueue
end Arcen
