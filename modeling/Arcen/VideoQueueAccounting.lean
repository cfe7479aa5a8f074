import Arcen.VideoQueue

/-! What the outbound video queue reports about itself: the frames it counts as sent or dropped, and the room it
announces to the frame pump. Both are recomputed from the flags and the length of the queue in every branch, and both
go wrong where a recovery point finds no room behind a protected front. -/

namespace Arcen

open List
namespace SharedVideoQueue

variable {T : Type}

/-- A recovery point that finds no room behind a protected front. -/
def OverflowsProtected (queue : SharedVideoQueue T) : Call T → Prop
  | .push _ classification _ =>
    classification.recoveryPoint = true ∧ queue.protectedFront = true ∧
      (queue.generationChain && queue.requireGenerationRecovery) = false ∧ queue.capacity ≤ queue.deque.length
  | _ => False

def Avoids (kind : SharedVideoQueue T → Call T → Prop) (queue : SharedVideoQueue T) : List (Call T) → Prop
  | [] => True
  | call :: calls => ¬kind queue call ∧ Avoids kind (queue.step call).1 calls

/-- The sum of what every step of a run contributes. -/
def total (count : SharedVideoQueue T → Call T → Nat) (queue : SharedVideoQueue T) : List (Call T) → Nat
  | [] => 0
  | call :: calls => count queue call + total count (queue.step call).1 calls

variable {queue : SharedVideoQueue T} {call : Call T} {calls : List (Call T)} {item : T}
  {cls : FrameClassification} {now : Nat}

/-- An invariant of the steps that are not of the kind holds at the end of a run that has none of the kind. -/
theorem Avoids.invariant {I : SharedVideoQueue T → Prop}
    (hstep : ∀ queue call, ¬kind queue call → I queue → I (queue.step call).1)
    (h : Avoids kind queue calls) (hq : I queue) : I ((machine T cap interval).execFrom queue calls) := by
  induction calls generalizing queue with
  | nil => exact hq
  | cons call calls ih => exact ih h.2 (hstep queue call h.1 hq)

/-! ### Drop accounting -/

/-- The items that are counted as sent or dropped, and those the queue holds. -/
def accounted (queue : SharedVideoQueue T) : Nat :=
  queue.framesSent + queue.framesDropped + (queue.deque.length + queue.generationRecovery.isSome.toNat)

/-- The items a call gives to the queue: one that is pushed, or a pin that is accepted. -/
def offered (queue : SharedVideoQueue T) : Call T → Nat
  | .push _ _ _ => 1
  | .pinGenerationRecovery item now => (queue.pinGenerationRecovery item now).2.accepted.toNat
  | _ => 0

def clearedBy : VideoQueuePush T → Nat
  | .enqueued cleared => cleared
  | _ => 0

/-- The items that a keyframe clears as obsolete, outside a protected generation. -/
def obsolete (queue : SharedVideoQueue T) : Call T → Nat
  | .push item classification now =>
    if queue.protectedFront then 0 else clearedBy (queue.push item classification now).2
  | _ => 0

theorem saturatingAddU64_of_lt (h : a + b < 2 ^ 64) : saturatingAddU64 a b = a + b := by
  unfold saturatingAddU64
  omega

theorem closed_step (hc : call ≠ .close) : (queue.step call).1.closed = queue.closed := by
  cases call with
  | push =>
    simp only [step, push, apply_ite Prod.fst, apply_ite SharedVideoQueue.closed, drop, keyframeRequestDue, recordDrop,
      ite_self]
  | close => exact absurd rfl hc
  | _ =>
    simp only [step, popFront, popFrontWithBytes, pinGenerationRecovery, activateGeneration]
    repeat' split
    all_goals rfl

/-- The item of a push is among those accounted for, or it took the place of items that were obsolete. -/
def Balanced (queue : SharedVideoQueue T) (result : SharedVideoQueue T × VideoQueuePush T) : Prop :=
  result.1.accounted + (if queue.protectedFront then 0 else clearedBy result.2) = queue.accounted + 1

theorem Balanced.appended {next : SharedVideoQueue T}
    (hdeque : next.deque = queue.deque ++ [queued]) (hr : next.generationRecovery = queue.generationRecovery)
    (hsent : next.framesSent = queue.framesSent) (hd : next.framesDropped = queue.framesDropped) :
    Balanced queue (next, .enqueued 0) := by
  simp only [Balanced, accounted, clearedBy, hdeque, hr, length_append, length_singleton, ite_self]
  omega

/-- A loss is counted in full: what is gone from the queue, and the item. -/
theorem Balanced.lost {next : SharedVideoQueue T} {count : Nat}
    (hbd : queue.framesDropped + count < 2 ^ 64) (hcnt : next.deque.length + count = queue.deque.length + 1)
    (hr : next.generationRecovery = queue.generationRecovery)
    (hsent : next.framesSent = queue.framesSent) (hd : next.framesDropped = queue.framesDropped) :
    Balanced queue (next.drop count started now) := by
  simp only [Balanced, drop, keyframeRequestDue, recordDrop, accounted, clearedBy, hr, hd,
    saturatingAddU64_of_lt hbd, ite_self]
  omega

/-- A push that leaves no item out and counts none twice. -/
theorem balanced_push (hcl : queue.closed = false)
    (ha : ¬queue.OverflowsProtected (.push item cls now)) (hbd : queue.accounted + 1 < 2 ^ 64) :
    Balanced queue (queue.push item cls now) := by
  have hd : queue.framesDropped + (queue.deque.length + 1) < 2 ^ 64 := by
    unfold accounted at hbd
    omega
  unfold push
  dsimp only
  rw [hcl, if_neg Bool.false_ne_true]
  split
  · split
    · exact .appended rfl rfl rfl rfl
    · exact .lost (by omega) rfl rfl rfl rfl
  · next hch =>
    split
    · split
      · exact .appended rfl rfl rfl rfl
      · exact .lost hd (by simp) rfl rfl rfl
    · split
      · simp only [Balanced, accounted, recordDrop, clearedBy, ite_self,
          saturatingAddU64_of_lt (show queue.framesDropped + 1 < 2 ^ 64 by omega)]
        omega
      · split
        · next hp =>
          split
          · exact .appended rfl rfl rfl rfl
          · next hfull =>
            split
            · next hr =>
              exact absurd ⟨hr, hp, Bool.eq_false_iff.mpr hch, Nat.not_lt.mp hfull⟩ ha
            · -- the front stays, and what stood behind it is lost with the item
              refine .lost ?_ ?_ rfl rfl rfl
              · rw [length_tail]
                omega
              · cases queue.deque <;> simp [Nat.add_comm]
        · next hordi =>
          split
          · simp only [Balanced, accounted, clearedBy, if_neg hordi, length_singleton]
            omega
          · split
            · exact .lost (by omega) rfl rfl rfl rfl
            · split
              · exact .appended rfl rfl rfl rfl
              · exact .lost hd (by simp) rfl rfl rfl

theorem accounted_popFront (hbd : queue.accounted < 2 ^ 64) : (queue.popFront now).1.accounted = queue.accounted := by
  unfold popFront popFrontWithBytes
  split
  · rfl
  · split
    · rfl
    · next queued deque hdeque =>
      simp only [accounted, hdeque, length_cons] at hbd ⊢
      rw [saturatingAddU64_of_lt (by omega)]
      omega

theorem accounted_pin (hbd : queue.accounted < 2 ^ 64) : (queue.pinGenerationRecovery item now).1.accounted =
      queue.accounted + (queue.pinGenerationRecovery item now).2.accepted.toNat := by
  unfold pinGenerationRecovery
  split
  · rfl
  · next hpin =>
    have hnone : queue.generationRecovery.isSome = false := by
      simp only [Bool.or_eq_true, not_or, Bool.not_eq_true] at hpin
      exact hpin.2
    simp only [accounted, hnone] at hbd ⊢
    rw [saturatingAddU64_of_lt (by omega)]
    simp only [length_nil, Option.isSome_some, Bool.toNat_false]
    omega

theorem accounted_begin (hbd : queue.accounted < 2 ^ 64) : queue.beginGeneration.accounted = queue.accounted := by
  simp only [accounted, beginGeneration] at hbd ⊢
  rw [saturatingAddU64_of_lt (by omega)]
  simp only [length_nil, Option.isSome_none, Bool.toNat_false]
  omega

theorem accounted_activate : queue.activateGeneration.1.accounted = queue.accounted := by
  unfold activateGeneration
  split
  · rfl
  · next recovery hr =>
    simp [accounted, hr]

theorem accounted_step (hcl : queue.closed = false) (ha : ¬queue.OverflowsProtected call)
    (hbd : queue.accounted + queue.offered call < 2 ^ 64) :
    (queue.step call).1.accounted + queue.obsolete call = queue.accounted + queue.offered call := by
  cases call with
  | push => exact balanced_push hcl ha hbd
  | popFront => exact accounted_popFront hbd
  | pinGenerationRecovery => exact accounted_pin (Nat.lt_of_le_of_lt (Nat.le_add_right _ _) hbd)
  | beginGeneration => exact accounted_begin hbd
  | activateGeneration => exact accounted_activate
  | close => rfl

theorem accounted_execFrom (cap interval : Nat) (hcl : queue.closed = false) (hopen : .close ∉ calls)
    (ha : Avoids OverflowsProtected queue calls) (hbd : queue.accounted + total offered queue calls < 2 ^ 64) :
    ((machine T cap interval).execFrom queue calls).accounted + total obsolete queue calls =
      queue.accounted + total offered queue calls := by
  induction calls generalizing queue with
  | nil => rfl
  | cons call calls ih =>
    obtain ⟨hc, hcs⟩ := not_or.mp (mt mem_cons.mpr hopen)
    simp only [total] at hbd ⊢
    have hstep := accounted_step hcl ha.1 (by omega)
    have hrest := ih ((closed_step (Ne.symm hc)).trans hcl) hcs ha.2 (by omega)
    change ((machine T cap interval).execFrom (queue.step call).1 calls).accounted + _ = _
    omega

theorem framesDropped_push (ha : ¬queue.OverflowsProtected (.push item cls now))
    (henqu : (queue.push item cls now).2 = .enqueued cleared) :
    (queue.push item cls now).1.framesDropped = queue.framesDropped := by
  generalize hres : queue.push item cls now = result at henqu ⊢
  unfold push at hres
  dsimp only at hres
  repeat' split at hres
  all_goals subst hres
  all_goals first
    | rfl
    | exact absurd ⟨‹_›, ‹_›, Bool.eq_false_iff.mpr ‹_›, Nat.not_lt.mp ‹_›⟩ ha
    | cases henqu

/-- **Drop accounting.** In a run of fewer than `2 ^ 64` items in which no recovery point overflows a protected front,
the items given to the queue are those it counts as sent or dropped, those it holds and those that ordinary keyframes
cleared as obsolete; and a further push that is enqueued counts nothing as dropped. -/
theorem drop_accounting_exact (capacity interval : Nat) (calls : List (Call T)) (hopen : .close ∉ calls)
    (havoids : Avoids OverflowsProtected (new capacity interval) calls)
    (hbound : total offered (new capacity interval) calls < 2 ^ 64) :
    let queue := (machine T capacity interval).exec calls
    total offered (new capacity interval) calls =
        queue.framesSent + queue.framesDropped + (queue.deque.length + queue.generationRecovery.isSome.toNat) +
          total obsolete (new capacity interval) calls ∧
      ∀ item cls now cleared, ¬queue.OverflowsProtected (.push item cls now) →
        (queue.push item cls now).2 = .enqueued cleared →
        (queue.push item cls now).1.framesDropped = queue.framesDropped := by
  refine ⟨?_, fun item cls now cleared => framesDropped_push⟩
  have hzero : accounted (new (T := T) capacity interval) = 0 := rfl
  have hrun := accounted_execFrom capacity interval rfl hopen havoids (by rwa [hzero, Nat.zero_add])
  rw [hzero, Nat.zero_add] at hrun
  exact hrun.symm

/-- A generation whose recovery point is followed by another one before the writer takes the first frame. -/
def recoveredTwice : List (Call Unit) :=
  [.beginGeneration, .pinGenerationRecovery () 0, .activateGeneration, .push () ⟨true, true⟩ 1]

theorem drop_accounting_recovered :
    total offered (new 2 0) recoveredTwice = 0 + 0 + (2 + 0) + total obsolete (new 2 0) recoveredTwice :=
  (drop_accounting_exact 2 0 recoveredTwice (by decide) (by simp [recoveredTwice, Avoids, OverflowsProtected, step,
    beginGeneration, pinGenerationRecovery, activateGeneration, new]) (by decide)).1

/-- The second recovery point is enqueued and counted as dropped at once: of three items, four are accounted for. -/
theorem drop_accounting_counts_twice : let calls := recoveredTwice ++ [.push () ⟨true, true⟩ 2]
    let queue := (machine Unit 2 0).exec calls
    total offered (new 2 0) calls = 3 ∧ total obsolete (new 2 0) calls = 0 ∧
      queue.framesSent + queue.framesDropped + (queue.deque.length + queue.generationRecovery.isSome.toNat) = 4 := by
  decide

/-! ### Room -/

/-- What the queue announces to the frame pump. -/
inductive RoomState where
  | hasRoom
  | full
  | notOrdinary
  deriving DecidableEq

def roomState (queue : SharedVideoQueue T) : RoomState :=
  let ordinary := !queue.closed && !queue.paused && !queue.awaitingKeyframe && !queue.generationChain &&
    !queue.protectedFront
  if !ordinary then .notOrdinary else if queue.deque.length < queue.capacity then .hasRoom else .full

/-- A frame that is neither keyframe nor recovery point. -/
def deltaFrame : FrameClassification := ⟨false, false⟩

/-- The guards of `push` let such a frame through to the ordinary branches. -/
def ReachesOrdinary (queue : SharedVideoQueue T) : Prop :=
  queue.closed = false ∧ (queue.generationChain && queue.requireGenerationRecovery) = false ∧
    (queue.paused && queue.generationChain) = false ∧ (queue.paused && queue.generationRecovery.isSome) = false ∧
    queue.protectedFront = false ∧ queue.awaitingKeyframe = false

theorem push_of_reachesOrdinary (h : queue.ReachesOrdinary) (item : T) (now : Nat) : queue.push item deltaFrame now =
      if queue.deque.length < queue.capacity then
        ({ queue with deque := queue.deque ++ [⟨item, now, false⟩] }, .enqueued 0)
      else
        { queue with deque := [], awaitingKeyframe := true, keyframeRequestPending := true }.drop
          (queue.deque.length + 1) true now := by
  obtain ⟨hcl, hreq, hch, hr, hp, hawait⟩ := h
  simp [push, deltaFrame, hcl, hreq, hch, hr, hp, hawait]

/-- The announced room is the room that such a frame would find. -/
structure RoomAgrees (queue : SharedVideoQueue T) (item : T) (now : Nat) : Prop where
  hasRoom : queue.roomState = .hasRoom ↔ queue.ReachesOrdinary ∧
    queue.push item deltaFrame now = ({ queue with deque := queue.deque ++ [⟨item, now, false⟩] }, .enqueued 0)
  full : queue.roomState = .full ↔ queue.ReachesOrdinary ∧ queue.push item deltaFrame now =
    { queue with deque := [], awaitingKeyframe := true, keyframeRequestPending := true }.drop
      (queue.deque.length + 1) true now
  notOrdinary : queue.roomState = .notOrdinary → ¬queue.ReachesOrdinary

/-- Steps that leave the flags out of step with the branches of `push`: a recovery point overflows a protected front,
or a keyframe is pushed into a barrier that has no pin yet. -/
def Unbars (queue : SharedVideoQueue T) (call : Call T) : Prop := queue.OverflowsProtected call ∨ match call with
    | .push _ classification _ =>
      classification.keyframe = true ∧ queue.paused = true ∧ queue.generationRecovery.isSome = false
    | _ => False

/-- A barrier keeps frames from the ordinary branches, and a chain outlives its barrier only until it is recovered. -/
structure Barred (queue : SharedVideoQueue T) : Prop where
  paused : queue.paused = true →
    queue.generationChain = true ∨ queue.generationRecovery.isSome = true ∨ queue.awaitingKeyframe = true
  chain : queue.paused = false → queue.generationChain = true → queue.requireGenerationRecovery = true

theorem Barred.push (h : queue.Barred) (hbars : ¬queue.Unbars (.push item cls now)) :
    (queue.push item cls now).1.Barred := by
  obtain ⟨_, _⟩ := h
  simp only [Unbars, OverflowsProtected] at hbars
  generalize hres : queue.push item cls now = result
  unfold SharedVideoQueue.push at hres
  repeat' split at hres
  all_goals subst hres
  all_goals constructor <;> simp only [drop, keyframeRequestDue, recordDrop]
  all_goals grind

theorem Barred.step (h : queue.Barred) (hbars : ¬queue.Unbars call) : (queue.step call).1.Barred := by
  cases call with
  | push => exact h.push hbars
  | activateGeneration =>
    simp only [SharedVideoQueue.step, activateGeneration]
    split
    · exact h
    · refine ⟨nofun, fun _ hch => ?_⟩
      cases hreq : queue.requireGenerationRecovery with
      | true => rfl
      | false => simp [hreq] at hch
  | _ =>
    simp only [SharedVideoQueue.step, popFront, popFrontWithBytes, pinGenerationRecovery]
    repeat' split
    all_goals first
      | exact ⟨h.paused, h.chain⟩
      | exact ⟨fun _ => .inl rfl, fun _ _ => rfl⟩
      | exact ⟨fun _ => .inr (.inr rfl), nofun⟩

/-- A queue that announces room or a full queue is ordinary in every respect. -/
theorem reachesOrdinary_of_roomState (h : queue.roomState ≠ .notOrdinary) : queue.ReachesOrdinary := by
  have hordi : queue.closed = false ∧ queue.paused = false ∧ queue.awaitingKeyframe = false ∧
      queue.generationChain = false ∧ queue.protectedFront = false := by
    by_contra hnot
    refine h (if_pos ?_)
    grind
  obtain ⟨hcl, hpause, hawait, hch, hp⟩ := hordi
  simp [ReachesOrdinary, hcl, hpause, hawait, hch, hp]

theorem Barred.roomState_eq (h : queue.Barred) (hreac : queue.ReachesOrdinary) :
    queue.roomState = if queue.deque.length < queue.capacity then .hasRoom else .full := by
  obtain ⟨hcl, _, _, _, hp, hawait⟩ := hreac
  have hpause : queue.paused = false := by
    have := h.paused
    grind
  have hnone : queue.generationChain = false := by
    have := h.chain hpause
    grind
  simp [roomState, hcl, hpause, hawait, hnone, hp]

theorem Barred.roomAgrees (h : queue.Barred) (item : T) (now : Nat) : queue.RoomAgrees item now := by
  by_cases hreac : queue.ReachesOrdinary
  · have hroom := h.roomState_eq hreac
    have hpush := push_of_reachesOrdinary hreac item now
    by_cases hless : queue.deque.length < queue.capacity
    · rw [if_pos hless] at hroom hpush
      exact ⟨by simp [hroom, hreac, hpush], by simp [hroom, hpush, drop], by simp [hroom]⟩
    · rw [if_neg hless] at hroom hpush
      exact ⟨by simp [hroom, hpush, drop], by simp [hroom, hreac, hpush], by simp [hroom]⟩
  · have hroom : queue.roomState = .notOrdinary := by
      by_contra hnot
      exact hreac (reachesOrdinary_of_roomState hnot)
    exact ⟨by simp [hroom, hreac], by simp [hroom, hreac], fun _ => hreac⟩

/-- **Room.** In every run without such a step, the room the queue announces is the room that a frame which is neither
keyframe nor recovery point finds: it is enqueued by the ordinary branch, or overflows it, or does not get there. -/
theorem room_state_agrees_with_push (capacity interval : Nat) (calls : List (Call T))
    (havoids : Avoids Unbars (new capacity interval) calls) (item : T) (now : Nat) :
    ((machine T capacity interval).exec calls).RoomAgrees item now := by
  have hbarr : ((machine T capacity interval).exec calls).Barred :=
    havoids.invariant (fun _ _ hc h => h.step hc) ⟨nofun, nofun⟩
  exact hbarr.roomAgrees item now

theorem room_state_agrees_recovered : ((machine Unit 2 0).exec recoveredTwice).RoomAgrees () 2 :=
  room_state_agrees_with_push 2 0 recoveredTwice (by simp [recoveredTwice, Avoids, Unbars, OverflowsProtected, step,
    beginGeneration, pinGenerationRecovery, activateGeneration, new]) () 2

/-- Once the writer has taken the protected frame, the queue is ordinary again and has room, and says that it is not
ordinary. -/
theorem room_state_stays_not_ordinary :
    let queue := (machine Unit 2 0).exec (recoveredTwice ++ [.push () ⟨true, true⟩ 2, .popFront 3])
    queue.roomState = .notOrdinary ∧ queue.ReachesOrdinary ∧ (queue.push () deltaFrame 4).2 = .enqueued 0 := by
  refine ⟨by decide, ?_, by decide⟩
  unfold ReachesOrdinary
  decide

end SharedVideoQueue
end Arcen
