import Arcen.Machine

/-! The outbound video queue: bounded buffering, recovery of the prediction chain after loss, and generation barriers
for topology changes. Instants and durations are counts of nanoseconds, and the writer's clock is an argument. -/

namespace Arcen

structure FrameClassification where
  keyframe : Bool
  recoveryPoint : Bool
  deriving DecidableEq

def saturatingAddU64 (a b : Nat) : Nat := min (a + b) (2 ^ 64 - 1)

/-- `Duration::saturating_add`, in nanoseconds. -/
def saturatingAddDuration (a b : Nat) : Nat := min (a + b) ((2 ^ 64 - 1) * 10 ^ 9 + 999999999)

inductive VideoQueuePush (T : Type) where
  | enqueued (cleared : Nat)
  | dropped (count : Nat) (recoveryStarted idrRequest : Bool)
  | closed (item : T)
  deriving DecidableEq

structure PinGenerationRecovery where
  accepted : Bool
  dropped : Nat
  idrRequest : Bool
  requestedAt : Option Nat

structure QueuedVideo (T : Type) where
  item : T
  enqueuedAt : Nat
  keyframe : Bool

structure SharedVideoQueue (T : Type) where
  capacity : Nat
  keyframeRequestMinInterval : Nat
  deque : List (QueuedVideo T)
  generationRecovery : Option (QueuedVideo T)
  generationChain : Bool
  requireGenerationRecovery : Bool
  protectedFront : Bool
  awaitingKeyframe : Bool
  keyframeRequestPending : Bool
  dropsSinceKeyframe : Nat
  lastKeyframeRequestAt : Option Nat
  paused : Bool
  closed : Bool
  framesSent : Nat
  framesDropped : Nat
  bytesSent : Nat
  keyframeBytesSent : Nat
  waitTotal : Nat
  waitMax : Nat
  waitFrames : Nat

namespace SharedVideoQueue

variable {T : Type}

def new (capacity keyframeRequestMinInterval : Nat) : SharedVideoQueue T where
  capacity := capacity
  keyframeRequestMinInterval := keyframeRequestMinInterval
  deque := []
  generationRecovery := none
  generationChain := false
  requireGenerationRecovery := false
  protectedFront := false
  awaitingKeyframe := false
  keyframeRequestPending := false
  dropsSinceKeyframe := 0
  lastKeyframeRequestAt := none
  paused := false
  closed := false
  framesSent := 0
  framesDropped := 0
  bytesSent := 0
  keyframeBytesSent := 0
  waitTotal := 0
  waitMax := 0
  waitFrames := 0

variable (queue : SharedVideoQueue T)

def recordDrop (count : Nat) : SharedVideoQueue T := { queue with
    dropsSinceKeyframe := saturatingAddU64 queue.dropsSinceKeyframe count
    framesDropped := saturatingAddU64 queue.framesDropped count }

def keyframeRequestDueAt (now : Nat) : Bool := queue.keyframeRequestPending && match queue.lastKeyframeRequestAt with
    | none => true
    | some last => queue.keyframeRequestMinInterval ≤ now - last

def keyframeRequestDue (now : Nat) : SharedVideoQueue T × Bool :=
  let queue := { queue with keyframeRequestPending := true }
  (queue, queue.keyframeRequestDueAt now)

/-- The end of every dropping branch: the loss is counted and a keyframe may be due. -/
def drop (count : Nat) (recoveryStarted : Bool) (now : Nat) : SharedVideoQueue T × VideoQueuePush T :=
  let (queue, idrRequest) := (queue.recordDrop count).keyframeRequestDue now
  (queue, .dropped count recoveryStarted idrRequest)

def push (item : T) (classification : FrameClassification) (now : Nat) : SharedVideoQueue T × VideoQueuePush T :=
  let queued : QueuedVideo T := ⟨item, now, classification.keyframe || classification.recoveryPoint⟩
  if queue.closed then (queue, .closed item)
  else if queue.generationChain && queue.requireGenerationRecovery then
    if classification.recoveryPoint && decide (queue.deque.length < queue.capacity) then
      ({ queue with
          deque := queue.deque ++ [queued]
          requireGenerationRecovery := false
          awaitingKeyframe := false
          keyframeRequestPending := false
          dropsSinceKeyframe := 0
          lastKeyframeRequestAt := none
          generationChain := if !queue.paused then false else queue.generationChain }, .enqueued 0)
    else queue.drop 1 false now
  else if queue.paused && queue.generationChain then
    let generationCapacity := queue.capacity - queue.generationRecovery.isSome.toNat
    if queue.deque.length < generationCapacity then ({ queue with deque := queue.deque ++ [queued] }, .enqueued 0)
    else
      { queue with
        deque := []
        requireGenerationRecovery := true
        awaitingKeyframe := true
        keyframeRequestPending := true }.drop (queue.deque.length + 1) true now
  else if queue.paused && queue.generationRecovery.isSome then (queue.recordDrop 1, .dropped 1 false false)
  else if queue.protectedFront then
    if queue.deque.length < queue.capacity then ({ queue with deque := queue.deque ++ [queued] }, .enqueued 0)
    else
      let count := queue.deque.tail.length + 1
      let kept := { queue with
        deque := queue.deque.head?.toList
        generationChain := true
        requireGenerationRecovery := !classification.recoveryPoint
        awaitingKeyframe := !classification.recoveryPoint
        keyframeRequestPending := !classification.recoveryPoint }
      if classification.recoveryPoint then
        ({ kept with
            deque := kept.deque ++ [queued]
            dropsSinceKeyframe := 0
            keyframeRequestPending := false
            lastKeyframeRequestAt := none
            framesDropped := saturatingAddU64 kept.framesDropped count }, .enqueued count)
      else kept.drop count true now
  else if classification.keyframe then
    ({ queue with
        deque := [queued]
        awaitingKeyframe := false
        keyframeRequestPending := false
        dropsSinceKeyframe := 0
        lastKeyframeRequestAt := none }, .enqueued queue.deque.length)
  else if queue.awaitingKeyframe then { queue with keyframeRequestPending := true }.drop 1 false now
  else if queue.deque.length < queue.capacity then ({ queue with deque := queue.deque ++ [queued] }, .enqueued 0)
  else
    { queue with
      deque := []
      awaitingKeyframe := true
      keyframeRequestPending := true }.drop (queue.deque.length + 1) true now

def pinGenerationRecovery (item : T) (now : Nat) : SharedVideoQueue T × PinGenerationRecovery :=
  if queue.closed || !queue.paused || queue.generationRecovery.isSome then (queue, ⟨false, 0, false, none⟩)
  else
    ({ queue with
        deque := []
        generationRecovery := some ⟨item, now, true⟩
        generationChain := true
        requireGenerationRecovery := true
        awaitingKeyframe := true
        keyframeRequestPending := true
        dropsSinceKeyframe := 0
        framesDropped := saturatingAddU64 queue.framesDropped queue.deque.length },
      ⟨true, queue.deque.length, true, none⟩)

/-- `now` is the instant the writer takes the item, which only the statistics see. -/
def popFrontWithBytes (bytes : T → Nat) (now : Nat) : SharedVideoQueue T × Option T :=
  if queue.paused then (queue, none)
  else
    match queue.deque with
    | [] => (queue, none)
    | queued :: deque =>
      let wait := now - queued.enqueuedAt
      let size := bytes queued.item
      ({ queue with
          deque := deque
          protectedFront := false
          waitTotal := saturatingAddDuration queue.waitTotal wait
          waitMax := max queue.waitMax wait
          waitFrames := saturatingAddU64 queue.waitFrames 1
          framesSent := saturatingAddU64 queue.framesSent 1
          bytesSent := saturatingAddU64 queue.bytesSent size
          keyframeBytesSent :=
            if queued.keyframe then saturatingAddU64 queue.keyframeBytesSent size else queue.keyframeBytesSent },
        some queued.item)

def popFront (now : Nat) : SharedVideoQueue T × Option T := queue.popFrontWithBytes (fun _ => 0) now

def close : SharedVideoQueue T := { queue with closed := true }

def beginGeneration : SharedVideoQueue T := { queue with
    deque := []
    generationRecovery := none
    generationChain := false
    requireGenerationRecovery := false
    protectedFront := false
    awaitingKeyframe := true
    dropsSinceKeyframe := 0
    lastKeyframeRequestAt := none
    paused := true
    keyframeRequestPending := true
    framesDropped :=
      saturatingAddU64 queue.framesDropped (queue.deque.length + queue.generationRecovery.isSome.toNat) }

def activateGeneration : SharedVideoQueue T × Bool :=
  match queue.generationRecovery with
  | none => (queue, false)
  | some recovery =>
    ({ queue with
        generationRecovery := none
        deque := recovery :: queue.deque
        paused := false
        protectedFront := true
        generationChain := if !queue.requireGenerationRecovery then false else queue.generationChain }, true)

/-- The calls of a Pier on its queue. -/
inductive Call (T : Type) where
  | push (item : T) (classification : FrameClassification) (now : Nat)
  | popFront (now : Nat)
  | pinGenerationRecovery (item : T) (now : Nat)
  | beginGeneration
  | activateGeneration
  | close
  deriving DecidableEq

inductive Reply (T : Type) where
  | pushed (result : VideoQueuePush T)
  | popped (item : Option T)
  | pinned (result : PinGenerationRecovery)
  | activated (result : Bool)
  | done

def step : Call T → SharedVideoQueue T × Reply T
  | .push item classification now => ((queue.push item classification now).1, .pushed (queue.push item classification now).2)
  | .popFront now => ((queue.popFront now).1, .popped (queue.popFront now).2)
  | .pinGenerationRecovery item now =>
    ((queue.pinGenerationRecovery item now).1, .pinned (queue.pinGenerationRecovery item now).2)
  | .beginGeneration => (queue.beginGeneration, .done)
  | .activateGeneration => (queue.activateGeneration.1, .activated queue.activateGeneration.2)
  | .close => (queue.close, .done)

def machine (T : Type) (capacity keyframeRequestMinInterval : Nat) :
    Machine (SharedVideoQueue T) (Call T) (Reply T) where
  init := new capacity keyframeRequestMinInterval
  step := step

end SharedVideoQueue
end Arcen
