import Arcen.ExternalDamage
import Arcen.History

/-! Capture leases (`shared/media/src/video/capture_lease.rs`). The producer's callback pushes buffer tokens into a
bounded latest-wins mailbox, the worker leases the newest one, and every buffer goes back to the producer: as a
result of `push` or `drain`, or through the releaser. A locked section is one step; what the same call does once the
lock is released, the calls of the releaser and the returned list, is the reply of that step. -/

namespace Arcen

def maxCaptureDamageRects : Nat := 256

/-- Damage reported with a frame. -/
inductive DamageEvidence where
  | unknown
  | full
  | regions (rects : List PixelRect)

/-- The damage of two frames, the older one first. -/
def DamageEvidence.union : DamageEvidence → DamageEvidence → DamageEvidence
  | .regions older, .regions newer =>
    if maxCaptureDamageRects < older.length + newer.length then .unknown else .regions (older ++ newer)
  | .full, _ => .full
  | _, .full => .full
  | _, _ => .unknown

/-- A validated description; the mailbox reads nothing of it but the damage. -/
structure ValidatedCaptureSurface where
  damage : DamageEvidence

structure QueuedCapture (T : Type) where
  token : T
  surface : ValidatedCaptureSurface
  damage : DamageEvidence
  superseded : Nat

def saturatingU32 (n : Nat) : Nat := min n (2 ^ 32 - 1)

/-- A frame takes over the damage of an older one that nobody read. -/
def QueuedCapture.supersede {T : Type} (newer older : QueuedCapture T) : QueuedCapture T := { newer with
    damage := older.damage.union newer.damage
    superseded := saturatingU32 (newer.superseded + saturatingU32 (older.superseded + 1)) }

/-- The mailbox, its queue with the oldest frame first, and the count of buffers not given back. -/
structure CaptureMailbox (T : Type) where
  queue : List (QueuedCapture T)
  closed : Bool
  carried : Option DamageEvidence
  capacity : Nat
  outstanding : Int

/-- What a `take_latest` finds. -/
inductive TakeOutcome (T : Type) where
  | leased (frame : QueuedCapture T) (released : List T)
  | noFrame
  | closed

/-- The damage waiting for the next frame, with that of one more buffer. -/
def carryInto (carried : Option DamageEvidence) (damage : DamageEvidence) : DamageEvidence :=
  match carried with
  | some carried => carried.union damage
  | none => damage

/-- Drops frames from the front until the queue fits, each one superseded by the next; with the dropped tokens. -/
def dropOldest {T : Type} (capacity : Nat) : QueuedCapture T → List (QueuedCapture T) → List (QueuedCapture T) × List T
  | oldest, [] => if capacity < 1 then ([], [oldest.token]) else ([oldest], [])
  | oldest, next :: newer =>
    if capacity < newer.length + 2 then
      let (queue, release) := dropOldest capacity (next.supersede oldest) newer
      (queue, oldest.token :: release)
    else (oldest :: next :: newer, [])

def dropToCapacity {T : Type} (capacity : Nat) : List (QueuedCapture T) → List (QueuedCapture T) × List T
  | [] => ([], [])
  | oldest :: newer => dropOldest capacity oldest newer

namespace CaptureMailbox

variable {T : Type}

def new (capacity : Nat) : CaptureMailbox T := ⟨[], false, none, max capacity 1, 0⟩

variable (mailbox : CaptureMailbox T)

/-- Queues a frame; the tokens to requeue are those it superseded, or its own when the mailbox is closed. -/
def push (token : T) (surface : ValidatedCaptureSurface) : CaptureMailbox T × List T :=
  if mailbox.closed then (mailbox, [token])
  else
    let frame : QueuedCapture T := ⟨token, surface, carryInto mailbox.carried surface.damage, 0⟩
    let (queue, release) := dropToCapacity mailbox.capacity (mailbox.queue ++ [frame])
    ({ mailbox with queue, carried := none, outstanding := mailbox.outstanding + 1 - release.length }, release)

/-- Leases the newest frame. The older ones are superseded and go back through the releaser. -/
def takeLatest : CaptureMailbox T × TakeOutcome T :=
  match mailbox.queue.reverse with
  | [] => (mailbox, if mailbox.closed then .closed else .noFrame)
  | newest :: older =>
    ({ mailbox with queue := [], outstanding := mailbox.outstanding - older.length },
      .leased (older.foldl .supersede newest) (older.map (·.token)))

def carryDamage (damage : DamageEvidence) : CaptureMailbox T :=
  { mailbox with carried := some (carryInto mailbox.carried damage) }

def close : CaptureMailbox T := { mailbox with closed := true }

/-- Takes every queued frame out; the damage of all of them waits for the next frame. -/
def drain : CaptureMailbox T × List T :=
  let drained := mailbox.queue.foldl (fun drained frame => some (carryInto drained frame.damage)) none
  ({ mailbox with
      queue := []
      carried := match drained with
        | some drained => some (carryInto mailbox.carried drained)
        | none => mailbox.carried
      outstanding := mailbox.outstanding - mailbox.queue.length }, mailbox.queue.map (·.token))

end CaptureMailbox

/-! ### Mailbox and leases -/

structure CaptureLeases (T : Type) where
  mailbox : CaptureMailbox T
  leases : List (QueuedCapture T)

inductive MailboxCall (T : Type) where
  | push (token : T) (surface : ValidatedCaptureSurface)
  | takeLatest
  | dropLease (index : Nat)
  | carryDamage (damage : DamageEvidence)
  | drain
  | close

/-- What a call gives back; a push also says whether it queued its frame. -/
inductive MailboxReply (T : Type) where
  | pushed (queued : Bool) (requeue : List T)
  | taken (outcome : TakeOutcome T)
  | dropped (released : Option T)
  | drained (tokens : List T)
  | done

namespace CaptureLeases

variable {T : Type}

variable (state : CaptureLeases T)

/-- Dropping a lease ends it and gives its buffer to the releaser. -/
def dropLease (index : Nat) : CaptureLeases T × Option T :=
  match state.leases[index]? with
  | none => (state, none)
  | some frame =>
    ({ mailbox := { state.mailbox with outstanding := state.mailbox.outstanding - 1 }
       leases := state.leases.eraseIdx index }, some frame.token)

def step : MailboxCall T → CaptureLeases T × MailboxReply T
  | .push token surface =>
    let (mailbox, requeue) := state.mailbox.push token surface
    ({ state with mailbox }, .pushed (!state.mailbox.closed) requeue)
  | .takeLatest =>
    match state.mailbox.takeLatest with
    | (mailbox, .leased frame released) => (⟨mailbox, state.leases ++ [frame]⟩, .taken (.leased frame released))
    | (mailbox, outcome) => ({ state with mailbox }, .taken outcome)
  | .dropLease index =>
    let (state, released) := state.dropLease index
    (state, .dropped released)
  | .carryDamage damage => ({ state with mailbox := state.mailbox.carryDamage damage }, .done)
  | .drain =>
    let (mailbox, tokens) := state.mailbox.drain
    ({ state with mailbox }, .drained tokens)
  | .close => ({ state with mailbox := state.mailbox.close }, .done)

def queuedTokens : List T := state.mailbox.queue.map (·.token)

def heldTokens : List T := state.leases.map (·.token)

end CaptureLeases

def captureMailbox (T : Type) (capacity : Nat) : Machine (CaptureLeases T) (MailboxCall T) (MailboxReply T) where
  init := ⟨.new capacity, []⟩
  step := CaptureLeases.step

end Arcen
