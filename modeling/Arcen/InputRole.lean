import Arcen.LaneRegistry

/-! The Pier's input/cursor role as three processes over the locked lane state: the dispatcher admits the Deck's lanes
(`lane_runtime/connection.rs`), the writer of each lane may report its failure (`lane_runtime/writer.rs`), and the input
reader follows the role from lane to lane (`input_reader` over `PeerLaneReader::next`, `session_lanes.rs`). A step of a
process is one locked section or one event. What a locked section cancels is cancelled after the lock was released, so
those cancellations are steps of their own. -/

namespace Arcen

/-- How a lane's reader ended. -/
inductive LaneExit where
  | failed (failure : LaneFailure) (action : LaneRecoveryAction)
  | cancelled (code : LaneStreamCode)
  | connectionLost
  deriving DecidableEq

/-- `Effects::cancel`: what a locked section leaves to be cancelled. -/
abbrev Cancels := List (NonZeroU32 × LaneStreamCode)

/-- A lane that waits for its owner. -/
structure LaneParts where
  laneGeneration : NonZeroU32
  superseded : Option SupersededLane

/-- What a frame of the input lane is: input for the agent, a ping or pong, or anything else. -/
inductive FrameKind where
  | input
  | ignored
  | malformed
  deriving DecidableEq

/-- What the stream gives to a reader that is not cancelled. -/
inductive LaneRead where
  | frame (kind : FrameKind)
  | failed (failure : LaneFailure)
  | lost

/-- What the stream makes of the next record of a writer that is not cancelled. -/
inductive LaneWrite where
  | written
  | failed (failure : LaneFailure)

inductive WriterAt where
  | absent
  | running (healthy : Bool)
  | marking
  | failing (failure : LaneFailure)
  | reporting (failure : LaneFailure)
  | applying (cancels : Cancels)
  | ended
  deriving DecidableEq

/-- Where the input reader is. `owner` tells a failure found in a frame from one of the stream. -/
inductive ReaderAt where
  | awaiting
  | opened (generation : NonZeroU32)
  | reading (generation : NonZeroU32) (healthy : Bool)
  | marking (generation : NonZeroU32) (kind : FrameKind)
  | handling (generation : NonZeroU32) (kind : FrameKind)
  | failing (generation : NonZeroU32) (failure : LaneFailure) (owner : Bool)
  | reporting (generation : NonZeroU32) (failure : LaneFailure) (owner : Bool)
  | settling (generation : NonZeroU32) (failure : LaneFailure) (action : LaneRecoveryAction) (cancels : Cancels)
      (owner : Bool)
  | exited (generation : NonZeroU32) (exit : LaneExit)
  | asking (generation : NonZeroU32)
  | following (exit : LaneExit)
  | lost
  | terminal
  | done
  deriving DecidableEq

/-- The lane state of the role and the three processes. The writers are indexed by the lane they write. -/
structure InputRole where
  registry : LaneRegistry
  live : Option NonZeroU32
  delivered : Option LaneParts
  control : NonZeroU32 → Option LaneStreamCode
  dispatcher : Cancels
  writer : NonZeroU32 → WriterAt
  reader : ReaderAt
  owedRelease : Bool

/-- What a step shows to the outside: the agent's channel gets `record` and `release`. -/
inductive LaneEvent where
  | admitted (generation : NonZeroU32)
  | writerClosed (generation : NonZeroU32)
  | readerClosed (generation : NonZeroU32)
  | took (generation : NonZeroU32)
  | looked (generation : NonZeroU32)
  | record (generation : NonZeroU32)
  | release
  deriving DecidableEq

/-- Whose turn it is, and what the outside world does in it. -/
inductive RoleStep where
  | dispatcher (shape : LaneShape) (preface : LanePreface)
  | writer (generation : NonZeroU32) (outcome : LaneWrite)
  | reader (outcome : LaneRead)

/-- A failure that closed the lane and that the peer is to repair. -/
def LaneRecoveryAction.isReopen : LaneRecoveryAction → Bool
  | .reopen .. => true
  | _ => false

def LaneRecoveryAction.closing (action : LaneRecoveryAction) (event : LaneEvent) : Option LaneEvent :=
  if action.isReopen then some event else none

/-- Whether the owner of a failed lane is told to release held input. -/
def LaneRecoveryAction.owesRelease : LaneRecoveryAction → Bool
  | .reopen _ _ _ _ _ releaseHeldInput => releaseHeldInput
  | _ => false

namespace InputRole

variable (role : InputRole)

/-- `LaneControl::cancel`: the first cause wins. -/
def cancel (generation : NonZeroU32) (code : LaneStreamCode) : InputRole :=
  { role with control := Function.update role.control generation ((role.control generation).or (some code)) }

/-! ### The locked lane state -/

/-- `end_locked` for this role. -/
def endLocked : InputRole × Cancels :=
  ({ role with live := none, delivered := none }, (role.live.map (·, LaneStreamCode.attachmentEnded)).toList ++
      (role.delivered.map (·.laneGeneration, LaneStreamCode.attachmentEnded)).toList)

/-- `Shared::report_failure`. -/
def reportFailure (generation : NonZeroU32) (failure : LaneFailure) : InputRole × LaneRecoveryAction × Cancels :=
  let (registry, action) := role.registry.reportFailure .inputCursor generation failure
  let role := { role with registry }
  match action with
  | .endAttachment _ _ _ => (role.endLocked.1, action, role.endLocked.2)
  | .disable _ _ =>
    ({ role with live := none }, action, (role.live.map (·, LaneStreamCode.disabled)).toList)
  | .reopen _ failed _ _ _ _ =>
    if role.live = some failed then ({ role with live := none }, action, [(failed, .laneFailed)])
    else (role, action, [])
  | .superseded => (role, action, [])

/-- `install_locked`: the steps a lane owes are those of the oldest one its owner held. -/
def installLocked (admission : LaneAdmission) : InputRole :=
  let code := if admission.superseded.isSome then LaneStreamCode.superseded else .laneFailed
  let superseded :=
    match role.delivered with
    | some stale => stale.superseded.or admission.superseded
    | none => admission.superseded
  { role with
    live := some admission.laneGeneration
    delivered := some ⟨admission.laneGeneration, superseded⟩
    dispatcher := (role.live.map (·, code)).toList }

/-- `Shared::admit`. A Pier holds no lane before authorization. -/
def admitLane (shape : LaneShape) (preface : LanePreface) : InputRole × Option LaneEvent :=
  let (registry, result) := role.registry.admitPeer shape preface
  let role := { role with registry }
  match result with
  | .ok (.admitted admission) =>
    if admission.role = .inputCursor then
      (role.installLocked admission, some (.admitted admission.laneGeneration))
    else (role, none)
  | _ => (role, none)

/-! ### The processes -/

def dispatcherStep (shape : LaneShape) (preface : LanePreface) : InputRole × Option LaneEvent :=
  match role.dispatcher with
  | (generation, code) :: rest => ({ role.cancel generation code with dispatcher := rest }, none)
  | [] => role.admitLane shape preface

variable (generation : NonZeroU32)

def setWriter (at' : WriterAt) : InputRole := { role with writer := Function.update role.writer generation at' }

/-- A turn of `write_loop` and `fail_write`. The lane is cancelled before its failure is reported. -/
def writerStep (outcome : LaneWrite) : InputRole × Option LaneEvent :=
  match role.writer generation with
  | .absent => (role, none)
  | .running healthy =>
    if (role.control generation).isSome then (role.setWriter generation .ended, none)
    else
      match outcome with
      | .written => (if healthy then role else role.setWriter generation .marking, none)
      | .failed failure => (role.setWriter generation (.failing failure), none)
  | .marking =>
    ({ role with registry := role.registry.markHealthy .inputCursor generation }.setWriter generation (.running true),
      none)
  | .failing failure => ((role.cancel generation .laneFailed).setWriter generation (.reporting failure), none)
  | .reporting failure =>
    let (role, action, cancels) := role.reportFailure generation failure
    (role.setWriter generation (.applying cancels), action.closing (.writerClosed generation))
  | .applying ((other, code) :: rest) => ((role.cancel other code).setWriter generation (.applying rest), none)
  | .applying [] => (role.setWriter generation .ended, none)
  | .ended => (role, none)

/-- `next` after `follow`: steps that are owed are applied at once. -/
def afterFollow : InputRole := { role with reader := if role.owedRelease then .lost else .awaiting }

/-- `LaneRecoveryStep::AwaitPeer`, for a role the peer reopens. -/
def awaitPeer (reopenedBy : LaneEndpoint) (releaseHeldInput : Bool) : InputRole :=
  if reopenedBy ≠ role.registry.localEndpoint then
    { role with owedRelease := role.owedRelease || releaseHeldInput }.afterFollow
  else { role with reader := .terminal }

def followLaneExit : LaneExit → InputRole
  | .connectionLost => { role with reader := .terminal }
  | .cancelled _ => if role.registry.ended.isSome then { role with reader := .terminal } else role.afterFollow
  | .failed _ .superseded => role.afterFollow
  | .failed _ (.reopen _ _ reopenedBy _ _ releaseHeldInput) => role.awaitPeer reopenedBy releaseHeldInput
  | .failed _ (.disable _ _) => { role with reader := .terminal }
  | .failed _ (.endAttachment _ _ _) => { role with reader := .terminal }

/-- `next` with a lane that was delivered, and the split that starts its writer. -/
def takeLane (parts : LaneParts) : InputRole :=
  let owed := role.owedRelease || (parts.superseded.map (·.releaseHeldInput)).getD false
  { role with
    delivered := none
    owedRelease := false
    writer := Function.update role.writer parts.laneGeneration (.running false)
    reader := if owed then .opened parts.laneGeneration else .reading parts.laneGeneration false }

/-- A turn of `input_reader` and the reader of the lane under it. -/
def readerStep (outcome : LaneRead) : InputRole × Option LaneEvent :=
  match role.reader with
  | .awaiting =>
    match role.delivered with
    | some parts => (role.takeLane parts, some (.took parts.laneGeneration))
    | none => (if role.registry.ended.isSome then { role with reader := .terminal } else role, none)
  | .opened generation => ({ role with reader := .reading generation false }, some .release)
  | .reading generation healthy =>
    match role.control generation with
    | some code => ({ role with reader := .exited generation (.cancelled code) }, none)
    | none =>
      match outcome with
      | .frame kind =>
        ({ role with reader := if healthy then .handling generation kind else .marking generation kind }, none)
      | .failed failure => ({ role with reader := .failing generation failure false }, none)
      | .lost => ({ role with reader := .exited generation .connectionLost }, none)
  | .marking generation kind =>
    ({ role with
        registry := role.registry.markHealthy .inputCursor generation, reader := .handling generation kind }, none)
  | .handling generation .input => ({ role with reader := .reading generation true }, some (.record generation))
  | .handling generation .ignored => ({ role with reader := .reading generation true }, none)
  | .handling generation .malformed => ({ role with reader := .failing generation .malformedFrame true }, none)
  | .failing generation failure owner =>
    ({ role.cancel generation .laneFailed with reader := .reporting generation failure owner }, none)
  | .reporting generation failure owner =>
    let (role, action, cancels) := role.reportFailure generation failure
    ({ role with reader := .settling generation failure action cancels owner },
      action.closing (.readerClosed generation))
  | .settling generation failure action ((other, code) :: rest) owner =>
    ({ role.cancel other code with reader := .settling generation failure action rest owner }, none)
  | .settling generation failure action [] owner =>
    ({ role with
        owedRelease := role.owedRelease || (owner && action.owesRelease)
        reader := .exited generation (.failed failure action) }, none)
  | .exited generation exit =>
    if exit = .cancelled .laneFailed ∧ role.registry.ended = none then ({ role with reader := .asking generation }, none)
    else ({ role with reader := .following exit }, none)
  | .asking generation =>
    (match role.registry.state .inputCursor with
      | .recovering _ _ =>
        role.awaitPeer LaneRole.inputCursor.opener (LaneRecoveryPolicy.forRole .inputCursor).releaseHeldInput
      | _ => { role with reader := .following (.cancelled .laneFailed) }, some (.looked generation))
  | .following exit => (role.followLaneExit exit, none)
  | .lost => ({ role with owedRelease := false, reader := .awaiting }, some .release)
  | .terminal => ({ role with reader := .done }, some .release)
  | .done => (role, none)

def step : RoleStep → InputRole × Option LaneEvent
  | .dispatcher shape preface => role.dispatcherStep shape preface
  | .writer generation outcome => role.writerStep generation outcome
  | .reader outcome => role.readerStep outcome

end InputRole

/-- All runs of the role from a registry in which it had no lane yet. -/
def inputRole (registry : LaneRegistry) : Machine InputRole RoleStep (Option LaneEvent) where
  init := ⟨registry.setSlot .inputCursor .new, none, none, fun _ => none, [], fun _ => .absent, .awaiting, false⟩
  step := InputRole.step

/-- What a run showed, oldest first. -/
def laneEvents (log : List (RoleStep × Option LaneEvent)) : List LaneEvent := log.filterMap (·.2)

end Arcen
