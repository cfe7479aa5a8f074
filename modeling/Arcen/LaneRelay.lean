import Arcen.ClipboardChunk
import Arcen.Duration
import Arcen.LaneRegistry
import Arcen.VideoHeader

/-! The network half of a Pier whose session runs in another process (`shared/transport/src/quic/lane_relay.rs`): the
routing of video and bulk messages, the tasks that write them to their lanes, and the events those tasks send back. A step
is one call of the router, one application of an event, or what a task does up to its next await; what a lane does to a
write is the environment's choice. The clock is in nanoseconds and only moves forward. -/

namespace Arcen

def relayVideoBacklog : Nat := 16

def relayBulkBacklog : Nat := 64

/-- Capacity of the channel from the tasks to the relay. -/
def relayEventBacklog : Nat := 16

/-- Minimum spacing of keyframe requests while video resynchronises. -/
def keyframeRequestSpacing : Duration := 250 * 1000000

/-! ### Resynchronisation -/

/-- Per-monitor prediction chains the relay broke by dropping a frame. -/
structure VideoResync where
  seen : Finset UInt16
  waiting : Finset UInt16
  lastRequest : Option Nat

namespace VideoResync

def new : VideoResync := ⟨∅, ∅, none⟩

variable (resync : VideoResync)

/-- Whether a frame of `monitor` may be queued; a keyframe ends the wait. -/
def admits (monitor : UInt16) (keyframe : Bool) : VideoResync × Bool :=
  let resync := { resync with seen := insert monitor resync.seen }
  if keyframe then ({ resync with waiting := resync.waiting.erase monitor }, true)
  else (resync, decide (monitor ∉ resync.waiting))

/-- Whether a keyframe request is due now; records it when it is. -/
def requestDue (now : Nat) : VideoResync × Bool :=
  let due := resync.lastRequest.all fun last => decide (keyframeRequestSpacing ≤ now - last)
  (if due then { resync with lastRequest := some now } else resync, due)

/-- A frame was dropped: every chain this relay carries is broken. -/
def broke (monitor : UInt16) (now : Nat) : VideoResync × Bool :=
  let resync := { resync with seen := insert monitor resync.seen }
  { resync with waiting := resync.waiting ∪ resync.seen }.requestDue now

/-- A replacement lane starts every chain again. -/
def restart (now : Nat) : VideoResync :=
  { resync with waiting := resync.waiting ∪ resync.seen, lastRequest := some now }

end VideoResync

/-! ### Messages and tasks -/

inductive ClipboardTransferFailure where
  | bulkLaneFull
  | bulkLaneUnavailable
  deriving DecidableEq

/-- What the relay asks of its caller: `keyframeRequest` goes to the session, `clipboardTransferFailed` to the Deck on the
control lane. What other lanes' tasks report is passed on unread. -/
inductive LaneRelayEvent where
  | keyframeRequest
  | clipboardTransferFailed (sequence : UInt64) (reason : ClipboardTransferFailure)
  | videoEnded
  | other
  deriving DecidableEq

inductive TaskEvent where
  | relay (event : LaneRelayEvent)
  | videoReopened
  | clipboardUndelivered (sequence : UInt64)

structure BulkRecord where
  bytes : List UInt8
  clipboard : Option UInt64

/-- A video lane, by how many were opened before it. A replacement was opened because a lane or its stream had failed. -/
structure VideoLane where
  number : Nat
  replacement : Bool
  deriving DecidableEq

inductive LaneWriteOutcome where
  | queued
  | droppedFull
  | reopened (requestKeyframe : Bool)

/-- Where `video_writer` is. -/
inductive VideoWriter where
  | receiving (lane : Option VideoLane)
  | opening (frame : List UInt8)
  | sending (lane : VideoLane) (frame : List UInt8) (outcome : LaneWriteOutcome)
  | recovering (frame : List UInt8)
  | reporting (lane : VideoLane)
  | ending
  | ended

/-- Where `bulk_writer` is. -/
inductive BulkWriter where
  | receiving
  | sending (record : BulkRecord)
  | reporting (sequence : UInt64)

structure LaneRelay where
  now : Nat
  resync : VideoResync
  video : List (List UInt8)
  videoWriter : VideoWriter
  /-- Video lanes opened so far. -/
  lanes : Nat
  bulk : List BulkRecord
  bulkWriter : BulkWriter
  /-- The transfer that `bulk_writer` could not deliver. -/
  undelivered : Option UInt64
  failedClipboard : Option UInt64
  owed : List LaneRelayEvent
  events : List TaskEvent

/-- What became of a video frame: `malformed` has no header, `held` waits for a keyframe, `refused` found no room. -/
inductive VideoRouting where
  | malformed
  | held
  | refused
  | queued
  deriving DecidableEq

/-- What became of a bulk record: `abandoned` belongs to a transfer that failed, `refused` found no room. -/
inductive BulkRouting where
  | abandoned
  | refused
  | queued
  deriving DecidableEq

/-- What `video_writer` meets. `opened true` is a lane that was reopened after its stream could not be opened. -/
inductive VideoTurn where
  | receive
  | opened (replacement : Bool)
  | sent
  | oversize
  | closed
  | recovered
  | terminal
  | report
  deriving DecidableEq

/-- What `bulk_writer` meets. -/
inductive BulkTurn where
  | receive
  | sent
  | failed
  | report
  deriving DecidableEq

inductive RelayStep where
  | wait (elapsed : Duration)
  | routeVideo (frame : List UInt8)
  | routeBulk (record : SessionRecord)
  | nextEvent
  | videoWriter (turn : VideoTurn)
  | bulkWriter (turn : BulkTurn)
  /-- Another lane's task reports. -/
  | report
  deriving DecidableEq

/-- What a step did: `requested` and `noticed` say that a keyframe request or a clipboard notice was owed. -/
inductive RelayReply where
  | idle
  | video (routing : VideoRouting) (requested : Bool)
  | bulk (routing : BulkRouting) (noticed : Bool)
  | gave (event : LaneRelayEvent)
  | restarted
  | undelivered (sequence : UInt64) (noticed : Bool)
  | opened (lane : VideoLane)
  | placed (lane : VideoLane) (frame : List UInt8)
  deriving DecidableEq

namespace LaneRelay

variable (relay : LaneRelay)

def new : LaneRelay where
  now := 0
  resync := .new
  video := []
  videoWriter := .receiving none
  lanes := 0
  bulk := []
  bulkWriter := .receiving
  undelivered := none
  failedClipboard := none
  owed := []
  events := []

/-! ### Video -/

def oweKeyframeRequest : LaneRelay := { relay with owed := relay.owed ++ [.keyframeRequest] }

/-- What a new state of the chains and a due request leave behind. -/
def settleResync (result : VideoResync × Bool) (routing : VideoRouting) : LaneRelay × RelayReply :=
  let relay := { relay with resync := result.1 }
  (if result.2 then relay.oweKeyframeRequest else relay, .video routing result.2)

/-- The backlog takes a frame: it has room and its receiver lives. -/
def videoAccepts : Bool :=
  match relay.videoWriter with
  | .ended => false
  | _ => decide (relay.video.length < relayVideoBacklog)

def routeVideo (frame : List UInt8) : LaneRelay × RelayReply :=
  match decodeVideoHeader frame with
  | .error _ => (relay, .video .malformed false)
  | .ok header =>
    match relay.resync.admits header.monitorId header.isKeyframe with
    | (resync, false) => relay.settleResync (resync.requestDue relay.now) .held
    | (resync, true) =>
      if relay.videoAccepts then
        ({ relay with resync, video := relay.video ++ [frame] }, .video .queued false)
      else relay.settleResync (resync.broke header.monitorId relay.now) .refused

/-! ### Bulk -/

section Bulk

variable (offer : String → Option UInt64)

/-- The clipboard transfer a bulk record belongs to; `offer` reads the sequence of a `clipboard_data` offer. -/
def clipboardTransferSequence : SessionRecord → Option UInt64
  | .text text => offer text
  | .binary bytes =>
    match decodeClipboardChunk bytes with
    | .ok (header, _) => some header.sequence
    | .error _ => none
  | _ => none

/-- Abandons a clipboard transfer and tells the Deck. -/
def clipboardFailed (sequence : UInt64) (reason : ClipboardTransferFailure) : LaneRelay × Bool :=
  if relay.failedClipboard = some sequence then (relay, false)
  else
    ({ relay with
      failedClipboard := some sequence
      owed := relay.owed ++ [.clipboardTransferFailed sequence reason] }, true)

def routeBulk (record : SessionRecord) : LaneRelay × RelayReply :=
  let clipboard := clipboardTransferSequence offer record
  if clipboard.isSome ∧ clipboard = relay.failedClipboard then (relay, .bulk .abandoned false)
  else if relay.bulk.length < relayBulkBacklog then
    ({ relay with bulk := relay.bulk ++ [⟨record.encode, clipboard⟩] }, .bulk .queued false)
  else
    match clipboard with
    | none => (relay, .bulk .refused false)
    | some sequence =>
      let (relay, noticed) := relay.clipboardFailed sequence .bulkLaneFull
      (relay, .bulk .refused noticed)

end Bulk

/-! ### Events -/

/-- `apply`: what the caller sees of a task event. -/
def apply (event : TaskEvent) : LaneRelay × RelayReply :=
  match event with
  | .relay event => (relay, .gave event)
  | .videoReopened => ({ relay with resync := relay.resync.restart relay.now }.oweKeyframeRequest, .restarted)
  | .clipboardUndelivered sequence =>
    let (relay, noticed) := relay.clipboardFailed sequence .bulkLaneUnavailable
    (relay, .undelivered sequence noticed)

/-- One turn of `next_event`: what is owed goes first. -/
def nextEvent : LaneRelay × RelayReply :=
  match relay.owed, relay.events with
  | event :: owed, _ => ({ relay with owed }, .gave event)
  | [], event :: events => { relay with events }.apply event
  | [], [] => (relay, .idle)

/-- A task sends an event, which waits for room. -/
def report (event : TaskEvent) (reported : LaneRelay → LaneRelay) : LaneRelay :=
  if relay.events.length < relayEventBacklog then reported { relay with events := relay.events ++ [event] } else relay

/-! ### The writers -/

def openLane (replacement : Bool) (frame : List UInt8) (outcome : LaneWriteOutcome) : LaneRelay × RelayReply :=
  let lane : VideoLane := ⟨relay.lanes, replacement⟩
  ({ relay with lanes := relay.lanes + 1, videoWriter := .sending lane frame outcome }, .opened lane)

/-- `video_writer` once its frame is queued. -/
def afterSend (lane : VideoLane) : LaneWriteOutcome → VideoWriter
  | .reopened true => .reporting lane
  | _ => .receiving (some lane)

def videoTurn (turn : VideoTurn) : LaneRelay × RelayReply :=
  match relay.videoWriter, turn with
  | .receiving lane, .receive =>
    match relay.video with
    | [] => (relay, .idle)
    | frame :: video =>
      ({ relay with
        video
        videoWriter :=
          match lane with
          | none => .opening frame
          | some lane => .sending lane frame .queued }, .idle)
  | .opening frame, .opened replacement => relay.openLane replacement frame .queued
  | .sending lane frame outcome, .sent =>
    ({ relay with videoWriter := afterSend lane outcome }, .placed lane frame)
  | .sending _ frame _, .closed => ({ relay with videoWriter := .recovering frame }, .idle)
  | .recovering frame, .recovered =>
    relay.openLane true frame (.reopened (LaneRecoveryPolicy.forRole .video).requiresKeyframe)
  | .sending _ _ _, .oversize | .opening _, .terminal | .recovering _, .terminal =>
    ({ relay with videoWriter := .ending }, .idle)
  | .reporting lane, .report =>
    (relay.report .videoReopened fun relay => { relay with videoWriter := .receiving (some lane) }, .idle)
  | .ending, .report =>
    -- the receiver of the backlog goes with the task
    (relay.report (.relay .videoEnded) fun relay => { relay with videoWriter := .ended, video := [] }, .idle)
  | _, _ => (relay, .idle)

def bulkTurn (turn : BulkTurn) : LaneRelay × RelayReply :=
  match relay.bulkWriter, turn with
  | .receiving, .receive =>
    match relay.bulk with
    | [] => (relay, .idle)
    | record :: bulk =>
      if record.clipboard.isSome ∧ record.clipboard = relay.undelivered then ({ relay with bulk }, .idle)
      else ({ relay with bulk, bulkWriter := .sending record }, .idle)
  | .sending _, .sent => ({ relay with bulkWriter := .receiving }, .idle)
  | .sending record, .failed =>
    match record.clipboard with
    | none => ({ relay with bulkWriter := .receiving }, .idle)
    | some sequence =>
      ({ relay with undelivered := some sequence, bulkWriter := .reporting sequence }, .idle)
  | .reporting sequence, .report =>
    (relay.report (.clipboardUndelivered sequence) fun relay => { relay with bulkWriter := .receiving }, .idle)
  | _, _ => (relay, .idle)

def step (offer : String → Option UInt64) : RelayStep → LaneRelay × RelayReply
  | .wait elapsed => ({ relay with now := relay.now + elapsed }, .idle)
  | .routeVideo frame => relay.routeVideo frame
  | .routeBulk record => relay.routeBulk offer record
  | .nextEvent => relay.nextEvent
  | .videoWriter turn => relay.videoTurn turn
  | .bulkWriter turn => relay.bulkTurn turn
  | .report => (relay.report (.relay .other) id, .idle)

end LaneRelay

def laneRelay (offer : String → Option UInt64) : Machine LaneRelay RelayStep RelayReply :=
  ⟨.new, fun relay call => relay.step offer call⟩

end Arcen
