import Arcen.LaneRegistry
import Arcen.LengthPrefix

/-! One length-prefixed lane from its sender's queue to its receiver (`lane_runtime/writer.rs`, `lane_runtime/reader.rs`):
the bounded queue that `try_send` and `send` fill, the writer task, the stream, and the reader that keeps a partial frame
from one call of `recv_frame` to the next. A step is one locked section, one write or one read. The stream takes any
nonempty part of a write and gives any nonempty part of what is outstanding to a read. -/

namespace Arcen

/-- Frame bounds of a connection. -/
structure BoundedTransportPolicy where
  maxControlPayloadBytes : Nat
  maxMediaPayloadBytes : Nat
  maxInputPayloadBytes : Nat

def BoundedTransportPolicy.default : BoundedTransportPolicy := ⟨1024 * 1024, 64 * 1024 * 1024, 64 * 1024⟩

/-- Largest single framed message a lane accepts. -/
def laneMaxFrameBytes (role : LaneRole) (policy : BoundedTransportPolicy) : Nat :=
  match role with
  | .control | .bulkAux => policy.maxControlPayloadBytes
  | .video => policy.maxMediaPayloadBytes
  | .audioOutput => 64 * 1024
  | .inputCursor => policy.maxInputPayloadBytes
  | .microphone => 16 + max 1275 (960 * 2)

structure LaneQueueBounds where
  maxRecords : Nat
  maxBytes : Nat

/-- A lane whose records are length-prefixed. Its largest frame has a length that the prefix can spell. -/
structure MediaLane where
  role : LaneRole
  bounds : LaneQueueBounds
  policy : BoundedTransportPolicy
  framing : role.framing = .lengthPrefixedMedia
  fits : laneMaxFrameBytes role policy < 2 ^ 32

namespace MediaLane

variable (lane : MediaLane)

def maxFrame : Nat := laneMaxFrameBytes lane.role lane.policy

theorem maxFrame_lt : lane.maxFrame < 2 ^ 32 := lane.fits

/-- How much of a slice is offered to the stream at once. -/
def chunk : Nat :=
  match lane.role with
  | .video | .bulkAux => 64 * 1024
  | _ => 2 ^ 64 - 1

/-- The media lanes of the default policy, with any queue bounds. -/
def ofRole (role : LaneRole) (bounds : LaneQueueBounds) (framing : role.framing = .lengthPrefixedMedia) : MediaLane where
  role := role
  bounds := bounds
  policy := .default
  framing := framing
  fits := by cases role <;> decide

end MediaLane

/-- How the writer or the reader of the lane ended. The recovery that the registry answers a failure with is left out. -/
inductive MediaExit where
  | finished
  | failed (failure : LaneFailure)
  | cancelled (code : LaneStreamCode)
  | connectionLost

/-- The cancellation of one endpoint's lane, and whether its connection has closed. -/
structure LaneControl where
  reason : Option LaneStreamCode
  connectionClosed : Bool

namespace LaneControl

variable (control : LaneControl)

/-- The first cause wins. -/
def cancel (code : LaneStreamCode) : LaneControl := { control with reason := control.reason.or (some code) }

def codeOrFailed : LaneStreamCode := control.reason.getD .laneFailed

def cancelledExit : MediaExit :=
  if control.connectionClosed then .connectionLost else .cancelled control.codeOrFailed

/-- A lane cancelled with its attachment still hands out what a closed connection holds. -/
def drainsAfterClose : Bool := control.reason == some .attachmentEnded && control.connectionClosed

end LaneControl

/-! ### The queue -/

inductive LaneSendError where
  | full (record : List UInt8)
  | closed (record : List UInt8)
  | oversize (len max : Nat)

structure SendQueue where
  records : List (List UInt8)
  bytes : Nat
  closed : Bool
  finishing : Bool

namespace SendQueue

def new : SendQueue := ⟨[], 0, false, false⟩

variable (queue : SendQueue)

/-- `SenderInner::enqueue`. A record larger than the byte bound is taken when the queue is empty. Sizes are unbounded: the
source's sums differ only for a queue that holds `2 ^ 64` bytes. -/
def enqueue (bounds : LaneQueueBounds) (maxFrame : Nat) (control : LaneControl)
    (record : List UInt8) : SendQueue × Except LaneSendError Unit :=
  if maxFrame < record.length then (queue, .error (.oversize record.length maxFrame))
  else if queue.closed || queue.finishing || control.reason.isSome then (queue, .error (.closed record))
  else if bounds.maxRecords ≤ queue.records.length ∨
      queue.records ≠ [] ∧ bounds.maxBytes < queue.bytes + record.length then
    (queue, .error (.full record))
  else ({ queue with records := queue.records ++ [record], bytes := queue.bytes + record.length }, .ok ())

/-- `next_item` when a record waits. -/
def popFront : Option (List UInt8 × SendQueue) :=
  match queue.records with
  | [] => none
  | record :: records => some (record, { queue with records, bytes := queue.bytes - record.length })

/-- `close_queue`. -/
def close : SendQueue := { queue with records := [], bytes := 0, closed := true }

end SendQueue

/-! ### The writer -/

inductive WriteError where
  | connectionLost
  | stopped
  | closedStream

/-- Where the writer task is. In `writing` the part of `slice` before `offset` is on the stream, and `written` counts what
is there of the whole record. -/
inductive MediaWriter where
  | waiting
  | writing (slice : List UInt8) (offset : Nat) (later : List (List UInt8)) (written : Nat)
  | exiting (exit : MediaExit)
  | closing (exit : MediaExit)
  | ended (exit : MediaExit)

/-- `write_slices` at the start of a slice. -/
def startSlices : List (List UInt8) → Nat → MediaWriter
  | [], _ => .waiting
  | slice :: later, written => if slice = [] then startSlices later written else .writing slice 0 later written

def lengthPrefix (framing : LaneFraming) (record : List UInt8) : List UInt8 :=
  match framing with
  | .lengthPrefixedMedia => u32ToBeBytes ((u32TryFrom record.length).getD (UInt32.ofNat (2 ^ 32 - 1)))
  | .sessionMessages => []

/-- The failure `fail_write` reports. -/
def writeFailure (written : Nat) : WriteError → Option LaneFailure
  | .connectionLost => none
  | .stopped => some (if 0 < written then .partialFrame else .peerReset)
  | .closedStream => some (if 0 < written then .partialFrame else .writeFailed)

/-! ### The stream -/

/-- How a stream ended: `truncated` is an end before everything was written. -/
inductive StreamEnd where
  | finished
  | reset
  | truncated
  deriving DecidableEq

/-- What was written to the stream, and how much of it was read. -/
structure LaneStream where
  sent : List UInt8
  consumed : Nat
  ending : Option StreamEnd

namespace LaneStream

variable (stream : LaneStream)

def outstanding : List UInt8 := stream.sent.drop stream.consumed

/-- The half is finished or reset once. -/
def endWith (ending : StreamEnd) : LaneStream := { stream with ending := stream.ending.or (some ending) }

/-- The stream ends early, `left` bytes after what was read. -/
def truncate (left : Nat) : LaneStream :=
  match stream.ending with
  | none => { stream with sent := stream.sent.take (stream.consumed + left), ending := some .truncated }
  | some _ => stream

end LaneStream

/-! ### The partial frame -/

inductive ReadFail where
  | cancelled
  | finished (midFrame : Bool)
  | reset
  | lost
  | oversize

/-- Bytes of the frame being read, kept across calls. -/
structure PartialFrame where
  length : List UInt8
  lengthFilled : Nat
  body : Option (List UInt8)
  bodyFilled : Nat

namespace PartialFrame

def new : PartialFrame := ⟨[0, 0, 0, 0], 0, none, 0⟩

def started (frame : PartialFrame) : Bool := decide (0 < frame.lengthFilled)

/-- Whether the stream's end would be inside a frame. -/
def midFrame (frame : PartialFrame) : Bool := if frame.lengthFilled < 4 then frame.started else true

/-- A buffer after a read into it from an offset on. -/
def fillAt (buffer : List UInt8) (offset : Nat) (bytes : List UInt8) : List UInt8 :=
  buffer.take offset ++ bytes ++ buffer.drop (offset + bytes.length)

variable (frame : PartialFrame)

/-- The size of the buffer that the next read fills. -/
def room : Nat :=
  if frame.lengthFilled < 4 then 4 - frame.lengthFilled else (frame.body.getD []).length - frame.bodyFilled

/-- Stores what a read gave. -/
def store (bytes : List UInt8) : PartialFrame :=
  if frame.lengthFilled < 4 then
    { frame with
      length := fillAt frame.length frame.lengthFilled bytes
      lengthFilled := frame.lengthFilled + bytes.length }
  else
    { frame with
      body := frame.body.map fun body => fillAt body frame.bodyFilled bytes
      bodyFilled := frame.bodyFilled + bytes.length }

/-- The end of `fill`: the frame, once its body is filled. -/
def finishBody (body : List UInt8) : PartialFrame × Option (Except ReadFail (List UInt8)) :=
  if frame.bodyFilled < body.length then (frame, none) else (new, some (.ok body))

/-- What `fill` does between two reads. -/
def advance (maxFrame : Nat) : PartialFrame × Option (Except ReadFail (List UInt8)) :=
  if frame.lengthFilled < 4 then (frame, none)
  else
    match frame.body with
    | some body => frame.finishBody body
    | none =>
      let length := (u32FromBeBytes frame.length).toNat
      if maxFrame < length then (frame, some (.error .oversize))
      else
        let body : List UInt8 := List.replicate length 0
        { frame with body := some body, bodyFilled := 0 }.finishBody body

end PartialFrame

/-! ### The lane -/

structure MediaLink where
  queue : SendQueue
  /-- The records of `send` calls that wait for room. -/
  pending : List (List UInt8)
  writer : MediaWriter
  sender : LaneControl
  stream : LaneStream
  receiver : LaneControl
  /-- The receive half has not been stopped. -/
  recvOpen : Bool
  /-- The call that is polled has passed the cancellation and reads what is left. -/
  draining : Bool
  frame : PartialFrame
  exit : Option MediaExit

/-- What a turn of the writer meets: `count` is how much the stream takes, at least one byte and at most what is offered. -/
inductive WriterTurn where
  | proceed (count : Nat)
  | cancelled
  | failed (error : WriteError)

/-- What a poll of `recv_frame` meets: `count` is how much the stream gives, at least one byte and at most what fits. -/
inductive ReaderTurn where
  | read (count : Nat)
  | cancelled
  | failed (lost : Bool)
  | drop

inductive MediaStep where
  | trySend (record : List UInt8)
  /-- `send` before it waits. -/
  | send (record : List UInt8)
  /-- A waiting `send` tries again. -/
  | retry (index : Nat)
  /-- A waiting `send` is dropped, or sees the cancellation. -/
  | abandon (index : Nat)
  | finish
  | writer (turn : WriterTurn)
  | reader (turn : ReaderTurn)
  | cancelSender (code : LaneStreamCode)
  | cancelReceiver (code : LaneStreamCode)
  | closeSender
  | closeReceiver
  /-- The stream ends `left` bytes after what was read. -/
  | truncate (left : Nat)

inductive MediaReply where
  | sent (record : List UInt8) (result : Except LaneSendError Unit)
  | received (result : Except MediaExit (List UInt8))

namespace MediaLink

variable (lane : MediaLane) (link : MediaLink)

def new : MediaLink where
  queue := .new
  pending := []
  writer := .waiting
  sender := ⟨none, false⟩
  stream := ⟨[], 0, none⟩
  receiver := ⟨none, false⟩
  recvOpen := true
  draining := false
  frame := .new
  exit := none

/-! ### The senders -/

def trySend (record : List UInt8) : MediaLink × Option MediaReply :=
  let (queue, result) := link.queue.enqueue lane.bounds lane.maxFrame link.sender record
  ({ link with queue }, some (.sent record result))

/-- One turn of `LaneSender::send`: a full queue makes the call wait. -/
def sendTurn (record : List UInt8) : MediaLink × Option MediaReply :=
  let (queue, result) := link.queue.enqueue lane.bounds lane.maxFrame link.sender record
  match result with
  | .error (.full returned) => ({ link with queue, pending := link.pending ++ [returned] }, none)
  | _ => ({ link with queue }, some (.sent record result))

def retry (index : Nat) : MediaLink × Option MediaReply :=
  match link.pending[index]? with
  | none => (link, none)
  | some record => { link with pending := link.pending.eraseIdx index }.sendTurn lane record

/-! ### The writer's turn -/

def failWrite (written : Nat) (error : WriteError) : MediaLink :=
  match writeFailure written error with
  | none => { link with writer := .exiting .connectionLost }
  | some failure =>
    { link with
      sender := link.sender.cancel .laneFailed
      stream := if failure.requiresReset then link.stream.endWith .reset else link.stream
      writer := .exiting (.failed failure) }

/-- `next_item` and the start of its write. -/
def nextItem : MediaLink :=
  match link.queue.popFront with
  | some (record, queue) =>
    { link with queue, writer := startSlices [lengthPrefix lane.role.framing record, record] 0 }
  | none => if link.queue.finishing then { link with writer := .exiting .finished } else link

/-- One write of `write_slices`. -/
def writeSlice (slice : List UInt8) (offset : Nat) (later : List (List UInt8)) (written count : Nat) : MediaLink :=
  let stop := min slice.length (offset + lane.chunk)
  let count := max 1 (min count (stop - offset))
  { link with
    stream := { link.stream with sent := link.stream.sent ++ (slice.drop offset).take count }
    writer :=
      if offset + count < slice.length then .writing slice (offset + count) later (written + count)
      else startSlices later (written + count) }

/-- `run_writer` after the loop. -/
def endStream (exit : MediaExit) : MediaLink :=
  match exit with
  | .finished => { link with stream := link.stream.endWith .finished, writer := .closing .finished }
  | .cancelled _ =>
    { link with
      stream := link.stream.endWith .reset
      writer := .closing (if link.sender.connectionClosed then .connectionLost else exit) }
  | exit => { link with writer := .closing exit }

def proceed (count : Nat) : MediaLink :=
  match link.writer with
  | .waiting => link.nextItem lane
  | .writing slice offset later written =>
    if link.stream.ending.isSome then link.failWrite written .closedStream
    else link.writeSlice lane slice offset later written count
  | .exiting exit => link.endStream exit
  | .closing exit =>
    -- the half resets when it is dropped, unless it was finished or reset before
    { link with queue := link.queue.close, stream := link.stream.endWith .reset, writer := .ended exit }
  | .ended _ => link

/-- The writer notices the cancellation, between two records or in a write. -/
def noticeCancelled : MediaLink :=
  match link.writer with
  | .waiting | .writing _ _ _ _ =>
    if link.sender.reason.isSome then { link with writer := .exiting (.cancelled link.sender.codeOrFailed) } else link
  | _ => link

def writerStep (turn : WriterTurn) : MediaLink :=
  match turn with
  | .proceed count => link.proceed lane count
  | .cancelled => link.noticeCancelled
  | .failed error =>
    match link.writer with
    | .writing _ _ _ written => link.failWrite written error
    | _ => link

/-! ### The reader's turn -/

def cancelledExit : MediaLink × MediaExit := ({ link with recvOpen := false }, link.receiver.cancelledExit)

def failInner (failure : LaneFailure) : MediaLink × MediaExit :=
  ({ link with receiver := link.receiver.cancel .laneFailed, recvOpen := false }, .failed failure)

def settle (result : Except ReadFail (List UInt8)) : MediaLink × Option MediaReply :=
  match result with
  | .ok frame => ({ link with draining := false }, some (.received (.ok frame)))
  | .error fail =>
    let (link, exit) :=
      match fail with
      | .cancelled => link.cancelledExit
      | .lost => (link, .connectionLost)
      | .finished midFrame => link.failInner (if midFrame then .partialFrame else .peerFinished)
      | .oversize => link.failInner .oversize
      | .reset => link.failInner .peerReset
    ({ link with draining := false, exit := some exit }, some (.received (.error exit)))

/-- What `fill` does with the bytes of a read. -/
def takeBytes (bytes : List UInt8) : MediaLink × Option MediaReply :=
  let stream := { link.stream with consumed := link.stream.consumed + bytes.length }
  match (link.frame.store bytes).advance lane.maxFrame with
  | (frame, none) => ({ link with stream, frame }, none)
  | (frame, some result) => { link with stream, frame }.settle result

/-- One read of `fill`. -/
def readStep (count : Nat) : MediaLink × Option MediaReply :=
  match link.stream.outstanding with
  | [] =>
    match link.stream.ending with
    | none => (link, none)
    | some .reset => link.settle (.error .reset)
    | some _ => link.settle (.error (.finished link.frame.midFrame))
  | outstanding => link.takeBytes lane (outstanding.take (max 1 (min count link.frame.room)))

/-- A poll of `recv_frame`: of the call that is pending, or of a new one. -/
def pollStep (turn : ReaderTurn) : MediaLink × Option MediaReply :=
  match link.exit with
  | some exit => (link, some (.received (.error exit)))
  | none =>
    if !link.recvOpen then
      let (link, exit) := link.cancelledExit
      ({ link with exit := some exit }, some (.received (.error exit)))
    else
      match turn with
      | .read count => link.readStep lane count
      | .cancelled =>
        if link.receiver.reason.isSome && !link.draining then
          if link.receiver.drainsAfterClose then ({ link with draining := true }, none)
          else link.settle (.error .cancelled)
        else (link, none)
      | .failed lost => link.settle (.error (if lost then .lost else .reset))
      | .drop => (link, none)

def readerStep (turn : ReaderTurn) : MediaLink × Option MediaReply :=
  match turn with
  | .drop => ({ link with draining := false }, none)
  | turn => link.pollStep lane turn

def step : MediaStep → MediaLink × Option MediaReply
  | .trySend record => link.trySend lane record
  | .send record => link.sendTurn lane record
  | .retry index => link.retry lane index
  | .abandon index => ({ link with pending := link.pending.eraseIdx index }, none)
  | .finish => ({ link with queue := { link.queue with finishing := true } }, none)
  | .writer turn => (link.writerStep lane turn, none)
  | .reader turn => link.readerStep lane turn
  | .cancelSender code => ({ link with sender := link.sender.cancel code }, none)
  | .cancelReceiver code => ({ link with receiver := link.receiver.cancel code }, none)
  | .closeSender => ({ link with sender := { link.sender with connectionClosed := true } }, none)
  | .closeReceiver => ({ link with receiver := { link.receiver with connectionClosed := true } }, none)
  | .truncate left => ({ link with stream := link.stream.truncate left }, none)

end MediaLink

def mediaLane (lane : MediaLane) : Machine MediaLink MediaStep (Option MediaReply) := ⟨.new, MediaLink.step lane⟩

def acceptedOf : Option MediaReply → List (List UInt8)
  | some (.sent record (.ok ())) => [record]
  | _ => []

/-- What a call of `recv_frame` returned. -/
def resultOf : Option MediaReply → List (Except MediaExit (List UInt8))
  | some (.received result) => [result]
  | _ => []

/-- The frame that a call of `recv_frame` returned. -/
def frameOf : Option MediaReply → List (List UInt8)
  | some (.received (.ok frame)) => [frame]
  | _ => []

variable (log : List (MediaStep × Option MediaReply))

def acceptedRecords : List (List UInt8) := log.flatMap (acceptedOf ·.2)

/-- What the calls of `recv_frame` returned, oldest first. -/
def receivedResults : List (Except MediaExit (List UInt8)) := log.flatMap (resultOf ·.2)

/-- The frames among them. -/
def receivedFrames : List (List UInt8) := log.flatMap (frameOf ·.2)

end Arcen
