import Arcen.Machine
import Arcen.ClipboardFormats

/-! The bridge between one desktop selection and the client. It decides what to read, what to ignore, what to offer
and what to serve; an adapter performs the reads and writes and reports back. -/

namespace Arcen

def maxConcurrentHostWrites : Nat := 2

/-- What the adapter must do after an owner change: abandon a read, start a read of a name under a token. -/
structure OwnerDecision where
  cancel : Option UInt64
  read : Option (UInt64 × String)

inductive ReadOutcome where
  | complete (bytes : List UInt8)
  | overflow
  | timedOut
  | failed

structure HostItem where
  sequence : UInt64
  kind : ClipboardKind
  bytes : List UInt8
  deriving DecidableEq

inductive TransferDecision where
  | write (serial : UInt32) (bytes : List UInt8)
  | refuse (serial : UInt32) (reason : String)

structure BridgeStats where
  sent : UInt64
  received : UInt64
  refused : UInt64
  tooLarge : UInt64
  malformed : UInt64
  unsupported : UInt64
  timedOut : UInt64
  failed : UInt64
  own : UInt64
  baseline : UInt64
  served : UInt64
  refusedTransfers : UInt64

structure RemoteSelection where
  kind : ClipboardKind
  bytes : List UInt8

structure ReadInFlight where
  token : UInt64
  format : HostFormat

structure SelectionBridge where
  negotiation : ClipboardNegotiation
  nextSequence : Option UInt64
  nextToken : UInt64
  read : Option ReadInFlight
  remote : Option RemoteSelection
  writes : Finset UInt32
  stats : BridgeStats

namespace SelectionBridge

def new (negotiation : ClipboardNegotiation) : SelectionBridge where
  negotiation := negotiation
  nextSequence := some 1
  nextToken := 1
  read := none
  remote := none
  writes := ∅
  stats := ⟨0, 0, 0, 0, 0, 0, 0, 0, 0, 0, 0, 0⟩

/-- `checked_add(1)` on a sequence. -/
def checkedSucc (sequence : UInt64) : Option UInt64 := if sequence + 1 = 0 then none else some (sequence + 1)

def count (stats : BridgeStats) : ClipboardPayloadError → BridgeStats
  | .refused (.tooLarge _ _) => { stats with tooLarge := stats.tooLarge + 1 }
  | .refused _ => { stats with refused := stats.refused + 1 }
  | .malformed => { stats with malformed := stats.malformed + 1 }
  | .empty => { stats with malformed := stats.malformed + 1 }

def ownerChanged (bridge : SelectionBridge) (names : List String) (ours baseline : Bool) :
    SelectionBridge × OwnerDecision :=
  let cancel := bridge.read.map ReadInFlight.token
  if ours then
    ({ bridge with read := none, stats := { bridge.stats with own := bridge.stats.own + 1 } }, ⟨cancel, none⟩)
  else if baseline then
    ({ bridge with
        read := none, remote := none
        stats := { bridge.stats with baseline := bridge.stats.baseline + 1 } }, ⟨cancel, none⟩)
  else
    match chooseHostFormat (bridge.negotiation.allows .hostToClient) names with
    | none =>
      ({ bridge with
          read := none, remote := none
          stats := { bridge.stats with unsupported := bridge.stats.unsupported + 1 } }, ⟨cancel, none⟩)
    | some (name, format) =>
      ({ bridge with
          read := some ⟨bridge.nextToken, format⟩, remote := none
          nextToken := max (bridge.nextToken + 1) 1 }, ⟨cancel, some (bridge.nextToken, name)⟩)

section Decoder

-- The PNG decoder.
variable (validatePng : List UInt8 → Nat → Bool)

variable (bridge : SelectionBridge)

/-- A complete read: the bytes are decoded, checked against the negotiation and numbered. -/
def deliver (format : HostFormat) (bytes : List UInt8) : SelectionBridge × Option HostItem :=
  match decodeHostPayload validatePng bridge.negotiation.policy format bytes with
  | .error error => ({ bridge with stats := count bridge.stats error }, none)
  | .ok (kind, bytes) =>
    if !bridge.negotiation.allows .hostToClient kind then
      ({ bridge with stats := { bridge.stats with refused := bridge.stats.refused + 1 } }, none)
    else
      match bridge.nextSequence with
      | none => (bridge, none)
      | some sequence =>
        ({ bridge with
            nextSequence := checkedSucc sequence
            stats := { bridge.stats with sent := bridge.stats.sent + 1 } }, some ⟨sequence, kind, bytes⟩)

def readFinished (token : UInt64) (outcome : ReadOutcome) : SelectionBridge × Option HostItem :=
  match bridge.read with
  | none => (bridge, none)
  | some read =>
    if read.token = token then
      let taken := { bridge with read := none }
      match outcome with
      | .complete bytes => taken.deliver validatePng read.format bytes
      | .overflow => ({ taken with stats := { taken.stats with tooLarge := taken.stats.tooLarge + 1 } }, none)
      | .timedOut => ({ taken with stats := { taken.stats with timedOut := taken.stats.timedOut + 1 } }, none)
      | .failed => ({ taken with stats := { taken.stats with failed := taken.stats.failed + 1 } }, none)
    else (bridge, none)

def checkRemote (negotiation : ClipboardNegotiation) (kind : ClipboardKind) (bytes : List UInt8) :
    Except ClipboardPayloadError Unit :=
  if negotiation.allows .clientToHost kind then
    validatePayload validatePng negotiation.policy .clientToHost kind bytes
  else .error (.refused .contentNotAllowed)

def remoteItem (bridge : SelectionBridge) (kind : ClipboardKind) (bytes : List UInt8) :
    SelectionBridge × Except ClipboardPayloadError (List String) :=
  match checkRemote validatePng bridge.negotiation kind bytes with
  | .error error => ({ bridge with stats := count bridge.stats error }, .error error)
  | .ok () =>
    ({ bridge with
        remote := some ⟨kind, bytes⟩
        stats := { bridge.stats with received := bridge.stats.received + 1 } }, .ok (offeredNames kind bytes))

end Decoder

variable (bridge : SelectionBridge)

def decideTransfer (name : String) (serial : UInt32) : TransferDecision :=
  match bridge.remote with
  | none => .refuse serial "not_owner"
  | some remote =>
    if maxConcurrentHostWrites ≤ bridge.writes.card then .refuse serial "busy"
    else
      match renderForHost name remote.kind remote.bytes with
      | some bytes => .write serial bytes
      | none => .refuse serial "unsupported_name"

def transferRequested (name : String) (serial : UInt32) : SelectionBridge × TransferDecision :=
  let decision := bridge.decideTransfer name serial
  match decision with
  | .write serial _ => ({ bridge with writes := insert serial bridge.writes }, decision)
  | .refuse _ _ =>
    ({ bridge with stats := { bridge.stats with refusedTransfers := bridge.stats.refusedTransfers + 1 } }, decision)

def transferFinished (serial : UInt32) (ok : Bool) : SelectionBridge :=
  if serial ∈ bridge.writes then
    { bridge with
      writes := bridge.writes.erase serial
      stats := if ok then { bridge.stats with served := bridge.stats.served + 1 }
        else { bridge.stats with refusedTransfers := bridge.stats.refusedTransfers + 1 } }
  else bridge

def clear : SelectionBridge × Option UInt64 :=
  ({ bridge with remote := none, writes := ∅, read := none }, bridge.read.map ReadInFlight.token)

/-- What the adapter and the client call. -/
inductive Call where
  | ownerChanged (names : List String) (ours baseline : Bool)
  | readFinished (token : UInt64) (outcome : ReadOutcome)
  | remoteItem (kind : ClipboardKind) (bytes : List UInt8)
  | transferRequested (name : String) (serial : UInt32)
  | transferFinished (serial : UInt32) (ok : Bool)
  | clear

inductive Reply where
  | owner (decision : OwnerDecision)
  | item (item : Option HostItem)
  | names (result : Except ClipboardPayloadError (List String))
  | transfer (decision : TransferDecision)
  | finished
  | cleared (read : Option UInt64)

variable (validatePng : List UInt8 → Nat → Bool)

def step (bridge : SelectionBridge) : Call → SelectionBridge × Reply
  | .ownerChanged names ours baseline =>
    ((bridge.ownerChanged names ours baseline).1, .owner (bridge.ownerChanged names ours baseline).2)
  | .readFinished token outcome =>
    ((bridge.readFinished validatePng token outcome).1, .item (bridge.readFinished validatePng token outcome).2)
  | .remoteItem kind bytes =>
    ((bridge.remoteItem validatePng kind bytes).1, .names (bridge.remoteItem validatePng kind bytes).2)
  | .transferRequested name serial =>
    ((bridge.transferRequested name serial).1, .transfer (bridge.transferRequested name serial).2)
  | .transferFinished serial ok => (bridge.transferFinished serial ok, .finished)
  | .clear => (bridge.clear.1, .cleared bridge.clear.2)

def machine (negotiation : ClipboardNegotiation) : Machine SelectionBridge Call Reply where
  init := new negotiation
  step := step validatePng

end SelectionBridge
end Arcen
