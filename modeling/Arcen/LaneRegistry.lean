import Arcen.LanePreface
import Arcen.Machine

/-! The per-attachment lane registry (`shared/transport/src/lanes.rs`): which streams are admitted, held
or refused, and what a lane failure does. Every method of the source that changes the registry is a
function from the registry to the new registry and the result; `laneRegistry` is the machine of all
their calls. -/

namespace Arcen

/-- What happens when a lane exhausts its recovery attempts. -/
inductive LaneExhaustion where
  | disableVisibly
  | endAttachment

structure LaneRecoveryPolicy where
  maxConsecutiveFailures : Nat
  exhausted : LaneExhaustion
  releaseHeldInput : Bool
  requiresKeyframe : Bool

def LaneRecoveryPolicy.forRole : LaneRole → LaneRecoveryPolicy
  | .control => ⟨0, .endAttachment, true, false⟩
  | .video => ⟨3, .endAttachment, false, true⟩
  | .audioOutput | .microphone => ⟨3, .disableVisibly, false, false⟩
  | .inputCursor => ⟨3, .endAttachment, true, false⟩
  | .bulkAux => ⟨2, .disableVisibly, false, false⟩

inductive LaneFailure where
  | peerReset
  | peerFinished
  | writeFailed
  | partialFrame
  | oversize
  | malformedFrame
  deriving DecidableEq

/-- Whether the local endpoint must reset (not finish) the stream. -/
def LaneFailure.requiresReset : LaneFailure → Bool
  | .writeFailed | .partialFrame | .oversize | .malformedFrame => true
  | .peerReset | .peerFinished => false

inductive LaneDisableReason where
  | recoveryExhausted
  deriving DecidableEq

inductive LaneEndReason where
  | controlFailed
  | laneExhausted (role : LaneRole)
  | closed
  deriving DecidableEq

inductive LaneState where
  | absent
  | opened (generation : NonZeroU32)
  | recovering (failed : NonZeroU32) (failure : LaneFailure)
  | disabled (reason : LaneDisableReason)
  deriving DecidableEq

/-- One role's slot. `pending` is the one peer lane held before authorization (Deck only). -/
structure LaneSlot where
  state : LaneState
  highest : Option NonZeroU32
  consecutiveFailures : Nat
  pending : Option LanePreface

def LaneSlot.new : LaneSlot := ⟨.absent, none, 0, none⟩

inductive Phase where
  | awaitingControl
  | unauthorized
  | authorized (attachment : LaneAttachment) (roles : LaneRoleSet)
  | ended (reason : LaneEndReason)
  deriving DecidableEq

/-- Why a stream was refused before any payload reached a worker. -/
inductive LaneRefusal where
  | attachmentEnded
  | controlNotFirst (role : LaneRole)
  | preAuthorization (role : LaneRole)
  | wrongShape (role : LaneRole) (expected : LaneShape)
  | wrongDirection (role : LaneRole) (opener : LaneEndpoint)
  | roleNotGranted (role : LaneRole)
  | staleAttachment (presented current : NonZeroU64)
  | attachmentMismatch (role : LaneRole)
  | duplicateLane (role : LaneRole)
  | staleLaneGeneration (role : LaneRole) (presented highest : NonZeroU32)
  | laneDisabled (role : LaneRole)

/-- A lane replaced by a newer generation of its role, and the steps its owner must apply. -/
structure SupersededLane where
  generation : NonZeroU32
  resetStream : Bool
  releaseHeldInput : Bool
  requestKeyframe : Bool

def SupersededLane.forRole (role : LaneRole) (generation : NonZeroU32) : SupersededLane where
  generation := generation
  resetStream := true
  releaseHeldInput := (LaneRecoveryPolicy.forRole role).releaseHeldInput
  requestKeyframe := (LaneRecoveryPolicy.forRole role).requiresKeyframe

structure LaneAdmission where
  role : LaneRole
  laneGeneration : NonZeroU32
  attachmentGeneration : Option NonZeroU64
  superseded : Option SupersededLane

inductive PeerLaneAdmission where
  | admitted (admission : LaneAdmission)
  | pendingAuthorization (role : LaneRole) (laneGeneration : NonZeroU32) (superseded : Option SupersededLane)

/-- How `authorize` resolved one held lane. -/
structure PendingResolution where
  role : LaneRole
  laneGeneration : NonZeroU32
  outcome : Except LaneRefusal LaneAdmission

/-- Misuse of the registry by its owner. -/
inductive LaneRegistryError where
  | controlNotOpen
  | alreadyAuthorized
  | attachmentEnded
  | notLocalOpener (role : LaneRole)

/-- Why a locally opened lane could not be prepared. -/
inductive LaneOpenError where
  | registry (error : LaneRegistryError)
  | refused (refusal : LaneRefusal)

/-- Why a payload for a role cannot be sent now. -/
inductive LaneUnavailable where
  | wrongDirection (role : LaneRole)
  | notOpen (role : LaneRole) (state : LaneState)
  | attachmentEnded

/-- What the owner must do after a lane failure. -/
inductive LaneRecoveryAction where
  | superseded
  | reopen (role : LaneRole) (failed : NonZeroU32) (reopenedBy : LaneEndpoint)
      (resetStream requestKeyframe releaseHeldInput : Bool)
  | disable (role : LaneRole) (resetStream : Bool)
  | endAttachment (role : LaneRole) (resetStream : Bool) (reason : LaneEndReason)
  deriving DecidableEq

/-- Lane ownership state for one attachment on one connection. -/
structure LaneRegistry where
  localEndpoint : LaneEndpoint
  phase : Phase
  lanes : LaneRole → LaneSlot

namespace LaneRegistry

def new (localEndpoint : LaneEndpoint) : LaneRegistry := ⟨localEndpoint, .awaitingControl, fun _ => .new⟩

variable (reg : LaneRegistry)

/-- Why the attachment ended, if it did. -/
def ended : Option LaneEndReason :=
  match reg.phase with
  | .ended reason => some reason
  | _ => none

def state (role : LaneRole) : LaneState := (reg.lanes role).state

def pending (role : LaneRole) : Option NonZeroU32 := (reg.lanes role).pending.map (·.laneGeneration)

variable (role : LaneRole)

def setSlot (slot : LaneSlot) : LaneRegistry := { reg with lanes := Function.update reg.lanes role slot }

def unauthorizedRefusal : LaneRefusal :=
  match reg.phase with
  | .awaitingControl => .controlNotFirst role
  | .ended _ => .attachmentEnded
  | .unauthorized | .authorized .. => .preAuthorization role

def nextGeneration : NonZeroU32 := ((reg.lanes role).highest.bind NonZeroU32.checkedSucc).getD NonZeroU32.minValue

/-- The first half of `register`: phase, shape and attachment. Gives the attachment generation. -/
def checkAttachment (shape : LaneShape) (preface : LanePreface) : Except LaneRefusal (Option NonZeroU64) :=
  let role := preface.role
  if reg.ended.isSome then .error .attachmentEnded
  else if shape ≠ role.shape then .error (.wrongShape role role.shape)
  else if role.requiresAttachment then
    match reg.phase with
    | .authorized attachment roles =>
      if roles.contains role = false then .error (.roleNotGranted role)
      else
        match preface.attachment with
        | none => .error (.attachmentMismatch role)
        | some presented =>
          if presented.generation < attachment.generation then
            .error (.staleAttachment presented.generation attachment.generation)
          else if presented.generation ≠ attachment.generation ∨
              presented.binding.bytes ≠ attachment.binding.bytes then
            .error (.attachmentMismatch role)
          else .ok (some attachment.generation)
    | _ => .error (reg.unauthorizedRefusal role)
  else
    match reg.phase with
    | .awaitingControl => .ok none
    | _ => .error (.duplicateLane role)

end LaneRegistry

/-- The staleness test of `register`: the generation must be newer than any this role had. -/
def LaneSlot.checkHighest (slot : LaneSlot) (role : LaneRole) (presented : NonZeroU32)
    (superseded : Option SupersededLane) : Except LaneRefusal (Option SupersededLane) :=
  match slot.highest with
  | some highest =>
    if presented ≤ highest then .error (.staleLaneGeneration role presented highest) else .ok superseded
  | none => .ok superseded

/-- The second half of `register`: the role's slot must take a strictly newer generation. Gives the
lane it replaces. -/
def LaneSlot.checkGeneration (slot : LaneSlot) (role : LaneRole) (presented : NonZeroU32)
    (allowSupersede : Bool) : Except LaneRefusal (Option SupersededLane) :=
  match slot.state with
  | .disabled _ => .error (.laneDisabled role)
  | .opened current =>
    if allowSupersede = false ∨ presented = current then .error (.duplicateLane role)
    else slot.checkHighest role presented (some (.forRole role current))
  | .absent | .recovering .. => slot.checkHighest role presented none

namespace LaneRegistry

variable (reg : LaneRegistry)

/-- The writes at the end of `register`. -/
def openLane (role : LaneRole) (generation : NonZeroU32) : LaneRegistry :=
  let slot := reg.lanes role
  let reg := reg.setSlot role { slot with highest := some generation, state := .opened generation }
  if role.requiresAttachment then reg else { reg with phase := .unauthorized }

def register (shape : LaneShape) (preface : LanePreface) (allowSupersede : Bool) :
    LaneRegistry × Except LaneRefusal LaneAdmission :=
  let role := preface.role
  match reg.checkAttachment shape preface with
  | .error refusal => (reg, .error refusal)
  | .ok attachmentGeneration =>
    let presented := preface.laneGeneration
    match (reg.lanes role).checkGeneration role presented allowSupersede with
    | .error refusal => (reg, .error refusal)
    | .ok superseded =>
      (reg.openLane role presented, .ok ⟨role, presented, attachmentGeneration, superseded⟩)

def openLocal (role : LaneRole) : LaneRegistry × Except LaneOpenError LanePreface :=
  let generation := reg.nextGeneration role
  let openWith (preface : LanePreface) : LaneRegistry × Except LaneOpenError LanePreface :=
    match reg.register role.shape preface false with
    | (reg, .error refusal) => (reg, .error (.refused refusal))
    | (reg, .ok _) => (reg, .ok preface)
  if role.opener ≠ reg.localEndpoint then (reg, .error (.registry (.notLocalOpener role)))
  else if role.requiresAttachment then
    match reg.phase with
    | .authorized attachment _ =>
      match LanePreface.bound role attachment generation with
      | .error _ => (reg, .error (.refused (.attachmentMismatch role)))
      | .ok preface => openWith preface
    | _ => (reg, .error (.refused (reg.unauthorizedRefusal role)))
  else openWith (.control generation)

/-- Keeps the newest lane of a role until authorization. -/
def holdPending (shape : LaneShape) (preface : LanePreface) : LaneRegistry × Except LaneRefusal PeerLaneAdmission :=
  let role := preface.role
  let presented := preface.laneGeneration
  let slot := reg.lanes role
  let hold (superseded : Option SupersededLane) : LaneRegistry × Except LaneRefusal PeerLaneAdmission :=
    (reg.setSlot role { slot with pending := some preface }, .ok (.pendingAuthorization role presented superseded))
  if shape ≠ role.shape then (reg, .error (.wrongShape role role.shape))
  else
    match slot.pending with
    | some held =>
      if presented ≤ held.laneGeneration then
        (reg, .error (.staleLaneGeneration role presented held.laneGeneration))
      else hold (some (.forRole role held.laneGeneration))
    | none => hold none

/-- Admits, holds or refuses a stream the peer opened, from its shape and its decoded preface. -/
def admitPeer (shape : LaneShape) (preface : LanePreface) : LaneRegistry × Except LaneRefusal PeerLaneAdmission :=
  let role := preface.role
  if role.opener ≠ reg.localEndpoint.peer then (reg, .error (.wrongDirection role role.opener))
  else if reg.phase = .unauthorized ∧ reg.localEndpoint = .deck ∧ role.requiresAttachment then
    reg.holdPending shape preface
  else
    match reg.register shape preface true with
    | (reg, .error refusal) => (reg, .error refusal)
    | (reg, .ok admission) => (reg, .ok (.admitted admission))

/-- The loop of `authorize` over the roles: every held lane is validated in full. -/
def resolvePending : LaneRegistry → List LaneRole → LaneRegistry × List PendingResolution
  | reg, [] => (reg, [])
  | reg, role :: roles =>
    match (reg.lanes role).pending with
    | none => resolvePending reg roles
    | some held =>
      let taken := reg.setSlot role { reg.lanes role with pending := none }
      let (reg, outcome) := taken.register role.shape held true
      let (reg, resolutions) := resolvePending reg roles
      (reg, ⟨role, held.laneGeneration, outcome⟩ :: resolutions)

/-- Records successful authentication on the control lane and resolves the held lanes. -/
def authorize (attachment : LaneAttachment) (roles : LaneRoleSet) :
    LaneRegistry × Except LaneRegistryError (List PendingResolution) :=
  match reg.phase with
  | .awaitingControl => (reg, .error .controlNotOpen)
  | .authorized .. => (reg, .error .alreadyAuthorized)
  | .ended _ => (reg, .error .attachmentEnded)
  | .unauthorized =>
    let reg := { reg with phase := .authorized attachment (roles.withRole .control) }
    let (reg, resolutions) := reg.resolvePending LaneRole.all
    (reg, .ok resolutions)

def dropPending : LaneRegistry := { reg with lanes := fun role => { reg.lanes role with pending := none } }

/-- Whether the local endpoint may send a payload for `role` now, and on which lane generation. -/
def checkSend (role : LaneRole) : Except LaneUnavailable NonZeroU32 :=
  if reg.ended.isSome then .error .attachmentEnded
  else if role.maySend reg.localEndpoint = false then .error (.wrongDirection role)
  else
    match reg.state role with
    | .opened generation => .ok generation
    | state => .error (.notOpen role state)

/-- Records that a lane delivered successfully, clearing its consecutive-failure count. -/
def markHealthy (role : LaneRole) (generation : NonZeroU32) : LaneRegistry :=
  let slot := reg.lanes role
  if slot.state = .opened generation then reg.setSlot role { slot with consecutiveFailures := 0 } else reg

/-- Ends the attachment. Held lanes are dropped. -/
def endAttachment (reason : LaneEndReason) : LaneRegistry := dropPending { reg with phase := .ended reason }

def reportFailure (role : LaneRole) (generation : NonZeroU32) (failure : LaneFailure) :
    LaneRegistry × LaneRecoveryAction :=
  let policy := LaneRecoveryPolicy.forRole role
  let resetStream := failure.requiresReset
  let slot := reg.lanes role
  if reg.ended.isSome then (reg, .superseded)
  else if slot.state ≠ .opened generation then (reg, .superseded)
  else
    let failures := min (slot.consecutiveFailures + 1) 255
    let recovering := { slot with consecutiveFailures := failures, state := .recovering generation failure }
    if role = .control then
      ((reg.setSlot role recovering).endAttachment .controlFailed, .endAttachment role resetStream .controlFailed)
    else if policy.maxConsecutiveFailures < failures then
      match policy.exhausted with
      | .disableVisibly =>
        (reg.setSlot role { slot with consecutiveFailures := failures, state := .disabled .recoveryExhausted },
          .disable role resetStream)
      | .endAttachment =>
        ((reg.setSlot role recovering).endAttachment (.laneExhausted role),
          .endAttachment role resetStream (.laneExhausted role))
    else
      (reg.setSlot role recovering,
        .reopen role generation role.opener resetStream policy.requiresKeyframe policy.releaseHeldInput)

/-! ### The machine -/

inductive Call where
  | openLocal (role : LaneRole)
  | admitPeer (shape : LaneShape) (preface : LanePreface)
  | authorize (attachment : LaneAttachment) (roles : LaneRoleSet)
  | markHealthy (role : LaneRole) (generation : NonZeroU32)
  | reportFailure (role : LaneRole) (generation : NonZeroU32) (failure : LaneFailure)
  | endAttachment (reason : LaneEndReason)

inductive Reply where
  | openLocal (result : Except LaneOpenError LanePreface)
  | admitPeer (result : Except LaneRefusal PeerLaneAdmission)
  | authorize (result : Except LaneRegistryError (List PendingResolution))
  | markHealthy
  | reportFailure (action : LaneRecoveryAction)
  | endAttachment

def step (reg : LaneRegistry) : Call → LaneRegistry × Reply
  | .openLocal role => ((reg.openLocal role).1, .openLocal (reg.openLocal role).2)
  | .admitPeer shape preface => ((reg.admitPeer shape preface).1, .admitPeer (reg.admitPeer shape preface).2)
  | .authorize attachment roles =>
    ((reg.authorize attachment roles).1, .authorize (reg.authorize attachment roles).2)
  | .markHealthy role generation => (reg.markHealthy role generation, .markHealthy)
  | .reportFailure role generation failure =>
    ((reg.reportFailure role generation failure).1, .reportFailure (reg.reportFailure role generation failure).2)
  | .endAttachment reason => (reg.endAttachment reason, .endAttachment)

end LaneRegistry

variable (localEndpoint : LaneEndpoint)

/-- All runs of a fresh registry. -/
def laneRegistry : Machine LaneRegistry LaneRegistry.Call LaneRegistry.Reply where
  init := .new localEndpoint
  step := LaneRegistry.step

@[simp] theorem laneRegistry_step (reg : LaneRegistry) (call : LaneRegistry.Call) :
    (laneRegistry localEndpoint).step reg call = reg.step call := rfl

end Arcen
