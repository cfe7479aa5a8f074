import Arcen.RegionInputState

/-! The wire messages of region input (`protocol/region_input.rs`) and the conversion between them and the events of
the state (`input/region_wire.rs`). Decoding a message that passes its own validation gives back the event it encodes. -/

namespace Arcen

inductive PenToolMsg where
  | tip
  | eraser

inductive ScrollUnitMsg where
  | line
  | point

inductive ScrollPhaseMsg where
  | none
  | began
  | changed
  | ended
  | cancelled

def domainPenTool : PenToolMsg → PenTool
  | .tip => .tip
  | .eraser => .eraser

def wirePenTool : PenTool → PenToolMsg
  | .tip => .tip
  | .eraser => .eraser

def domainScrollUnit : ScrollUnitMsg → ScrollUnit
  | .line => .line
  | .point => .point

def wireScrollUnit : ScrollUnit → ScrollUnitMsg
  | .line => .line
  | .point => .point

def domainScrollPhase : ScrollPhaseMsg → ScrollPhase
  | .none => .none
  | .began => .began
  | .changed => .changed
  | .ended => .ended
  | .cancelled => .cancelled

def wireScrollPhase : ScrollPhase → ScrollPhaseMsg
  | .none => .none
  | .began => .began
  | .changed => .changed
  | .ended => .ended
  | .cancelled => .cancelled

@[simp] theorem domainPenTool_wire (tool : PenTool) : domainPenTool (wirePenTool tool) = tool := by
  cases tool <;> rfl

@[simp] theorem domainScrollUnit_wire (unit : ScrollUnit) : domainScrollUnit (wireScrollUnit unit) = unit := by
  cases unit <;> rfl

@[simp] theorem domainScrollPhase_wire (phase : ScrollPhase) : domainScrollPhase (wireScrollPhase phase) = phase := by
  cases phase <;> rfl

/-! ### Messages -/

inductive RegionInputValidationError where
  | zeroRegionGeneration
  | zeroRegionId
  | zeroSequence
  | zeroButton
  | penFieldOutOfRange (field : String)

structure RegionInputPositionMsg where
  regionGeneration : UInt64
  regionId : UInt32
  logicalX : Int
  logicalY : Int

def RegionInputPositionMsg.validate (position : RegionInputPositionMsg) : Except RegionInputValidationError Unit := do
  refuseWhen (position.regionGeneration = 0) .zeroRegionGeneration
  refuseWhen (position.regionId = 0) .zeroRegionId

structure RegionInputMetadataMsg where
  sequence : UInt64
  timestampNs : UInt64
  coalescable : Bool

def RegionInputMetadataMsg.validate (metadata : RegionInputMetadataMsg) : Except RegionInputValidationError Unit :=
  refuseWhen (metadata.sequence = 0) .zeroSequence

def regionPointerMotion : String := "region_pointer_motion"
def regionPointerButton : String := "region_pointer_button"
def regionPointerScroll : String := "region_pointer_scroll"
def regionPointerEnter : String := "region_pointer_enter"
def regionPointerLeave : String := "region_pointer_leave"
def regionPenEvent : String := "region_pen_event"

/-- The fields of the enter, leave and motion messages. -/
structure RegionPointerMsg where
  msgType : String
  position : RegionInputPositionMsg
  metadata : RegionInputMetadataMsg

def RegionPointerMsg.validate (message : RegionPointerMsg) : Except RegionInputValidationError Unit := do
  message.position.validate
  message.metadata.validate

structure RegionPointerButtonMsg where
  msgType : String
  position : RegionInputPositionMsg
  button : UInt8
  pressed : Bool
  metadata : RegionInputMetadataMsg

def RegionPointerButtonMsg.validate (message : RegionPointerButtonMsg) : Except RegionInputValidationError Unit := do
  message.position.validate
  refuseWhen (message.button = 0) .zeroButton
  message.metadata.validate

structure RegionPointerScrollMsg where
  msgType : String
  position : RegionInputPositionMsg
  deltaX : Int
  deltaY : Int
  unit : ScrollUnitMsg
  phase : ScrollPhaseMsg
  metadata : RegionInputMetadataMsg

def RegionPointerScrollMsg.validate (message : RegionPointerScrollMsg) : Except RegionInputValidationError Unit := do
  message.position.validate
  message.metadata.validate

structure RegionPenEventMsg where
  msgType : String
  position : RegionInputPositionMsg
  pressure : F32
  tiltXDegrees : F32
  tiltYDegrees : F32
  rotationDegrees : F32
  tool : PenToolMsg
  inProximity : Bool
  touching : Bool
  buttons : UInt16
  metadata : RegionInputMetadataMsg

def RegionPenEventMsg.validate (message : RegionPenEventMsg) : Except RegionInputValidationError Unit := do
  message.position.validate
  message.metadata.validate
  validatePenRanges .penFieldOutOfRange message.pressure message.tiltXDegrees message.tiltYDegrees
    message.rotationDegrees

inductive RegionInputWireMessage where
  | pointerEnter (message : RegionPointerMsg)
  | pointerLeave (message : RegionPointerMsg)
  | pointerMotion (message : RegionPointerMsg)
  | pointerButton (message : RegionPointerButtonMsg)
  | pointerScroll (message : RegionPointerScrollMsg)
  | pen (message : RegionPenEventMsg)

/-! ### Conversion -/

inductive RegionContractError where
  | zeroRegionId
  | zeroGeneration

inductive RegionInputDecodeError where
  | wire (error : RegionInputValidationError)
  | contract (error : RegionContractError)

def domainGeneration (value : UInt64) : Except RegionContractError RegionGeneration :=
  orError .zeroGeneration (NonZero.new value)

def domainPosition (position : RegionInputPositionMsg) : Except RegionContractError RegionLogicalPosition := do
  let regionId ← orError .zeroRegionId (NonZero.new position.regionId)
  pure ⟨regionId, ⟨position.logicalX, position.logicalY⟩⟩

variable (generation : RegionGeneration)

def wirePosition (position : RegionLogicalPosition) : RegionInputPositionMsg :=
  ⟨generation.get, position.regionId.get, position.point.x, position.point.y⟩

@[simp] theorem domainGeneration_get : domainGeneration generation.get = .ok generation := by
  rw [domainGeneration, NonZero.new_get]
  rfl

@[simp] theorem domainPosition_wirePosition (position : RegionLogicalPosition) :
    domainPosition (wirePosition generation position) = .ok position := by
  rw [domainPosition, wirePosition, NonZero.new_get]
  rfl

namespace RegionInputWireMessage

def validate : RegionInputWireMessage → Except RegionInputValidationError Unit
  | .pointerEnter message => message.validate
  | .pointerLeave message => message.validate
  | .pointerMotion message => message.validate
  | .pointerButton message => message.validate
  | .pointerScroll message => message.validate
  | .pen message => message.validate

def position : RegionInputWireMessage → RegionInputPositionMsg
  | .pointerEnter message => message.position
  | .pointerLeave message => message.position
  | .pointerMotion message => message.position
  | .pointerButton message => message.position
  | .pointerScroll message => message.position
  | .pen message => message.position

def metadata : RegionInputWireMessage → RegionInputMetadataMsg
  | .pointerEnter message => message.metadata
  | .pointerLeave message => message.metadata
  | .pointerMotion message => message.metadata
  | .pointerButton message => message.metadata
  | .pointerScroll message => message.metadata
  | .pen message => message.metadata

def buttonState : RegionInputWireMessage → Option (UInt8 × Bool)
  | .pointerButton message => some (message.button, message.pressed)
  | _ => none

def encode (event : RegionInputEvent) (timestampNs : UInt64) (coalescable : Bool) : RegionInputWireMessage :=
  let metadata : RegionInputMetadataMsg := ⟨event.sequence, timestampNs, coalescable⟩
  match event with
  | .pointerEnter generation position _ =>
    .pointerEnter ⟨regionPointerEnter, wirePosition generation position, metadata⟩
  | .pointerLeave generation position _ =>
    .pointerLeave ⟨regionPointerLeave, wirePosition generation position, metadata⟩
  | .pointerMotion generation position _ =>
    .pointerMotion ⟨regionPointerMotion, wirePosition generation position, metadata⟩
  | .pointerButton generation position button pressed _ =>
    .pointerButton ⟨regionPointerButton, wirePosition generation position, button, pressed, metadata⟩
  | .pointerScroll generation position deltaX deltaY unit phase _ =>
    .pointerScroll ⟨regionPointerScroll, wirePosition generation position, deltaX, deltaY, wireScrollUnit unit,
      wireScrollPhase phase, metadata⟩
  | .pen generation sample _ =>
    .pen ⟨regionPenEvent, wirePosition generation sample.position, sample.pressure, sample.tiltXDegrees,
      sample.tiltYDegrees, sample.rotationDegrees, wirePenTool sample.tool, sample.inProximity, sample.touching,
      sample.buttons, metadata⟩

def event (message : RegionInputWireMessage) (generation : RegionGeneration) (position : RegionLogicalPosition) :
    RegionInputEvent :=
  let sequence := message.metadata.sequence
  match message with
  | .pointerEnter _ => .pointerEnter generation position sequence
  | .pointerLeave _ => .pointerLeave generation position sequence
  | .pointerMotion _ => .pointerMotion generation position sequence
  | .pointerButton message => .pointerButton generation position message.button message.pressed sequence
  | .pointerScroll message =>
    .pointerScroll generation position message.deltaX message.deltaY (domainScrollUnit message.unit)
      (domainScrollPhase message.phase) sequence
  | .pen message =>
    .pen generation ⟨position, message.pressure, message.tiltXDegrees, message.tiltYDegrees, message.rotationDegrees,
      domainPenTool message.tool, message.inProximity, message.touching, message.buttons⟩ sequence

def decode (message : RegionInputWireMessage) : Except RegionInputDecodeError RegionInputEvent := do
  message.validate.mapError .wire
  let generation ← (domainGeneration message.position.regionGeneration).mapError .contract
  let position ← (domainPosition message.position).mapError .contract
  pure (message.event generation position)

section

variable (event : RegionInputEvent) (ts : UInt64) (coal : Bool)

theorem position_encode : (encode event ts coal).position = wirePosition event.generation event.position := by
  cases event <;> rfl

theorem event_encode : (encode event ts coal).event event.generation event.position = event := by
  cases event <;> simp [encode, RegionInputWireMessage.event, metadata, RegionInputEvent.generation,
    RegionInputEvent.position, RegionInputEvent.sequence]
end

/-- **Round trip.** A message that passes its validation decodes to the event it encodes. -/
theorem decode_encode {event : RegionInputEvent} {ts : UInt64} {coal : Bool}
    (h : (encode event ts coal).validate = .ok ()) : (encode event ts coal).decode = .ok event := by
  have hgen : domainGeneration (wirePosition event.generation event.position).regionGeneration =
      .ok event.generation := domainGeneration_get event.generation
  unfold decode
  rw [h, position_encode, hgen, domainPosition_wirePosition]
  exact congrArg Except.ok (event_encode event ts coal)

theorem edge_of_decode {msg : RegionInputWireMessage} {event : RegionInputEvent} (h : msg.decode = .ok event)
    : event.edge = msg.buttonState := by
  obtain ⟨_, -, h⟩ := exceptBind_eq_ok.mp h
  obtain ⟨_, -, h⟩ := exceptBind_eq_ok.mp h
  obtain ⟨_, -, h⟩ := exceptBind_eq_ok.mp h
  rw [exceptPure_eq_ok] at h
  rw [← h]
  cases msg <;> rfl

end RegionInputWireMessage
end Arcen
