import Arcen.Machine
import Arcen.RegionInputWire

/-! The two ends of region input. The emitter (`input/region_emitter.rs`) turns samples into the edges the state asks for
and sends each one it has applied; the pipeline (`input/region_pipeline.rs`) decodes a message, maps its point and only
then applies it. The last step of the mapping is the platform's and a parameter here. -/

namespace Arcen

inductive RegionInputEmitError where
  | state (error : RegionInputStateError)
  | wire (error : RegionInputValidationError)
  | missingPointerPosition

structure RegionInputEmitter where
  state : RegionInputState
  sequence : UInt64

abbrev Emit := Attempt RegionInputEmitter RegionInputEmitError

namespace RegionInputEmitter

def new : RegionInputEmitter := ⟨.new, 0⟩

/-- `saturating_add(1)`. -/
def nextSequence : Emit UInt64 := do
  modify fun emitter => { emitter with
    sequence := if emitter.sequence = 0xFFFFFFFFFFFFFFFF then emitter.sequence else emitter.sequence + 1 }
  let emitter ← get
  pure emitter.sequence

section Operations

variable (regions : AppliedRegionSet)

def emit (event : RegionInputEvent) (timestampNs : UInt64) (coalescable : Bool) : Emit RegionInputWireMessage := do
  Attempt.on state (fun state emitter => { emitter with state }) .state (RegionInputState.apply regions event)
  let message := RegionInputWireMessage.encode event timestampNs coalescable
  Attempt.ofExcept (message.validate.mapError .wire)
  pure message

/-- `next_sequence`, and `emit` of the event with it. -/
def emitNext (event : UInt64 → RegionInputEvent) (timestampNs : UInt64) (coalescable : Bool) :
    Emit RegionInputWireMessage := do
  let sequence ← nextSequence
  emit regions (event sequence) timestampNs coalescable

def emitButton (position : RegionLogicalPosition) (button : UInt8) (pressed : Bool) (timestampNs : UInt64) :
    Emit RegionInputWireMessage :=
  emitNext regions (.pointerButton regions.generation position button pressed) timestampNs false

def leaveFocused (timestampNs : UInt64) : Emit (List RegionInputWireMessage) := do
  let emitter ← get
  if emitter.state.focused then
    let previous ← Attempt.ofExcept (orError .missingPointerPosition emitter.state.latestPointerPosition)
    let message ← emitNext regions (.pointerLeave regions.generation previous) timestampNs false
    pure [message]
  else
    pure []

variable (position : RegionLogicalPosition)

def ensurePointerPosition (timestampNs : UInt64) : Emit (List RegionInputWireMessage) := do
  let emitter ← get
  if emitter.state.activePointerRegion = some position.regionId then
    if emitter.state.latestPointerPosition ≠ some position then
      let message ← emitNext regions (.pointerMotion regions.generation position) timestampNs true
      pure [message]
    else
      pure []
  else
    let messages ← leaveFocused regions timestampNs
    let message ← emitNext regions (.pointerEnter regions.generation position) timestampNs false
    pure (messages ++ [message])

def pointerMotion (timestampNs : UInt64) : Emit (List RegionInputWireMessage) :=
  ensurePointerPosition regions position timestampNs

/-- The edges are those against the buttons held when the pointer arrived, not as the loop goes on. -/
def pointerSample (buttons : List (UInt8 × Bool)) (timestampNs : UInt64) : Emit (List RegionInputWireMessage) := do
  let messages ← ensurePointerPosition regions position timestampNs
  let emitter ← get
  let held := emitter.state.heldButtons
  buttons.foldlM (fun messages (edge : UInt8 × Bool) =>
    if decide (edge.1 ∈ held) ≠ edge.2 then do
      let message ← emitButton regions position edge.1 edge.2 timestampNs
      pure (messages ++ [message])
    else pure messages) messages

def pointerButton (button : UInt8) (pressed : Bool) (timestampNs : UInt64) : Emit (List RegionInputWireMessage) := do
  let messages ← ensurePointerPosition regions position timestampNs
  let emitter ← get
  if decide (button ∈ emitter.state.heldButtons) ≠ pressed then
    let message ← emitButton regions position button pressed timestampNs
    pure (messages ++ [message])
  else
    pure messages

def pointerButtonAtLatest (button : UInt8) (pressed : Bool) (timestampNs : UInt64) :
    Emit (Option RegionInputWireMessage) := do
  let emitter ← get
  let position ← Attempt.ofExcept (orError .missingPointerPosition emitter.state.latestPointerPosition)
  if decide (button ∈ emitter.state.heldButtons) = pressed then
    pure none
  else
    let message ← emitButton regions position button pressed timestampNs
    pure (some message)

def pointerScroll (position : RegionLogicalPosition) (deltaX deltaY : Int) (timestampNs : UInt64) :
    Emit (List RegionInputWireMessage) := do
  let messages ← ensurePointerPosition regions position timestampNs
  if deltaX ≠ 0 ∨ deltaY ≠ 0 then
    let message ← emitNext regions (.pointerScroll regions.generation position deltaX deltaY .line .none) timestampNs
      false
    pure (messages ++ [message])
  else
    pure messages

def pointerScrollWithDetails (position : RegionLogicalPosition) (deltaX deltaY : Int) (unit : ScrollUnit)
    (phase : ScrollPhase) (timestampNs : UInt64) : Emit (List RegionInputWireMessage) := do
  let messages ← ensurePointerPosition regions position timestampNs
  if deltaX ≠ 0 ∨ deltaY ≠ 0 ∨ ¬(phase = .none ∨ phase = .changed) then
    let message ← emitNext regions (.pointerScroll regions.generation position deltaX deltaY unit phase) timestampNs
      false
    pure (messages ++ [message])
  else
    pure messages

def penWithSequence (sample : RegionPenSample) (sequence timestampNs : UInt64) (coalescable : Bool) :
    Emit RegionInputWireMessage := do
  let message ← emit regions (.pen regions.generation sample sequence) timestampNs coalescable
  modify fun emitter => { emitter with
    sequence := if emitter.sequence ≤ sequence then sequence else emitter.sequence }
  pure message

def pen (sample : RegionPenSample) (timestampNs : UInt64) (coalescable : Bool) : Emit RegionInputWireMessage := do
  let sequence ← nextSequence
  penWithSequence regions sample sequence timestampNs coalescable

end Operations

def advanceSequenceTo (sequence : UInt64) (emitter : RegionInputEmitter) : RegionInputEmitter :=
  if emitter.sequence < sequence then { emitter with sequence } else emitter

def releaseAll (emitter : RegionInputEmitter) : ReleasedRegionInput × RegionInputEmitter :=
  (emitter.state.releaseAll.1, { emitter with state := emitter.state.releaseAll.2 })

end RegionInputEmitter

/-! ### The pipeline -/

inductive RegionInputPipelineError (δ : Type) where
  | wire (error : RegionInputValidationError)
  | contract (error : RegionContractError)
  | state (error : RegionInputStateError)
  | transform (error : CoordinateTransformError)
  | mapping (error : δ)

/-- An accepted event at its native point. -/
inductive MappedRegionInput (P : Type) where
  | pointerEnter (point : P)
  | pointerLeave (point : P)
  | pointerMotion (point : P)
  | pointerButton (point : P) (button : UInt8) (pressed : Bool)
  | pointerScroll (point : P) (deltaX deltaY : Int) (unit : ScrollUnit) (phase : ScrollPhase)
  | pen (point : P) (sample : RegionPenSample)

structure RegionInputPipeline (δ P : Type) where
  appliedRegions : AppliedRegionSet
  state : RegionInputState
  /-- `map_applied` of the platform. -/
  mapApplied : AppliedPoint → Except δ P

namespace RegionInputPipeline

variable {δ P : Type}

def new (appliedRegions : AppliedRegionSet) (mapApplied : AppliedPoint → Except δ P) : RegionInputPipeline δ P :=
  ⟨appliedRegions, .new, mapApplied⟩

def decodeError : RegionInputDecodeError → RegionInputPipelineError δ
  | .wire error => .wire error
  | .contract error => .contract error

def map (pipeline : RegionInputPipeline δ P) (position : RegionLogicalPosition) :
    Except (RegionInputPipelineError δ) P := do
  let point ← (pipeline.appliedRegions.logicalToApplied position.regionId position.point).mapError .transform
  (pipeline.mapApplied point).mapError .mapping

def accept (message : RegionInputWireMessage) :
    Attempt (RegionInputPipeline δ P) (RegionInputPipelineError δ) (P × RegionInputEvent) := do
  let pipeline ← get
  let event ← Attempt.ofExcept (message.decode.mapError decodeError)
  let mapped ← Attempt.ofExcept (pipeline.map event.position)
  Attempt.on state (fun state pipeline => { pipeline with state }) .state
    (RegionInputState.apply pipeline.appliedRegions event)
  pure (mapped, event)

def mappedInput (point : P) : RegionInputEvent → MappedRegionInput P
  | .pointerEnter _ _ _ => .pointerEnter point
  | .pointerLeave _ _ _ => .pointerLeave point
  | .pointerMotion _ _ _ => .pointerMotion point
  | .pointerButton _ _ button pressed _ => .pointerButton point button pressed
  | .pointerScroll _ _ deltaX deltaY unit phase _ => .pointerScroll point deltaX deltaY unit phase
  | .pen _ sample _ => .pen point sample

def apply (message : RegionInputWireMessage) :
    Attempt (RegionInputPipeline δ P) (RegionInputPipelineError δ) (MappedRegionInput P) := do
  let accepted ← accept message
  pure (mappedInput accepted.1 accepted.2)

def releaseAll (pipeline : RegionInputPipeline δ P) : ReleasedRegionInput × RegionInputPipeline δ P :=
  (pipeline.state.releaseAll.1, { pipeline with state := pipeline.state.releaseAll.2 })

end RegionInputPipeline

/-! ### The ends as machines, and the link between them -/

inductive PierCall where
  | message (message : RegionInputWireMessage)
  | releaseAll

inductive PierReply (δ P : Type) where
  | applied (result : Except (RegionInputPipelineError δ) (MappedRegionInput P))
  | released (input : ReleasedRegionInput)

section Machines

variable {δ P : Type}

def PierReply.Accepts : PierReply δ P → Prop
  | .applied (.ok _) => True
  | .applied (.error _) => False
  | .released _ => True

variable (regions : AppliedRegionSet)

/-- The receiving end. -/
def regionPier (mapApplied : AppliedPoint → Except δ P) :
    Machine (RegionInputPipeline δ P) PierCall (PierReply δ P) where
  init := .new regions mapApplied
  step pipeline call :=
    match call with
    | .message message =>
      (((RegionInputPipeline.apply message).runOn pipeline).2,
        .applied ((RegionInputPipeline.apply message).runOn pipeline).1)
    | .releaseAll => (pipeline.releaseAll.2, .released pipeline.releaseAll.1)

inductive DeckCall where
  | pointerMotion (position : RegionLogicalPosition) (timestampNs : UInt64)
  | pointerSample (position : RegionLogicalPosition) (buttons : List (UInt8 × Bool)) (timestampNs : UInt64)
  | pointerButton (position : RegionLogicalPosition) (button : UInt8) (pressed : Bool) (timestampNs : UInt64)
  | pointerButtonAtLatest (button : UInt8) (pressed : Bool) (timestampNs : UInt64)
  | pointerScroll (position : RegionLogicalPosition) (deltaX deltaY : Int) (timestampNs : UInt64)
  | pointerScrollWithDetails (position : RegionLogicalPosition) (deltaX deltaY : Int) (unit : ScrollUnit)
      (phase : ScrollPhase) (timestampNs : UInt64)
  | pen (sample : RegionPenSample) (timestampNs : UInt64) (coalescable : Bool)
  | penWithSequence (sample : RegionPenSample) (sequence timestampNs : UInt64) (coalescable : Bool)
  | advanceSequenceTo (sequence : UInt64)
  | releaseAll

inductive DeckReply where
  | emitted (result : Except RegionInputEmitError (List RegionInputWireMessage))
  | released (input : ReleasedRegionInput)

def DeckReply.Succeeds : DeckReply → Prop
  | .emitted (.ok _) => True
  | .emitted (.error _) => False
  | .released _ => True

instance : DecidablePred DeckReply.Succeeds
  | .emitted (.ok _) => isTrue trivial
  | .emitted (.error _) => isFalse id
  | .released _ => isTrue trivial

/-- The code of a call that sends, with the messages it returns. -/
def DeckCall.emission : DeckCall → Emit (List RegionInputWireMessage)
  | .pointerMotion position timestampNs => RegionInputEmitter.pointerMotion regions position timestampNs
  | .pointerSample position buttons timestampNs =>
    RegionInputEmitter.pointerSample regions position buttons timestampNs
  | .pointerButton position button pressed timestampNs =>
    RegionInputEmitter.pointerButton regions position button pressed timestampNs
  | .pointerButtonAtLatest button pressed timestampNs => do
      let message ← RegionInputEmitter.pointerButtonAtLatest regions button pressed timestampNs
      pure message.toList
  | .pointerScroll position deltaX deltaY timestampNs =>
    RegionInputEmitter.pointerScroll regions position deltaX deltaY timestampNs
  | .pointerScrollWithDetails position deltaX deltaY unit phase timestampNs =>
    RegionInputEmitter.pointerScrollWithDetails regions position deltaX deltaY unit phase timestampNs
  | .pen sample timestampNs coalescable => do
      let message ← RegionInputEmitter.pen regions sample timestampNs coalescable
      pure [message]
  | .penWithSequence sample sequence timestampNs coalescable => do
      let message ← RegionInputEmitter.penWithSequence regions sample sequence timestampNs coalescable
      pure [message]
  | .advanceSequenceTo sequence => do
      modify (RegionInputEmitter.advanceSequenceTo sequence)
      pure []
  | .releaseAll => pure []

def deckStep (emitter : RegionInputEmitter) : DeckCall → RegionInputEmitter × DeckReply
  | .releaseAll => (emitter.releaseAll.2, .released emitter.releaseAll.1)
  | call => (((call.emission regions).runOn emitter).2, .emitted ((call.emission regions).runOn emitter).1)

/-- What the pier gets of a call: the messages it returned, or its own release. -/
def DeckReply.toPier : DeckReply → List PierCall
  | .emitted (.ok messages) => messages.map .message
  | .emitted (.error _) => []
  | .released _ => [.releaseAll]

structure RegionLink (δ P : Type) where
  deck : RegionInputEmitter
  pier : RegionInputPipeline δ P

def regionLink (mapApplied : AppliedPoint → Except δ P) :
    Machine (RegionLink δ P) DeckCall (DeckReply × List (PierCall × PierReply δ P)) where
  init := ⟨.new, .new regions mapApplied⟩
  step link call :=
    let turn := deckStep regions link.deck call
    let pier := regionPier regions mapApplied
    (⟨turn.1, pier.execFrom link.pier turn.2.toPier⟩, turn.2, pier.logFrom link.pier turn.2.toPier)

end Machines
end Arcen
