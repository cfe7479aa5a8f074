import Arcen.Attempt
import Arcen.RegionGeometry

/-! The ordered state of one region input stream (`input/region_state.rs`). Both ends keep one and apply the same events
to it, so it is what the two have to agree on. An event is checked against the state before it changes it, with one
exception: a button is taken out of the held set and the set tells whether it was there. -/

namespace Arcen

structure F32 where
  bits : UInt32

namespace F32

variable (value : F32)

def exponent : Nat := value.bits.toNat / 2 ^ 23 % 2 ^ 8

def fraction : Nat := value.bits.toNat % 2 ^ 23

def isFinite : Bool := value.exponent ≠ 255

/-- The value of a finite float in units of the smallest one, `2 ^ (-149)`. -/
def units : Int :=
  let magnitude :=
    if value.exponent = 0 then value.fraction else (2 ^ 23 + value.fraction) * 2 ^ (value.exponent - 1)
  if value.bits.toNat < 2 ^ 31 then magnitude else -magnitude

/-- `is_finite` and `(minimum..=maximum).contains`, for bounds that are whole numbers. -/
def within (minimum maximum : Int) : Bool :=
  value.isFinite && minimum * 2 ^ 149 ≤ value.units && value.units ≤ maximum * 2 ^ 149

end F32

structure RegionLogicalPosition where
  regionId : RegionId
  point : LogicalPoint
  deriving DecidableEq

inductive PenTool where
  | tip
  | eraser

inductive ScrollUnit where
  | line
  | point

inductive ScrollPhase where
  | none
  | began
  | changed
  | ended
  | cancelled
  deriving DecidableEq

structure RegionPenSample where
  position : RegionLogicalPosition
  pressure : F32
  tiltXDegrees : F32
  tiltYDegrees : F32
  rotationDegrees : F32
  tool : PenTool
  inProximity : Bool
  touching : Bool
  buttons : UInt16

structure RegionPenState where
  sample : RegionPenSample

inductive RegionInputEvent where
  | pointerEnter (generation : RegionGeneration) (position : RegionLogicalPosition) (sequence : UInt64)
  | pointerLeave (generation : RegionGeneration) (position : RegionLogicalPosition) (sequence : UInt64)
  | pointerMotion (generation : RegionGeneration) (position : RegionLogicalPosition) (sequence : UInt64)
  | pointerButton (generation : RegionGeneration) (position : RegionLogicalPosition) (button : UInt8) (pressed : Bool)
      (sequence : UInt64)
  | pointerScroll (generation : RegionGeneration) (position : RegionLogicalPosition) (deltaX deltaY : Int)
      (unit : ScrollUnit) (phase : ScrollPhase) (sequence : UInt64)
  | pen (generation : RegionGeneration) (sample : RegionPenSample) (sequence : UInt64)

namespace RegionInputEvent

def generation : RegionInputEvent → RegionGeneration
  | .pointerEnter generation _ _ => generation
  | .pointerLeave generation _ _ => generation
  | .pointerMotion generation _ _ => generation
  | .pointerButton generation _ _ _ _ => generation
  | .pointerScroll generation _ _ _ _ _ _ => generation
  | .pen generation _ _ => generation

def sequence : RegionInputEvent → UInt64
  | .pointerEnter _ _ sequence => sequence
  | .pointerLeave _ _ sequence => sequence
  | .pointerMotion _ _ sequence => sequence
  | .pointerButton _ _ _ _ sequence => sequence
  | .pointerScroll _ _ _ _ _ _ sequence => sequence
  | .pen _ _ sequence => sequence

def position : RegionInputEvent → RegionLogicalPosition
  | .pointerEnter _ position _ => position
  | .pointerLeave _ position _ => position
  | .pointerMotion _ position _ => position
  | .pointerButton _ position _ _ _ => position
  | .pointerScroll _ position _ _ _ _ _ => position
  | .pen _ sample _ => sample.position

end RegionInputEvent

inductive RegionInputStateError where
  | staleGeneration (expected received : RegionGeneration)
  | unknownRegion (id : RegionId)
  | positionOutsideRegion (position : RegionLogicalPosition)
  | invalidSequence (last received : UInt64)
  | pointerAlreadyFocused
  | pointerNotFocused (id : RegionId)
  | buttonPositionMismatch (expected : Option RegionLogicalPosition) (received : RegionLogicalPosition)
  | zeroButton
  | buttonAlreadyHeld (button : UInt8)
  | buttonNotHeld (button : UInt8)
  | penFieldOutOfRange (field : String)

/-- `validate_f32`, for the error of the crate that calls it. -/
def validateF32 {ε : Type} (error : String → ε) (field : String) (value : F32) (minimum maximum : Int) :
    Except ε Unit := refuseWhen (value.within minimum maximum = false) (error field)

/-- The ranges of a pen sample's fields, in the order both crates check them. -/
def validatePenRanges {ε : Type} (error : String → ε) (pressure tiltX tiltY rotation : F32) : Except ε Unit := do
  validateF32 error "pressure" pressure 0 1
  validateF32 error "tilt_x_degrees" tiltX (-90) 90
  validateF32 error "tilt_y_degrees" tiltY (-90) 90
  validateF32 error "rotation_degrees" rotation 0 360

def RegionPenSample.validate (sample : RegionPenSample) : Except RegionInputStateError Unit :=
  validatePenRanges .penFieldOutOfRange sample.pressure sample.tiltXDegrees sample.tiltYDegrees sample.rotationDegrees

def validatePosition (regions : AppliedRegionSet) (position : RegionLogicalPosition) :
    Except RegionInputStateError Unit := do
  let region ← orError (.unknownRegion position.regionId) (regions.get position.regionId)
  let size := region.descriptor.logicalSize
  refuseWhen (position.point.x < 0) (.positionOutsideRegion position)
  refuseWhen (position.point.y < 0) (.positionOutsideRegion position)
  refuseWhen (¬(position.point.x < size.width ∧ position.point.y < size.height)) (.positionOutsideRegion position)

/-- What has to be released when focus or the connection is lost. -/
structure ReleasedRegionInput where
  pointerPosition : Option RegionLogicalPosition
  buttons : List UInt8
  pen : Option RegionPenState
  hadFocus : Bool

def ascending (bytes : Finset UInt8) : List UInt8 := ((List.range 256).map UInt8.ofNat).filter (· ∈ bytes)

structure RegionInputState where
  activePointerRegion : Option RegionId
  latestPointerPosition : Option RegionLogicalPosition
  heldButtons : Finset UInt8
  pen : Option RegionPenState
  focused : Bool
  lastSequence : UInt64

namespace RegionInputState

def new : RegionInputState := ⟨none, none, ∅, none, false, 0⟩

section Apply

variable (regions : AppliedRegionSet) (state : RegionInputState)

def validateCommon (event : RegionInputEvent) : Except RegionInputStateError Unit := do
  refuseWhen (event.generation ≠ regions.generation) (.staleGeneration regions.generation event.generation)
  refuseWhen (event.sequence = 0 ∨ event.sequence ≤ state.lastSequence)
    (.invalidSequence state.lastSequence event.sequence)
  validatePosition regions event.position

def requireActive (id : RegionId) : Except RegionInputStateError Unit :=
  refuseWhen (¬(state.focused = true ∧ state.activePointerRegion = some id)) (.pointerNotFocused id)

def requireLatest (position : RegionLogicalPosition) : Except RegionInputStateError Unit := do
  state.requireActive position.regionId
  refuseWhen (state.latestPointerPosition ≠ some position)
    (.buttonPositionMismatch state.latestPointerPosition position)

variable (event : RegionInputEvent)

/-- The cases of `apply`. -/
def applyCase : Attempt RegionInputState RegionInputStateError Unit := do
  let state ← get
  match event with
  | .pointerEnter _ position _ =>
    Attempt.ofExcept (refuseWhen (state.focused = true) .pointerAlreadyFocused)
    modify fun state => { state with
      activePointerRegion := some position.regionId, latestPointerPosition := some position, focused := true }
  | .pointerLeave _ position _ =>
    Attempt.ofExcept (state.requireActive position.regionId)
    modify fun state => { state with
      latestPointerPosition := some position, activePointerRegion := none, focused := false }
  | .pointerMotion _ position _ =>
    Attempt.ofExcept (state.requireActive position.regionId)
    modify fun state => { state with latestPointerPosition := some position }
  | .pointerButton _ position button pressed _ =>
    Attempt.ofExcept (state.requireLatest position)
    Attempt.ofExcept (refuseWhen (button = 0) .zeroButton)
    if pressed then
      Attempt.ofExcept (refuseWhen (button ∈ state.heldButtons) (.buttonAlreadyHeld button))
      modify fun state => { state with heldButtons := insert button state.heldButtons }
    else
      modify fun state => { state with heldButtons := state.heldButtons.erase button }
      Attempt.ofExcept (refuseWhen (button ∉ state.heldButtons) (.buttonNotHeld button))
  | .pointerScroll _ position _ _ _ _ _ => Attempt.ofExcept (state.requireLatest position)
  | .pen _ sample _ =>
    Attempt.ofExcept sample.validate
    modify fun state => { state with
      pen := if sample.inProximity ∨ sample.touching ∨ sample.buttons ≠ 0 then some ⟨sample⟩ else none }

def apply : Attempt RegionInputState RegionInputStateError Unit := do
  let state ← get
  Attempt.ofExcept (state.validateCommon regions event)
  applyCase event
  modify fun state => { state with lastSequence := event.sequence }

end Apply

/-- The releases, and the state without what they release. The position and the sequence stay. -/
def releaseAll (state : RegionInputState) : ReleasedRegionInput × RegionInputState :=
  (⟨state.latestPointerPosition, ascending state.heldButtons, state.pen, state.focused⟩,
    { state with heldButtons := ∅, pen := none, activePointerRegion := none, focused := false })

end RegionInputState

/-! ### What applying an event does -/

theorem validatePosition_eq_ok {regions : AppliedRegionSet}
    (h : validatePosition regions pos = .ok u) : ∃ region, regions.get pos.regionId = some region ∧ 0 ≤ pos.point.x ∧
      pos.point.x < region.descriptor.logicalSize.width ∧ 0 ≤ pos.point.y ∧
      pos.point.y < region.descriptor.logicalSize.height := by
  obtain ⟨region, hregi, h⟩ := exceptBind_eq_ok.mp h
  obtain ⟨_, hx, h⟩ := exceptBind_eq_ok.mp h
  obtain ⟨_, hy, hin⟩ := exceptBind_eq_ok.mp h
  rw [refuseWhen_eq_ok] at hx hy hin
  obtain ⟨hx', hy'⟩ := not_not.mp hin
  exact ⟨region, orError_eq_ok.mp hregi, not_lt.mp hx, hx', not_lt.mp hy, hy'⟩

def RegionInputEvent.edge : RegionInputEvent → Option (UInt8 × Bool)
  | .pointerButton _ _ button pressed _ => some (button, pressed)
  | _ => none

namespace RegionInputState

open Attempt

variable {regions : AppliedRegionSet} {event : RegionInputEvent} {state next : RegionInputState} {u : Unit}

/-- How an event changes the held buttons: a press adds one that was not held, a release takes one that was. -/
def HeldStep (edge : Option (UInt8 × Bool)) (held held' : Finset UInt8) : Prop :=
  match edge with
  | none => held' = held
  | some (button, true) => button ∉ held ∧ held' = insert button held
  | some (button, false) => button ∈ held ∧ held' = held.erase button

theorem applyCase_held (h : Yields (applyCase event) state u next) :
    HeldStep event.edge state.heldButtons next.heldButtons := by
  unfold applyCase at h
  rw [yields_get] at h
  cases event with
  | pointerEnter | pointerLeave
  | pointerMotion | pen =>
    obtain ⟨_, -, h⟩ := yields_check.mp h
    exact yields_modify.mp h ▸ rfl
  | pointerButton _ _ _ pressed =>
    obtain ⟨_, -, h⟩ := yields_check.mp h
    obtain ⟨_, -, h⟩ := yields_check.mp h
    cases pressed with
    | true =>
      obtain ⟨_, hh, h⟩ := yields_check.mp h
      exact yields_modify.mp h ▸ ⟨refuseWhen_eq_ok.mp hh, rfl⟩
    | false =>
      obtain ⟨_, _, herase, h⟩ := yields_bind.mp h
      obtain ⟨hh, rfl⟩ := yields_ofExcept.mp h
      exact yields_modify.mp herase ▸ ⟨not_not.mp (refuseWhen_eq_ok.mp hh), rfl⟩
  | pointerScroll =>
    obtain ⟨-, rfl⟩ := yields_ofExcept.mp h
    rfl

theorem yields_apply (h : Yields (apply regions event) state u next) :
    validatePosition regions event.position = .ok () ∧ HeldStep event.edge state.heldButtons next.heldButtons := by
  unfold apply at h
  rw [yields_get] at h
  obtain ⟨_, hcomm, h⟩ := yields_check.mp h
  obtain ⟨_, _, hcase, h⟩ := yields_bind.mp h
  obtain ⟨_, -, hcomm⟩ := exceptBind_eq_ok.mp hcomm
  obtain ⟨_, -, hpos⟩ := exceptBind_eq_ok.mp hcomm
  have hh := applyCase_held hcase
  exact ⟨hpos, yields_modify.mp h ▸ hh⟩

theorem applyCase_atomic (event : RegionInputEvent) (state : RegionInputState) : Atomic (applyCase event) state := by
  refine .get ?_
  cases event with
  | pointerEnter
  | pointerLeave
  | pointerMotion | pen => exact .check fun _ => .modify _
  | pointerButton gen pos button pressed seq =>
    refine .check fun _ => .check fun _ => ?_
    cases pressed with
    | true => exact .check fun _ => .modify _
    | false =>
      -- the set is changed before its answer is read, but only when it held the button
      intro e next h
      rw [if_neg Bool.false_ne_true, runOn_modify_bind] at h
      obtain ⟨href, rfl⟩ := Prod.mk.inj h
      by_cases hh : button ∈ state.heldButtons
      · rw [refuseWhen, if_neg (not_not.mpr hh)] at href
        exact nomatch href
      · rw [Finset.erase_eq_of_notMem hh]
  | pointerScroll => exact .ofExcept _

theorem apply_atomic (regions : AppliedRegionSet) (event : RegionInputEvent) (state : RegionInputState) :
    Atomic (apply regions event) state :=
  .get (.check fun _ => (applyCase_atomic event state).andThen fun _ _ => ⟨(), _, rfl⟩)

theorem mem_ascending : byte ∈ ascending bytes ↔ byte ∈ bytes := by
  unfold ascending
  rw [List.mem_filter, decide_eq_true_iff]
  refine and_iff_right (List.mem_map.mpr ⟨byte.toNat, List.mem_range.mpr byte.toNat_lt, ?_⟩)
  exact UInt8.ofNat_toNat

theorem nodup_ascending (bytes : Finset UInt8) : (ascending bytes).Nodup := by
  refine .filter _ (List.Nodup.map_on (fun one hone other hoth h => ?_) List.nodup_range)
  rw [List.mem_range] at hone hoth
  have hby := congrArg UInt8.toNat h
  rwa [UInt8.toNat_ofNat', UInt8.toNat_ofNat', Nat.mod_eq_of_lt hone, Nat.mod_eq_of_lt hoth] at hby

end RegionInputState
end Arcen
