import Arcen.Binary64
import Arcen.Fallible

/-! Placement of a requested monitor roster on the host desktop (`media/topology_placement.rs`, with the layout
rectangles of `media/multi_monitor.rs`): a breadth-first walk from the primary puts every monitor flush against the
neighbour it was reached from, and an origin policy may then translate the whole layout. -/

namespace Arcen

/-! ### Rectangles -/

inductive MediaContractError where
  | invalidLayoutDimensions
  | coordinateOverflow
  | emptyTopology
  deriving DecidableEq

structure LayoutRect where
  x : Int
  y : Int
  width : Nat
  height : Nat
  deriving DecidableEq

def i32Min : Int := -2 ^ 31
def i32Max : Int := 2 ^ 31 - 1

/-- `i32::try_from`. -/
def checkedI64ToI32 (value : Int) : Except MediaContractError Int :=
  if i32Min ≤ value ∧ value ≤ i32Max then .ok value else .error .coordinateOverflow

def validateLayoutEnd (origin : Int) (extent : Nat) : Except MediaContractError Unit :=
  refuseWhen (i32Max + 1 < origin + extent) .coordinateOverflow

structure LayoutTranslation where
  dx : Int := 0
  dy : Int := 0
  deriving DecidableEq

namespace LayoutRect

def new (x y : Int) (width height : Nat) : Except MediaContractError LayoutRect := do
  refuseWhen (width = 0 ∨ height = 0) .invalidLayoutDimensions
  validateLayoutEnd x width
  validateLayoutEnd y height
  pure ⟨x, y, width, height⟩

variable (rect : LayoutRect)

def rightExclusive : Int := rect.x + rect.width
def bottomExclusive : Int := rect.y + rect.height

def translated (translation : LayoutTranslation) : Except MediaContractError LayoutRect := do
  let x ← checkedI64ToI32 (rect.x + translation.dx)
  let y ← checkedI64ToI32 (rect.y + translation.dy)
  new x y rect.width rect.height

end LayoutRect

structure LayoutBounds where
  x : Int
  y : Int
  width : Nat
  height : Nat
  deriving DecidableEq

/-- `u32::try_from`. -/
def checkedI64ToU32 (value : Int) : Except MediaContractError Nat :=
  if 0 ≤ value ∧ value < 2 ^ 32 then .ok value.toNat else .error .coordinateOverflow

namespace LayoutBounds

def fromRects : List LayoutRect → Except MediaContractError LayoutBounds
  | [] => .error .emptyTopology
  | first :: rest => do
      let minX := rest.foldl (fun low rect => min low rect.x) first.x
      let minY := rest.foldl (fun low rect => min low rect.y) first.y
      let maxRight := rest.foldl (fun high rect => max high rect.rightExclusive) first.rightExclusive
      let maxBottom := rest.foldl (fun high rect => max high rect.bottomExclusive) first.bottomExclusive
      let width ← checkedI64ToU32 (maxRight - minX)
      let height ← checkedI64ToU32 (maxBottom - minY)
      let x ← checkedI64ToI32 minX
      let y ← checkedI64ToI32 minY
      pure ⟨x, y, width, height⟩

def translationToOrigin (bounds : LayoutBounds) : LayoutTranslation where
  dx := if bounds.x < 0 then -bounds.x else 0
  dy := if bounds.y < 0 then -bounds.y else 0

end LayoutBounds

/-! ### Monitors -/

inductive Rotation where
  | degrees0
  | degrees90
  | degrees180
  | degrees270

structure RequestedMonitor where
  x : Int
  y : Int
  widthPx : Nat
  heightPx : Nat
  rotation : Rotation
  logicalWidth : Nat
  logicalHeight : Nat

inductive TransformConvention where
  | nativeNeedsTransform
  | alreadyCompositorOriented

inductive OriginPolicy where
  | preserveSigned
  | translateToNonNegative

/-- The on-desktop footprint of a stream extent. -/
def TransformConvention.desktopFootprint (convention : TransformConvention) (widthPx heightPx : Nat)
    (rotation : Rotation) : Nat × Nat :=
  match convention, rotation with
  | .nativeNeedsTransform, .degrees90 => (heightPx, widthPx)
  | .nativeNeedsTransform, .degrees270 => (heightPx, widthPx)
  | _, _ => (widthPx, heightPx)

namespace RequestedMonitor

variable (monitor : RequestedMonitor)

/-- The requested rectangle in the client's logical desktop space. -/
def logicalRect : LayoutRect := ⟨monitor.x, monitor.y, monitor.logicalWidth, monitor.logicalHeight⟩

def logicalArrangementRect : Except MediaContractError LayoutRect :=
  LayoutRect.new monitor.x monitor.y monitor.logicalWidth monitor.logicalHeight

variable (convention : TransformConvention)

def footprint : Nat × Nat := convention.desktopFootprint monitor.widthPx monitor.heightPx monitor.rotation

/-- The footprint per logical unit on each axis, in floats. -/
def scale : ℚ × ℚ := (toBinary64 ((monitor.footprint convention).1 / monitor.logicalWidth),
    toBinary64 ((monitor.footprint convention).2 / monitor.logicalHeight))

end RequestedMonitor

/-! ### The walk -/

inductive TopologyPlacementError where
  | primaryIndexOutOfRange (index len : Nat)
  | contract (error : MediaContractError)
  deriving DecidableEq

inductive TouchingEdge where
  | right
  | left
  | below
  | above
  deriving DecidableEq

def verticalOverlap (anchor candidate : LayoutRect) : Bool :=
  candidate.y < anchor.bottomExclusive && anchor.y < candidate.bottomExclusive

def horizontalOverlap (anchor candidate : LayoutRect) : Bool :=
  candidate.x < anchor.rightExclusive && anchor.x < candidate.rightExclusive

/-- The edge of the anchor that the candidate touches, with a strict overlap on the other axis. -/
def touchingEdge (anchor candidate : LayoutRect) : Option TouchingEdge :=
  if verticalOverlap anchor candidate ∧ candidate.x = anchor.rightExclusive then some .right
  else if verticalOverlap anchor candidate ∧ candidate.rightExclusive = anchor.x then some .left
  else if horizontalOverlap anchor candidate ∧ candidate.y = anchor.bottomExclusive then some .below
  else if horizontalOverlap anchor candidate ∧ candidate.bottomExclusive = anchor.y then some .above
  else none

/-- The offset is rounded in floats and must fit a signed coordinate. -/
def checkedRoundOffset (logicalDelta : Int) (scale : ℚ) : Except TopologyPlacementError Int :=
  let scaled := roundAway (toBinary64 (toBinary64 logicalDelta * scale))
  if i32Min ≤ scaled ∧ scaled ≤ i32Max then .ok scaled else .error (.contract .coordinateOverflow)

def placeAgainst (convention : TransformConvention) (anchor candidate : RequestedMonitor) (position : Int × Int)
    (edge : TouchingEdge) : Except TopologyPlacementError (Int × Int) := do
  match edge with
  | .right =>
    let crossOffset ← checkedRoundOffset (candidate.y - anchor.y) (anchor.scale convention).2
    pure (position.1 + (anchor.footprint convention).1, position.2 + crossOffset)
  | .left =>
    let crossOffset ← checkedRoundOffset (candidate.y - anchor.y) (anchor.scale convention).2
    pure (position.1 - (candidate.footprint convention).1, position.2 + crossOffset)
  | .below =>
    let crossOffset ← checkedRoundOffset (candidate.x - anchor.x) (anchor.scale convention).1
    pure (position.1 + crossOffset, position.2 + (anchor.footprint convention).2)
  | .above =>
    let crossOffset ← checkedRoundOffset (candidate.x - anchor.x) (anchor.scale convention).1
    pure (position.1 + crossOffset, position.2 - (candidate.footprint convention).2)

/-- The positions found so far, by roster index. -/
abbrev Placed := Nat → Option (Int × Int)

def primaryPlaced (primaryIndex : Nat) : Placed := Function.update (fun _ => none) primaryIndex (some (0, 0))

variable (convention : TransformConvention)

/-- One candidate of an anchor: it is placed and queued when it is still unplaced and touches the anchor. -/
def visit (anchor : RequestedMonitor) (position : Int × Int)
    (state : Placed × List Nat) (candidate : RequestedMonitor × Nat) :
    Except TopologyPlacementError (Placed × List Nat) :=
  if (state.1 candidate.2).isSome then .ok state
  else
    match touchingEdge anchor.logicalRect candidate.1.logicalRect with
    | none => .ok state
    | some edge =>
      match placeAgainst convention anchor candidate.1 position edge with
      | .error error => .error error
      | .ok place => .ok (Function.update state.1 candidate.2 (some place), state.2 ++ [candidate.2])

/-- The breadth-first walk. Every index is queued once, so a turn for each monitor is enough. -/
def walk (convention : TransformConvention) (monitors : List RequestedMonitor) :
    Nat → Placed × List Nat → Except TopologyPlacementError Placed
  | 0, state => .ok state.1
  | _ + 1, (placed, []) => .ok placed
  | turns + 1, (placed, anchorIndex :: queue) =>
    match monitors[anchorIndex]?, placed anchorIndex with
    | some anchor, some position => do
        let state ← monitors.zipIdx.foldlM (visit convention anchor position) (placed, queue)
        walk convention monitors turns state
    | _, _ => walk convention monitors turns (placed, queue)

/-- The position of a monitor that the walk did not reach, by the scale of the primary. -/
def fallBack (primary monitor : RequestedMonitor) : Except TopologyPlacementError (Int × Int) := do
  let x ← checkedRoundOffset (monitor.x - primary.x) (primary.scale convention).1
  let y ← checkedRoundOffset (monitor.y - primary.y) (primary.scale convention).2
  pure (x, y)

def checkedPosition (value : Int) : Except TopologyPlacementError Int := (checkedI64ToI32 value).mapError .contract

/-- The position found by the walk, or else the fallback. -/
def settle (convention : TransformConvention) (primary : RequestedMonitor) (placed : Placed)
    (monitor : RequestedMonitor × Nat) : Except TopologyPlacementError (Int × Int) :=
  match placed monitor.2 with
  | some position => .ok position
  | none => fallBack convention primary monitor.1

def checkedOffset (position : Int × Int) : Except TopologyPlacementError (Int × Int) := do
  let x ← checkedPosition position.1
  let y ← checkedPosition position.2
  pure (x, y)

def planEdgeAwareOffsets (monitors : List RequestedMonitor) (primaryIndex : Nat) (convention : TransformConvention) :
    Except TopologyPlacementError (List (Int × Int)) :=
  match monitors[primaryIndex]? with
  | none => .error (.primaryIndexOutOfRange primaryIndex monitors.length)
  | some primary => do
      let _ ← (monitors.mapM RequestedMonitor.logicalArrangementRect).mapError TopologyPlacementError.contract
      let placed ← walk convention monitors monitors.length (primaryPlaced primaryIndex, [primaryIndex])
      let positions ← monitors.zipIdx.mapM (settle convention primary placed)
      positions.mapM checkedOffset

/-! ### The layout -/

structure PlacedLayout where
  rects : List LayoutRect
  bounds : LayoutBounds
  translation : LayoutTranslation
  deriving DecidableEq

/-- Both bounds are taken over rectangles in host pixels, which `checked_layout_bounds` lets through. -/
def applyOriginPolicy (rects : List LayoutRect) (policy : OriginPolicy) : Except MediaContractError PlacedLayout := do
  let bounds ← LayoutBounds.fromRects rects
  let translation : LayoutTranslation :=
    match policy with
    | .preserveSigned => {}
    | .translateToNonNegative => bounds.translationToOrigin
  if translation.dx = 0 ∧ translation.dy = 0 then pure ⟨rects, bounds, translation⟩
  else
    let translated ← rects.mapM fun rect => rect.translated translation
    let bounds ← LayoutBounds.fromRects translated
    pure ⟨translated, bounds, translation⟩

def layoutAt (convention : TransformConvention) (monitor : RequestedMonitor × (Int × Int)) :
    Except MediaContractError LayoutRect :=
  LayoutRect.new monitor.2.1 monitor.2.2 (monitor.1.footprint convention).1 (monitor.1.footprint convention).2

def placeMonitors (monitors : List RequestedMonitor) (primaryIndex : Nat) (convention : TransformConvention)
    (policy : OriginPolicy) : Except TopologyPlacementError PlacedLayout := do
  let offsets ← planEdgeAwareOffsets monitors primaryIndex convention
  let rects ← ((monitors.zip offsets).mapM (layoutAt convention)).mapError TopologyPlacementError.contract
  (applyOriginPolicy rects policy).mapError .contract

end Arcen
