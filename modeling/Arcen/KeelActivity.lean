import Arcen.Duration

/-! Damage and activity of captured frames (`shared/keel`): the 16x16 block grid, the tracker that compares block
hashes with those of the frame before, the rolling activity window and the keepalive cadence. The hash of a block is
the kernel's, which is a parameter. -/

namespace Arcen

open List

def blockSize : Nat := 16

/-- Checked 16x16 block geometry. -/
structure BlockGrid where
  width : Nat
  height : Nat
  nonempty : 0 < width ∧ 0 < height
  deriving DecidableEq

namespace BlockGrid

variable (grid : BlockGrid)

def blocksWide : Nat := (grid.width + blockSize - 1) / blockSize
def blocksTall : Nat := (grid.height + blockSize - 1) / blockSize
def blockCount : Nat := grid.blocksWide * grid.blocksTall

end BlockGrid

structure BlockBounds where
  x : Nat
  y : Nat
  width : Nat
  height : Nat

/-- The bounds of a block below `block_count`. -/
def BlockGrid.blockBounds (grid : BlockGrid) (index : Nat) : BlockBounds :=
  let x := index % grid.blocksWide * blockSize
  let y := index / grid.blocksWide * blockSize
  ⟨x, y, min blockSize (grid.width - x), min blockSize (grid.height - y)⟩

def bgraBytesPerPixel : Nat := 4

/-- A borrowed view over active BGRA pixels. -/
structure BgraFrame where
  pixels : List UInt8
  grid : BlockGrid
  stride : Nat
  strided : grid.width * bgraBytesPerPixel ≤ stride
  filled : stride * grid.height ≤ pixels.length

abbrev HashKernel := BgraFrame → BlockBounds → UInt64

inductive KeelError where
  | geometryChanged (expected actual : BlockGrid)
  deriving DecidableEq

structure DamageSummary where
  dirtyBlocks : Nat
  totalBlocks : Nat
  dirtyBlockRows : Nat
  totalBlockRows : Nat

variable (summary : DamageSummary)

def DamageSummary.isClean : Bool := summary.dirtyBlocks == 0

def DamageSummary.isFullDamage : Bool := summary.dirtyBlocks == summary.totalBlocks

/-! ### The damage tracker -/

structure DamageTracker where
  grid : BlockGrid
  kernel : HashKernel
  previousHashes : List UInt64
  dirtyBits : List Bool
  hasBaseline : Bool
  sized : previousHashes.length = grid.blockCount

def blockHashes (kernel : HashKernel) (grid : BlockGrid) (frame : BgraFrame) : List UInt64 :=
  (List.range grid.blockCount).map fun index => kernel frame (grid.blockBounds index)

theorem length_blockHashes (kernel : HashKernel) (grid : BlockGrid) (frame : BgraFrame) :
    (blockHashes kernel grid frame).length = grid.blockCount := by
  rw [blockHashes, length_map, length_range]

/-- No position differs, so the lists agree. -/
theorem countP_zipWith_bne_eq_zero [DecidableEq α] {first second : List α}
    (hl : first.length = second.length) :
    (zipWith (fun x y => !true || x != y) first second).countP id = 0 ↔ first = second := by
  induction first generalizing second with
  | nil => simp [length_eq_zero_iff.mp hl.symm]
  | cons x first ih =>
    cases second with
    | nil => cases hl
    | cons y =>
      have htail := ih (Nat.succ.inj hl)
      by_cases hxy : x = y
      · simp [← htail]
      · simp [hxy]

def rowIsDirty (grid : BlockGrid) (dirtyBits : List Bool) (blockRow : Nat) : Bool :=
  decide (blockRow < grid.blocksTall) && ((dirtyBits.drop (blockRow * grid.blocksWide)).take grid.blocksWide).any id

namespace DamageTracker

def new (grid : BlockGrid) (kernel : HashKernel) : DamageTracker where
  grid := grid
  kernel := kernel
  previousHashes := replicate grid.blockCount 0
  dirtyBits := replicate grid.blockCount false
  hasBaseline := false
  sized := length_replicate

variable (tracker : DamageTracker)

def reset : DamageTracker :=
  { tracker with hasBaseline := false, dirtyBits := tracker.dirtyBits.map fun _ => false }

def dirtyBlocks (frame : BgraFrame) : List Bool :=
  zipWith (fun previous hash => !tracker.hasBaseline || previous != hash) tracker.previousHashes
    (blockHashes tracker.kernel tracker.grid frame)

def update (frame : BgraFrame) : DamageTracker × Except KeelError DamageSummary :=
  if frame.grid ≠ tracker.grid then (tracker, .error (.geometryChanged tracker.grid frame.grid))
  else
    let dirtyBits := tracker.dirtyBlocks frame
    ({ tracker with
        previousHashes := blockHashes tracker.kernel tracker.grid frame
        dirtyBits
        hasBaseline := true
        sized := length_blockHashes .. },
      .ok
        { dirtyBlocks := dirtyBits.countP id
          totalBlocks := tracker.grid.blockCount
          dirtyBlockRows := (List.range tracker.grid.blocksTall).countP (rowIsDirty tracker.grid dirtyBits)
          totalBlockRows := tracker.grid.blocksTall })

variable {tracker : DamageTracker} {frame : BgraFrame}

/-- What an accepted frame leaves behind. -/
structure Accepts (tracker : DamageTracker) (frame : BgraFrame) (next : DamageTracker) (summary : DamageSummary) :
    Prop where
  grid : next.grid = tracker.grid
  kernel : next.kernel = tracker.kernel
  baseline : next.hasBaseline = true
  hashes : next.previousHashes = blockHashes tracker.kernel tracker.grid frame
  dirty : summary.dirtyBlocks = (tracker.dirtyBlocks frame).countP id

theorem Accepts.isClean_iff {next : DamageTracker} {summary : DamageSummary}
    (h : tracker.Accepts frame next summary) (hbase : tracker.hasBaseline = true) :
    summary.isClean = true ↔ tracker.previousHashes = blockHashes tracker.kernel tracker.grid frame := by
  have hl : tracker.previousHashes.length = (blockHashes tracker.kernel tracker.grid frame).length :=
    tracker.sized.trans (length_blockHashes ..).symm
  rw [DamageSummary.isClean, h.dirty, dirtyBlocks, hbase, beq_iff_eq]
  exact countP_zipWith_bne_eq_zero hl

theorem update_cases (tracker : DamageTracker) (frame : BgraFrame) :
    (∃ error, tracker.update frame = (tracker, .error error)) ∨
      ∃ next summary, tracker.update frame = (next, .ok summary) ∧ tracker.Accepts frame next summary := by
  unfold update
  split_ifs
  · exact .inl ⟨_, rfl⟩
  · exact .inr ⟨_, _, rfl, rfl, rfl, rfl, rfl, rfl⟩

end DamageTracker

/-! ### Activity -/

inductive ActivityClass where
  | idle
  | sparse
  | scroll
  | fullMotion
  deriving DecidableEq

inductive ActivityHint where
  | none
  | scroll
  deriving DecidableEq

inductive CadenceRecommendation where
  | keepalive
  | immediate
  | responsive
  | smooth
  | continuous
  deriving DecidableEq

def activityRollingWindow : Nat := 8
def dirtyRatioBasisPoints : Nat := 10000
def fullMotionRollingBasisPoints : Nat := 6000
def fullMotionInstantBasisPoints : Nat := 7500
def scrollMinDirtyBasisPoints : Nat := 1250
def scrollMinRowBasisPoints : Nat := 5000

/-- `DirtyRatio::from_counts`, in basis points. -/
def dirtyRatioFromCounts (dirty total : Nat) : Nat :=
  if dirty = 0 ∨ total = 0 then 0
  else min ((dirty * dirtyRatioBasisPoints + total / 2) / total) dirtyRatioBasisPoints

structure RollingRatios where
  values : List Nat
  sum : Nat
  next : Nat
  len : Nat

namespace RollingRatios

def new : RollingRatios := ⟨replicate activityRollingWindow 0, 0, 0, 0⟩

variable (rolling : RollingRatios)

def push (ratio : Nat) : RollingRatios :=
  let full := rolling.len = activityRollingWindow
  { values := rolling.values.set rolling.next ratio
    sum := (if full then rolling.sum - rolling.values.getD rolling.next 0 else rolling.sum) + ratio
    next := (rolling.next + 1) % activityRollingWindow
    len := if full then rolling.len else rolling.len + 1 }

def ratio : Nat :=
  if rolling.len = 0 then 0
  else
    let rounded := (rolling.sum + rolling.len / 2) / rolling.len
    if rounded < 2 ^ 16 then rounded else dirtyRatioBasisPoints

end RollingRatios

structure ActivityDiagnostics where
  updateSequence : Nat
  summary : DamageSummary
  currentDirtyRatio : Nat
  rollingDirtyRatio : Nat
  activityClass : ActivityClass
  cadence : CadenceRecommendation
  rollingSamples : Nat
  classStreak : Nat
  /-- This update established a fresh full-damage baseline. -/
  baselineRefresh : Bool

def ActivityDiagnostics.initial (grid : BlockGrid) : ActivityDiagnostics where
  updateSequence := 0
  summary := ⟨0, grid.blockCount, 0, grid.blocksTall⟩
  currentDirtyRatio := 0
  rollingDirtyRatio := 0
  activityClass := .idle
  cadence := .keepalive
  rollingSamples := 0
  classStreak := 0
  baselineRefresh := false

def cadenceForClass : ActivityClass → CadenceRecommendation
  | .idle => .keepalive
  | .sparse => .responsive
  | .scroll => .smooth
  | .fullMotion => .continuous

def classify (summary : DamageSummary) (currentDirtyRatio rollingDirtyRatio : Nat) (hint : ActivityHint) :
    ActivityClass :=
  if summary.isClean then .idle
  else if hint = .scroll then .scroll
  else if fullMotionInstantBasisPoints ≤ currentDirtyRatio ∨ fullMotionRollingBasisPoints ≤ rollingDirtyRatio then
    .fullMotion
  else if scrollMinDirtyBasisPoints ≤ currentDirtyRatio ∧
      scrollMinRowBasisPoints ≤ dirtyRatioFromCounts summary.dirtyBlockRows summary.totalBlockRows then
    .scroll
  else .sparse

structure ActivityGrid where
  damage : DamageTracker
  rolling : RollingRatios
  diagnostics : ActivityDiagnostics
  hasBaseline : Bool

/-- `saturating_add(1)` of a counter with the given maximum. -/
def saturatingIncrement (maximum n : Nat) : Nat := min (n + 1) maximum

namespace ActivityGrid

def fromDamageTracker (damage : DamageTracker) : ActivityGrid where
  damage := damage
  rolling := .new
  diagnostics := .initial damage.grid
  hasBaseline := false

def new (grid : BlockGrid) (kernel : HashKernel) : ActivityGrid := fromDamageTracker (.new grid kernel)

def reset (grid : ActivityGrid) : ActivityGrid where
  damage := grid.damage.reset
  rolling := .new
  diagnostics := .initial grid.damage.grid
  hasBaseline := false

/-- The activity of an accepted frame, from its damage. -/
def record (grid : ActivityGrid) (summary : DamageSummary) (hint : ActivityHint) : ActivityGrid :=
  let baselineRefresh := !grid.hasBaseline
  let currentDirtyRatio := dirtyRatioFromCounts summary.dirtyBlocks summary.totalBlocks
  let rolling := if baselineRefresh then grid.rolling else grid.rolling.push currentDirtyRatio
  let activityClass :=
    if baselineRefresh then .fullMotion else classify summary currentDirtyRatio rolling.ratio hint
  let last := grid.diagnostics
  { grid with
    rolling
    hasBaseline := true
    diagnostics :=
      { updateSequence := saturatingIncrement (2 ^ 64 - 1) last.updateSequence
        summary
        currentDirtyRatio
        rollingDirtyRatio := rolling.ratio
        activityClass
        cadence := if baselineRefresh then .immediate else cadenceForClass activityClass
        rollingSamples := rolling.len
        classStreak :=
          if last.updateSequence ≠ 0 ∧ last.activityClass = activityClass then
            saturatingIncrement (2 ^ 16 - 1) last.classStreak
          else 1
        baselineRefresh } }

def updateWithHint (grid : ActivityGrid) (frame : BgraFrame) (hint : ActivityHint) :
    ActivityGrid × Except KeelError ActivityDiagnostics :=
  let (damage, result) := grid.damage.update frame
  match result with
  | .error error => ({ grid with damage }, .error error)
  | .ok summary =>
    let next := { grid with damage }.record summary hint
    (next, .ok next.diagnostics)

/-- What an accepted frame leaves behind. -/
structure Accepts (grid : ActivityGrid) (frame : BgraFrame) (next : ActivityGrid) (diagnostics : ActivityDiagnostics) :
    Prop where
  damage : grid.damage.Accepts frame next.damage diagnostics.summary
  baseline : next.hasBaseline = true
  refresh : diagnostics.baselineRefresh = !grid.hasBaseline
  returned : next.diagnostics = diagnostics

theorem updateWithHint_cases (grid : ActivityGrid) (frame : BgraFrame) (hint : ActivityHint) :
    (∃ error, grid.updateWithHint frame hint = (grid, .error error)) ∨
      ∃ next diagnostics, grid.updateWithHint frame hint = (next, .ok diagnostics) ∧
        grid.Accepts frame next diagnostics := by
  unfold updateWithHint
  rcases grid.damage.update_cases frame with ⟨_, h⟩ | ⟨_, _, h, hacc⟩
  · rw [h]
    exact .inl ⟨_, rfl⟩
  · rw [h]
    exact .inr ⟨_, _, rfl, hacc, rfl, rfl, rfl⟩

end ActivityGrid

/-! ### Cadence -/

inductive EmitMode where
  | firstFrame
  | idr
  | activity
  | keepalive

/-- The emission is an independently decodable picture. -/
def EmitMode.isKeyframe : EmitMode → Bool
  | .firstFrame => true
  | .idr => true
  | _ => false

structure IdleCadence where
  keepalive : Duration
  hasFrame : Bool
  dirty : Bool
  first : Bool

namespace IdleCadence

def new (keepalive : Duration) : IdleCadence := ⟨keepalive, false, false, true⟩

variable (cadence : IdleCadence)

def noteFrame : IdleCadence := { cadence with hasFrame := true, dirty := true }

def decision (idrPending : Bool) (elapsedSinceEmit : Duration) : Option EmitMode :=
  if !cadence.hasFrame then none
  else if cadence.first then some .firstFrame
  else if idrPending then some .idr
  else if cadence.dirty then some .activity
  else if cadence.keepalive ≤ elapsedSinceEmit then some .keepalive
  else none

def onSubmitted : IdleCadence := { cadence with first := false, dirty := false }

section Decision

variable {cadence : IdleCadence} (hfr : cadence.hasFrame = true) (idrPending : Bool) (elapsedSinceEmit : Duration)

include hfr

theorem decision_isSome : (cadence.decision idrPending elapsedSinceEmit).isSome = true ↔
    cadence.first = true ∨ idrPending = true ∨ cadence.dirty = true ∨ cadence.keepalive ≤ elapsedSinceEmit := by
  rw [decision]
  split_ifs <;> simp_all

theorem decision_isKeyframe : (cadence.decision idrPending elapsedSinceEmit).any EmitMode.isKeyframe = true ↔
    cadence.first = true ∨ idrPending = true := by
  rw [decision]
  split_ifs <;> simp_all [EmitMode.isKeyframe]

theorem decision_none (h : cadence.decision idrPending elapsedSinceEmit = none) :
    cadence.first = false ∧ cadence.dirty = false := by
  rw [decision] at h
  split_ifs at h <;> simp_all

end Decision
end IdleCadence
end Arcen
