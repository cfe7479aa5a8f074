import Arcen.KeelActivity
import Arcen.Machine
import Arcen.RegionGeometry

/-! Per-region capture and encode service scheduling (`media/region_schedule.rs`, with the region-owned activity grid
of `media/region_activity.rs`): the damage of every captured frame, the keepalive cadence and the bounds of the policy
become one decision to serve the region or to skip it. -/

namespace Arcen

/-! ### The region-owned activity grid -/

structure RegionActivityOwner where
  generation : RegionGeneration
  regionId : RegionId

structure RegionActivityDiagnostics where
  generation : RegionGeneration
  regionId : RegionId
  grid : BlockGrid
  activity : ActivityDiagnostics

inductive RegionActivityError where
  | staleGeneration (current received : RegionGeneration)
  | unexpectedGeneration (current received : RegionGeneration)
  | regionMismatch (expected received : RegionId)
  | keel (error : KeelError)
  deriving DecidableEq

structure RegionActivityGrid where
  owner : RegionActivityOwner
  activity : ActivityGrid

namespace RegionActivityGrid

def new (owner : RegionActivityOwner) (grid : BlockGrid) (kernel : HashKernel) : RegionActivityGrid :=
  ⟨owner, .new grid kernel⟩

def fromDamageTracker (owner : RegionActivityOwner) (damage : DamageTracker) : RegionActivityGrid :=
  ⟨owner, .fromDamageTracker damage⟩

def diagnostics (grid : RegionActivityGrid) : RegionActivityDiagnostics where
  generation := grid.owner.generation
  regionId := grid.owner.regionId
  grid := grid.activity.damage.grid
  activity := grid.activity.diagnostics

def reset (grid : RegionActivityGrid) : RegionActivityGrid := { grid with activity := grid.activity.reset }

variable (grid : RegionActivityGrid)

def rebind (owner : RegionActivityOwner) : RegionActivityGrid × Except RegionActivityError Unit :=
  if owner.generation ≤ grid.owner.generation then
    (grid, .error (.staleGeneration grid.owner.generation owner.generation))
  else (⟨owner, grid.activity.reset⟩, .ok ())

def validateOwner (received : RegionActivityOwner) : Except RegionActivityError Unit :=
  if received.generation < grid.owner.generation then
    .error (.staleGeneration grid.owner.generation received.generation)
  else if grid.owner.generation < received.generation then
    .error (.unexpectedGeneration grid.owner.generation received.generation)
  else if received.regionId ≠ grid.owner.regionId then
    .error (.regionMismatch grid.owner.regionId received.regionId)
  else .ok ()

def updateWithHint (grid : RegionActivityGrid) (owner : RegionActivityOwner) (frame : BgraFrame)
    (hint : ActivityHint) : RegionActivityGrid × Except RegionActivityError RegionActivityDiagnostics :=
  match grid.validateOwner owner with
  | .error error => (grid, .error error)
  | .ok () =>
    let (activity, result) := grid.activity.updateWithHint frame hint
    match result with
    | .error error => ({ grid with activity }, .error (.keel error))
    | .ok _ => ({ grid with activity }, .ok (diagnostics { grid with activity }))

theorem updateWithHint_cases (owner : RegionActivityOwner) (frame : BgraFrame) (hint : ActivityHint) :
    (∃ error, grid.updateWithHint owner frame hint = (grid, .error error)) ∨
      ∃ next diagnostics, grid.updateWithHint owner frame hint = (next, .ok diagnostics) ∧
        grid.activity.Accepts frame next.activity diagnostics.activity := by
  unfold updateWithHint
  cases grid.validateOwner owner with
  | error => exact .inl ⟨_, rfl⟩
  | ok =>
    rcases grid.activity.updateWithHint_cases frame hint with ⟨_, h⟩ | ⟨_, _, h, hacc⟩
    · rw [h]
      exact .inl ⟨_, rfl⟩
    · rw [h]
      cases hacc.returned
      exact .inr ⟨_, _, rfl, hacc⟩

end RegionActivityGrid

/-! ### The policy -/

def minRegionFrameInterval : Duration := 1000000
def maxRegionFrameInterval : Duration := 1000000000
def maxRegionIdleRefresh : Duration := 10 * 1000000000
def maxRegionKeyframeInterval : Duration := 60 * 1000000000
def regionIdleBackoffStreak : Nat := 4
def regionIdleBackoffFactor : Nat := 8

inductive RegionSchedulePolicyError where
  | zeroTargetFps
  | frameInterval (value : Duration)
  | idleRefreshBelowFrameInterval (frameInterval maxIdleRefresh : Duration)
  | idleRefreshTooLong (value : Duration)
  | keyframeIntervalBelowIdleRefresh (maxIdleRefresh keyframeInterval : Duration)
  | keyframeIntervalTooLong (value : Duration)
  | inputWakeGraceTooLong (inputWakeGrace maxIdleRefresh : Duration)

/-- Validated service bounds for one region. -/
structure RegionSchedulePolicy where
  frameInterval : Duration
  maxIdleRefresh : Duration
  keyframeInterval : Duration
  inputWakeGrace : Duration
  frame_bounds : minRegionFrameInterval ≤ frameInterval ∧ frameInterval ≤ maxRegionFrameInterval
  idle_bounds : frameInterval ≤ maxIdleRefresh ∧ maxIdleRefresh ≤ maxRegionIdleRefresh
  keyframe_bounds : maxIdleRefresh ≤ keyframeInterval ∧ keyframeInterval ≤ maxRegionKeyframeInterval
  grace_le : inputWakeGrace ≤ maxIdleRefresh

namespace RegionSchedulePolicy

def new (frameInterval maxIdleRefresh keyframeInterval inputWakeGrace : Duration) :
    Except RegionSchedulePolicyError RegionSchedulePolicy :=
  if hframe : frameInterval < minRegionFrameInterval ∨ maxRegionFrameInterval < frameInterval then
    .error (.frameInterval frameInterval)
  else if hidle : maxIdleRefresh < frameInterval then
    .error (.idleRefreshBelowFrameInterval frameInterval maxIdleRefresh)
  else if hlong : maxRegionIdleRefresh < maxIdleRefresh then .error (.idleRefreshTooLong maxIdleRefresh)
  else if hkeyframe : keyframeInterval < maxIdleRefresh then
    .error (.keyframeIntervalBelowIdleRefresh maxIdleRefresh keyframeInterval)
  else if hrare : maxRegionKeyframeInterval < keyframeInterval then
    .error (.keyframeIntervalTooLong keyframeInterval)
  else if hgrace : maxIdleRefresh < inputWakeGrace then
    .error (.inputWakeGraceTooLong inputWakeGrace maxIdleRefresh)
  else
    .ok
      { frameInterval, maxIdleRefresh, keyframeInterval, inputWakeGrace
        frame_bounds := (not_or.mp hframe).imp Nat.not_lt.mp Nat.not_lt.mp
        idle_bounds := ⟨Nat.not_lt.mp hidle, Nat.not_lt.mp hlong⟩
        keyframe_bounds := ⟨Nat.not_lt.mp hkeyframe, Nat.not_lt.mp hrare⟩
        grace_le := Nat.not_lt.mp hgrace }

def fromTargetFps (targetFps : UInt32) (maxIdleRefresh keyframeInterval inputWakeGrace : Duration) :
    Except RegionSchedulePolicyError RegionSchedulePolicy :=
  if targetFps = 0 then .error .zeroTargetFps
  else new (1000000000 / targetFps.toNat) maxIdleRefresh keyframeInterval inputWakeGrace

end RegionSchedulePolicy

/-! ### Signals, decisions and telemetry -/

inductive ForcedKeyframe where
  | startup
  | clientRequest
  | recovery
  | reconfigure

structure RegionScheduleSignals where
  hint : ActivityHint := .none
  forcedKeyframe : Option ForcedKeyframe := none
  inputActivity : Bool := false

inductive RegionServiceAction where
  | serve
  | skip
  deriving DecidableEq

inductive RegionServiceReason where
  | startupBaseline
  | forcedKeyframe (kind : ForcedKeyframe)
  | keyframeDeadline
  | damage
  | inputWake
  | maxIdleRefresh
  | staticSuppressed

/-- Serving this reason requires a full independently decodable picture. -/
def RegionServiceReason.isKeyframe : RegionServiceReason → Bool
  | .startupBaseline => true
  | .forcedKeyframe _ => true
  | .keyframeDeadline => true
  | _ => false

structure RegionServiceDecision where
  action : RegionServiceAction
  reason : RegionServiceReason
  keyframe : Bool
  activity : RegionActivityDiagnostics
  cadence : CadenceRecommendation
  recommendedInterval : Duration
  deadlineRemaining : Duration

def RegionServiceDecision.serves (decision : RegionServiceDecision) : Bool := decision.action = .serve

structure RegionScheduleTelemetry where
  ticks : Nat := 0
  served : Nat := 0
  skipped : Nat := 0
  keyframes : Nat := 0
  damageServes : Nat := 0
  inputWakes : Nat := 0
  idleRefreshes : Nat := 0
  idleTicks : Nat := 0
  sparseTicks : Nat := 0
  scrollTicks : Nat := 0
  fullMotionTicks : Nat := 0
  serviceFailures : Nat := 0
  currentSkipStreak : Nat := 0
  maxSkipStreak : Nat := 0
  maxServiceGapMicros : Nat := 0

def u64SaturatingIncrement (n : Nat) : Nat := saturatingIncrement (2 ^ 64 - 1) n

namespace RegionScheduleTelemetry

variable (telemetry : RegionScheduleTelemetry)

def recordClass : ActivityClass → RegionScheduleTelemetry
  | .idle => { telemetry with idleTicks := u64SaturatingIncrement telemetry.idleTicks }
  | .sparse => { telemetry with sparseTicks := u64SaturatingIncrement telemetry.sparseTicks }
  | .scroll => { telemetry with scrollTicks := u64SaturatingIncrement telemetry.scrollTicks }
  | .fullMotion => { telemetry with fullMotionTicks := u64SaturatingIncrement telemetry.fullMotionTicks }

def recordReason : RegionServiceReason → RegionScheduleTelemetry
  | .damage => { telemetry with damageServes := u64SaturatingIncrement telemetry.damageServes }
  | .inputWake => { telemetry with inputWakes := u64SaturatingIncrement telemetry.inputWakes }
  | .maxIdleRefresh => { telemetry with idleRefreshes := u64SaturatingIncrement telemetry.idleRefreshes }
  | _ => telemetry

def recordServed (keyframe : Bool) : RegionScheduleTelemetry :=
  { telemetry with
    served := u64SaturatingIncrement telemetry.served
    keyframes := if keyframe then u64SaturatingIncrement telemetry.keyframes else telemetry.keyframes }

def recordSkipped : RegionScheduleTelemetry :=
  let streak := saturatingIncrement (2 ^ 32 - 1) telemetry.currentSkipStreak
  { telemetry with
    skipped := u64SaturatingIncrement telemetry.skipped
    currentSkipStreak := streak
    maxSkipStreak := max telemetry.maxSkipStreak streak }

/-- The longest gap between two services, in microseconds. -/
def recordServiceGap (gap : Duration) : RegionScheduleTelemetry :=
  let micros := gap / 1000
  { telemetry with
    maxServiceGapMicros := max telemetry.maxServiceGapMicros (if micros < 2 ^ 64 then micros else 2 ^ 64 - 1) }

end RegionScheduleTelemetry

/-! ### The scheduler -/

structure RegionActivityScheduler where
  policy : RegionSchedulePolicy
  activity : RegionActivityGrid
  cadence : IdleCadence
  telemetry : RegionScheduleTelemetry
  sinceService : Duration
  sinceKeyframe : Duration
  sinceInput : Option Duration
  pendingKeyframe : Bool
  committedSinceService : Duration
  committedSinceKeyframe : Duration
  lastDecision : Option RegionServiceDecision

/-- The action and its reason for what the cadence decided. -/
def serviceFor (mode : Option EmitMode) (forcedKeyframe : Option ForcedKeyframe) (pendingKeyframe dirty : Bool) :
    RegionServiceAction × RegionServiceReason :=
  match mode with
  | some .firstFrame => (.serve, .startupBaseline)
  | some .idr =>
    (.serve, match forcedKeyframe with
      | some kind => .forcedKeyframe kind
      | none => if pendingKeyframe then .forcedKeyframe .recovery else .keyframeDeadline)
  | some .activity => (.serve, if dirty then .damage else .inputWake)
  | some .keepalive => (.serve, .maxIdleRefresh)
  | none => (.skip, .staticSuppressed)

/-- The time since the last input signal, after a tick. -/
def inputClock (sinceInput : Option Duration) (elapsed : Duration) (inputActivity : Bool) : Option Duration :=
  match inputActivity, sinceInput with
  | true, _ => some 0
  | false, some since => some (.saturatingAdd since elapsed)
  | false, none => none

namespace RegionActivityScheduler

def fromActivityGrid (activity : RegionActivityGrid) (policy : RegionSchedulePolicy) : RegionActivityScheduler where
  policy := policy
  activity := activity
  cadence := .new policy.maxIdleRefresh
  telemetry := {}
  sinceService := 0
  sinceKeyframe := 0
  sinceInput := none
  pendingKeyframe := true
  committedSinceService := 0
  committedSinceKeyframe := 0
  lastDecision := none

def new (owner : RegionActivityOwner) (grid : BlockGrid) (kernel : HashKernel) (policy : RegionSchedulePolicy) :
    RegionActivityScheduler :=
  fromActivityGrid (.new owner grid kernel) policy

variable (scheduler : RegionActivityScheduler)

def deadlineRemaining : Duration :=
  min (scheduler.policy.maxIdleRefresh - scheduler.sinceService)
    (scheduler.policy.keyframeInterval - scheduler.sinceKeyframe)

def resetScheduleState : RegionActivityScheduler :=
  { scheduler with
    cadence := .new scheduler.policy.maxIdleRefresh
    sinceService := 0
    sinceKeyframe := 0
    sinceInput := none
    pendingKeyframe := true
    committedSinceService := 0
    committedSinceKeyframe := 0
    lastDecision := none }

def reset (scheduler : RegionActivityScheduler) : RegionActivityScheduler :=
  resetScheduleState { scheduler with activity := scheduler.activity.reset }

def rebind (scheduler : RegionActivityScheduler) (owner : RegionActivityOwner) :
    RegionActivityScheduler × Except RegionActivityError Unit :=
  let (activity, result) := scheduler.activity.rebind owner
  match result with
  | .error error => ({ scheduler with activity }, .error error)
  | .ok () => (resetScheduleState { scheduler with activity }, .ok ())

def commitService (keyframe : Bool) : RegionActivityScheduler :=
  { scheduler with
    committedSinceService := scheduler.sinceService
    committedSinceKeyframe := scheduler.sinceKeyframe
    telemetry := scheduler.telemetry.recordServiceGap scheduler.sinceService
    sinceService := 0
    sinceKeyframe := if keyframe then 0 else scheduler.sinceKeyframe
    pendingKeyframe := if keyframe then false else scheduler.pendingKeyframe }

def inputWakeActive : Bool :=
  scheduler.sinceInput.any (· ≤ scheduler.policy.inputWakeGrace)

def recommendedInterval (activity : RegionActivityDiagnostics) (inputWake : Bool) : Duration :=
  let frameInterval := scheduler.policy.frameInterval
  if inputWake || scheduler.pendingKeyframe then frameInterval
  else if activity.activity.cadence ≠ .keepalive ∨ activity.activity.activityClass ≠ .idle ∨
      activity.activity.classStreak < regionIdleBackoffStreak then
    frameInterval
  else
    max (min (min (min (frameInterval * regionIdleBackoffFactor) durationMax) scheduler.policy.maxIdleRefresh)
      scheduler.deadlineRemaining) frameInterval

/-- The clocks and counters of a tick, before anything is decided. -/
def tick (activityClass : ActivityClass) (elapsed : Duration) (inputActivity : Bool) : RegionActivityScheduler :=
  { scheduler with
    telemetry :=
      { scheduler.telemetry with ticks := u64SaturatingIncrement scheduler.telemetry.ticks }.recordClass activityClass
    sinceService := .saturatingAdd scheduler.sinceService elapsed
    sinceKeyframe := .saturatingAdd scheduler.sinceKeyframe elapsed
    sinceInput := inputClock scheduler.sinceInput elapsed inputActivity }

def announce (dirty baselineRefresh : Bool) : RegionActivityScheduler :=
  if dirty || baselineRefresh || scheduler.inputWakeActive then
    { scheduler with cadence := scheduler.cadence.noteFrame }
  else scheduler

/-- Whether a keyframe is owed. -/
def idrPending (forcedKeyframe : Option ForcedKeyframe) : Bool :=
  forcedKeyframe.isSome || decide (scheduler.policy.keyframeInterval ≤ scheduler.sinceKeyframe) ||
    scheduler.pendingKeyframe

/-- The effect of a decision on the schedule. -/
def settle (reason : RegionServiceReason) : RegionServiceAction → RegionActivityScheduler
  | .serve =>
    commitService
      { scheduler with
        telemetry :=
          { (scheduler.telemetry.recordServed reason.isKeyframe).recordReason reason with currentSkipStreak := 0 }
        cadence := scheduler.cadence.onSubmitted }
      reason.isKeyframe
  | .skip => { scheduler with telemetry := scheduler.telemetry.recordSkipped }

def ready (activity : ActivityDiagnostics) (elapsed : Duration) (inputActivity : Bool) : RegionActivityScheduler :=
  (scheduler.tick activity.activityClass elapsed inputActivity).announce (!activity.summary.isClean)
    activity.baselineRefresh

def emitMode (forcedKeyframe : Option ForcedKeyframe) : Option EmitMode :=
  scheduler.cadence.decision (scheduler.idrPending forcedKeyframe) scheduler.sinceService

variable (activity : RegionActivityDiagnostics)

def conclude
    (service : RegionServiceAction × RegionServiceReason) : RegionActivityScheduler × RegionServiceDecision :=
  let settled := scheduler.settle service.2 service.1
  let decision : RegionServiceDecision :=
    { action := service.1
      reason := service.2
      keyframe := service.2.isKeyframe
      activity
      cadence := activity.activity.cadence
      recommendedInterval := settled.recommendedInterval activity scheduler.inputWakeActive
      deadlineRemaining := settled.deadlineRemaining }
  ({ settled with lastDecision := some decision }, decision)

def advance (elapsed : Duration)
    (signals : RegionScheduleSignals) : RegionActivityScheduler × RegionServiceDecision :=
  let ready := scheduler.ready activity.activity elapsed signals.inputActivity
  ready.conclude activity
    (serviceFor (ready.emitMode signals.forcedKeyframe) signals.forcedKeyframe ready.pendingKeyframe
      (!activity.activity.summary.isClean))

def observe (owner : RegionActivityOwner) (frame : BgraFrame) (elapsed : Duration) (signals : RegionScheduleSignals) :
    RegionActivityScheduler × Except RegionActivityError RegionServiceDecision :=
  let (activity, result) := scheduler.activity.updateWithHint owner frame signals.hint
  match result with
  | .error error => ({ scheduler with activity }, .error error)
  | .ok diagnostics =>
    let (next, decision) := { scheduler with activity }.advance diagnostics elapsed signals
    (next, .ok decision)

def noteServiceFailed : RegionActivityScheduler :=
  let lostKeyframe := scheduler.lastDecision.any fun decision => decision.keyframe && decision.serves
  { scheduler with
    telemetry :=
      { scheduler.telemetry with
        serviceFailures := u64SaturatingIncrement scheduler.telemetry.serviceFailures }
    sinceService := scheduler.committedSinceService
    sinceKeyframe := scheduler.committedSinceKeyframe
    pendingKeyframe := if lostKeyframe then true else scheduler.pendingKeyframe
    cadence := scheduler.cadence.noteFrame }

def noteExternalService (keyframe : Bool) : RegionActivityScheduler :=
  let committed := scheduler.commitService keyframe
  { committed with telemetry := committed.telemetry.recordServed keyframe }

end RegionActivityScheduler

/-! ### Runs -/

inductive RegionScheduleCall where
  | observe (owner : RegionActivityOwner) (frame : BgraFrame) (elapsed : Duration) (signals : RegionScheduleSignals)
  | reset
  | rebind (owner : RegionActivityOwner)
  | noteServiceFailed
  | noteExternalService (keyframe : Bool)

inductive RegionScheduleReply where
  | decided (result : Except RegionActivityError RegionServiceDecision)
  | rebound (result : Except RegionActivityError Unit)
  | done

abbrev RegionScheduleEntry := RegionScheduleCall × RegionScheduleReply

def RegionActivityScheduler.step (scheduler : RegionActivityScheduler) :
    RegionScheduleCall → RegionActivityScheduler × RegionScheduleReply
  | .observe owner frame elapsed signals =>
    let (next, result) := scheduler.observe owner frame elapsed signals
    (next, .decided result)
  | .reset => (scheduler.reset, .done)
  | .rebind owner =>
    let (next, result) := scheduler.rebind owner
    (next, .rebound result)
  | .noteServiceFailed => (scheduler.noteServiceFailed, .done)
  | .noteExternalService keyframe => (scheduler.noteExternalService keyframe, .done)

def regionActivityScheduler (activity : RegionActivityGrid) (policy : RegionSchedulePolicy) :
    Machine RegionActivityScheduler RegionScheduleCall RegionScheduleReply where
  init := .fromActivityGrid activity policy
  step := RegionActivityScheduler.step

end Arcen
