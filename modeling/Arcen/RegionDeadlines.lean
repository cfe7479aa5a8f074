import Arcen.History
import Arcen.RegionScheduleSteps

/-! Service deadlines. The scheduler keeps its deadlines as clocks that a service clears and a failed service winds
back; here they are compared with the history of the run, in which a service counts only when it was not reported
lost. -/

namespace Arcen

open Duration RegionActivityScheduler RegionServiceDecision

/-- What became of the region at one observation. -/
inductive RegionService where
  | skipped
  | delivered (keyframe : Bool)
  | lost (keyframe : Bool)

structure RegionObservation where
  frame : BgraFrame
  elapsed : Duration
  input : Bool
  service : RegionService

inductive RegionEpisode where
  | restart
  | observed (observation : RegionObservation)

def RegionService.lose : RegionService → RegionService
  | .delivered keyframe => .lost keyframe
  | service => service

def RegionServiceDecision.service (decision : RegionServiceDecision) : RegionService :=
  if decision.serves then .delivered decision.keyframe else .skipped

/-- The history after one more entry of the log, newest episode first. Rejected calls leave no trace, and a reported
failure marks the service it follows as lost. -/
def recordEpisode (history : List RegionEpisode) : RegionScheduleEntry → List RegionEpisode
  | (.observe _ frame elapsed signals, .decided (.ok decision)) =>
    .observed ⟨frame, elapsed, signals.inputActivity, decision.service⟩ :: history
  | (.reset, _) => .restart :: history
  | (.rebind _, .rebound (.ok _)) => .restart :: history
  | (.noteServiceFailed, _) =>
    match history with
    | .observed observation :: earlier =>
      .observed { observation with service := observation.service.lose } :: earlier
    | _ => history
  | _ => history

variable (log : List RegionScheduleEntry)

def regionHistory : List RegionEpisode := log.foldl recordEpisode []

theorem regionHistory_concat (entry : RegionScheduleEntry) :
    regionHistory (log ++ [entry]) = recordEpisode (regionHistory log) entry := List.foldl_concat ..

namespace RegionEpisode

def elapsed : RegionEpisode → Duration
  | .restart => 0
  | .observed observation => observation.elapsed

def restarts : RegionEpisode → Bool
  | .restart => true
  | .observed _ => false

/-- A successful service, or a restart. -/
def endsIdle : RegionEpisode → Bool
  | .restart => true
  | .observed ⟨_, _, _, .delivered _⟩ => true
  | .observed _ => false

def endsKeyframe : RegionEpisode → Bool
  | .restart => true
  | .observed ⟨_, _, _, .delivered keyframe⟩ => keyframe
  | .observed _ => false

def loses : RegionEpisode → Bool
  | .observed ⟨_, _, _, .lost _⟩ => true
  | _ => false

def losesKeyframe : RegionEpisode → Bool
  | .observed ⟨_, _, _, .lost keyframe⟩ => keyframe
  | _ => false

end RegionEpisode

open RegionEpisode

variable (history : List RegionEpisode)

def elapsedSum : Duration := (history.map elapsed).sum

/-- The time since the last successful service, or since the start or the last restart. -/
def idleTime : Duration := elapsedSum (recent endsIdle history)

/-- The time since the last successful keyframe, or since the start or the last restart. -/
def keyframeTime : Duration := elapsedSum (recent endsKeyframe history)

def inputAge : List RegionEpisode → Option Duration
  | [] => none
  | .restart :: earlier => inputAge earlier
  | .observed observation :: earlier =>
    if observation.input then some 0 else (inputAge earlier).map (· + observation.elapsed)

/-- No frame was accepted since the start or the last restart. -/
def awaitsFirstFrame : Bool := (recent restarts history).isEmpty

/-- A keyframe was lost, and none was successful since. -/
def keyframeLost : Bool := (recent endsKeyframe history).any losesKeyframe

/-- A service was lost, and none was successful since. -/
def serviceFailed : Bool := (recent endsIdle history).any loses

def lastFrame : List RegionEpisode → Option BgraFrame
  | [] => none
  | .restart :: earlier => lastFrame earlier
  | .observed observation :: _ => some observation.frame

/-! ### The clocks -/

theorem inputClock_saturated (age : Option Duration) (elapsed : Duration) (inputActivity : Bool) :
    inputClock (age.map saturated) elapsed inputActivity =
      (if inputActivity then some 0 else age.map (· + elapsed)).map saturated := by
  cases inputActivity with
  | true => rfl
  | false =>
    cases age with
    | none => rfl
    | some since => exact congrArg some (saturatingAdd_saturated since elapsed)

theorem RegionSchedulePolicy.bounds_lt (policy : RegionSchedulePolicy) :
    policy.maxIdleRefresh < durationMax ∧ policy.keyframeInterval < durationMax ∧
      policy.inputWakeGrace < durationMax := by
  have hidle : policy.maxIdleRefresh < durationMax := Nat.lt_of_le_of_lt policy.idle_bounds.2 (by decide)
  have hkf : policy.keyframeInterval < durationMax := Nat.lt_of_le_of_lt policy.keyframe_bounds.2 (by decide)
  exact ⟨hidle, hkf, Nat.lt_of_le_of_lt policy.grace_le hidle⟩

section Episodes

variable (frame : BgraFrame) (elapsed : Duration) (input : Bool) (history : List RegionEpisode)

theorem idleTime_observed (decision : RegionServiceDecision) :
    idleTime (.observed ⟨frame, elapsed, input, decision.service⟩ :: history) =
      if decision.serves then 0 else idleTime history + elapsed := by
  unfold idleTime service
  cases decision.serves with
  | true => rfl
  | false => exact Nat.add_comm ..

variable {decision : RegionServiceDecision}

section

variable (hserves : decision.keyframe = true → decision.serves = true)
include hserves

theorem keyframeTime_observed : keyframeTime (.observed ⟨frame, elapsed, input, decision.service⟩ :: history) =
      if decision.keyframe then 0 else keyframeTime history + elapsed := by
  unfold keyframeTime service
  cases hkf : decision.keyframe with
  | true =>
    rw [hserves hkf]
    rfl
  | false => cases decision.serves <;> exact Nat.add_comm ..

theorem keyframeLost_observed : keyframeLost (.observed ⟨frame, elapsed, input, decision.service⟩ :: history) =
      if decision.keyframe then false else keyframeLost history := by
  unfold keyframeLost service
  cases hkf : decision.keyframe with
  | true =>
    rw [hserves hkf]
    rfl
  | false => cases decision.serves <;> rfl

end

theorem serviceFailed_observed (hfail : serviceFailed history = true → decision.serves = true) :
    serviceFailed (.observed ⟨frame, elapsed, input, decision.service⟩ :: history) = false := by
  unfold service
  cases hserves : decision.serves with
  | true => rfl
  | false =>
    rw [hserves] at hfail
    exact Bool.eq_false_iff.mpr fun h => Bool.noConfusion (hfail h)

end Episodes

/-! ### The schedule and the history -/

structure Tracks (activity : ActivityGrid) (policy : RegionSchedulePolicy) (history : List RegionEpisode)
    (scheduler : RegionActivityScheduler) : Prop where
  policy : scheduler.policy = policy
  keepalive : scheduler.cadence.keepalive = scheduler.policy.maxIdleRefresh
  kernel : scheduler.activity.activity.damage.kernel = activity.damage.kernel
  grid : scheduler.activity.activity.damage.grid = activity.damage.grid
  sinceService : scheduler.sinceService = saturated (idleTime history)
  sinceKeyframe : scheduler.sinceKeyframe = saturated (keyframeTime history)
  sinceInput : scheduler.sinceInput = (inputAge (recent restarts history)).map saturated
  first : scheduler.cadence.first = awaitsFirstFrame history
  hasFrame : scheduler.cadence.hasFrame = !awaitsFirstFrame history
  baseline : scheduler.activity.activity.hasBaseline = !awaitsFirstFrame history
  dirty : scheduler.cadence.dirty = serviceFailed history
  pendingKeyframe : scheduler.pendingKeyframe = (awaitsFirstFrame history || keyframeLost history)
  compared : awaitsFirstFrame history = false → scheduler.activity.activity.damage.hasBaseline = true ∧
    ∃ last, lastFrame history = some last ∧
      scheduler.activity.activity.damage.previousHashes = blockHashes activity.damage.kernel activity.damage.grid last
  /-- A service is kept until the next call, which may report it lost. -/
  committed : ∀ frame elapsed input keyframe earlier,
    history = .observed ⟨frame, elapsed, input, .delivered keyframe⟩ :: earlier →
      scheduler.committedSinceService = saturated (idleTime earlier + elapsed) ∧
      scheduler.committedSinceKeyframe = saturated (keyframeTime earlier + elapsed) ∧
      (scheduler.lastDecision.any fun decision => decision.keyframe && decision.serves) = keyframe

namespace Tracks

variable {activity : ActivityGrid} {policy : RegionSchedulePolicy} {history : List RegionEpisode}
  {sched next : RegionActivityScheduler}

variable {owned : RegionActivityGrid} {frame : BgraFrame} {elapsed : Duration}

theorem of_reset (hhist : history = [] ∨ ∃ earlier, history = .restart :: earlier) (hpoli : sched.policy = policy)
    (hkern : owned.activity.damage.kernel = activity.damage.kernel)
    (hgrid : owned.activity.damage.grid = activity.damage.grid) (hbase : owned.activity.hasBaseline = false) :
    Tracks activity policy history (resetScheduleState { sched with activity := owned }) := by
  have hemp : ∀ ends : RegionEpisode → Bool, ends .restart = true → recent ends history = [] := by
    intro ends hends
    rcases hhist with rfl | ⟨earlier, rfl⟩
    · rfl
    · rw [recent_cons, if_pos hends]
  have hawai : awaitsFirstFrame history = true := by rw [awaitsFirstFrame, hemp _ rfl]; rfl
  refine ⟨hpoli, ?_, hkern, hgrid, ?_, ?_, ?_, hawai.symm, ?_, ?_, ?_, ?_, ?_, ?_⟩
  · rfl
  · rw [idleTime, hemp _ rfl]
    rfl
  · rw [keyframeTime, hemp _ rfl]
    rfl
  · rw [hemp _ rfl]
    rfl
  · rw [hawai]
    rfl
  · rw [hawai]
    exact hbase
  · rw [serviceFailed, hemp _ rfl]
    rfl
  · rw [hawai]
    rfl
  · rw [hawai]
    nofun
  · rintro frame elapsed input keyframe earlier rfl
    rcases hhist with h | ⟨_, h⟩ <;> cases h

theorem observed {signals : RegionScheduleSignals} {decision : RegionServiceDecision}
    (h : Tracks activity policy history sched)
    (haccepts : sched.activity.activity.Accepts frame owned.activity diag)
    (hadvances : RegionActivityScheduler.Advances { sched with activity := owned } diag elapsed signals next
      decision) :
    Tracks activity policy (.observed ⟨frame, elapsed, signals.inputActivity, decision.service⟩ :: history) next := by
  have howned := hadvances.activity
  have hcade := hadvances.cadence
  refine ⟨hadvances.policy.trans h.policy, ?_, ?_, ?_, ?_, ?_, ?_, ?_, ?_, ?_, ?_, ?_, ?_, ?_⟩
  · rw [hcade, hadvances.policy]
    exact h.keepalive
  · rw [howned]
    exact haccepts.damage.kernel.trans h.kernel
  · rw [howned]
    exact haccepts.damage.grid.trans h.grid
  · rw [hadvances.sinceService, idleTime_observed, h.sinceService, saturatingAdd_saturated]
    cases decision.serves <;> rfl
  · rw [hadvances.sinceKeyframe, keyframeTime_observed _ _ _ _ hadvances.keyframe_serves, h.sinceKeyframe,
      saturatingAdd_saturated]
    cases decision.keyframe <;> rfl
  · rw [hadvances.sinceInput, h.sinceInput, inputClock_saturated]
    rfl
  · rw [hcade]
    rfl
  · rw [hcade]
    rfl
  · rw [howned]
    exact haccepts.baseline
  · rw [hcade, serviceFailed_observed]
    intro hfail
    exact hadvances.serves.mpr (.inr (.inl (h.dirty.trans hfail)))
  · rw [hadvances.pendingKeyframe, keyframeLost_observed _ _ _ _ hadvances.keyframe_serves, h.pendingKeyframe]
    cases hkf : decision.keyframe with
    | true => rfl
    | false =>
      -- a first frame would have been a keyframe
      have hf : sched.cadence.first = false := by
        refine Bool.eq_false_iff.mpr fun hf => ?_
        have htrue := hadvances.keyframe.mpr (.inl hf)
        rw [hkf] at htrue
        cases htrue
      rw [← h.first, hf]
      rfl
  · intro _
    rw [howned]
    refine ⟨haccepts.damage.baseline, frame, rfl, ?_⟩
    rw [haccepts.damage.hashes, h.kernel, h.grid]
  · intro frame elapsed input keyframe earlier hhist
    injection hhist with hepis hearly
    injection hepis with hobse
    injection hobse with _ hel _ hservi
    subst hearly hel
    unfold service at hservi
    split_ifs at hservi with hserves
    have hkf := RegionService.delivered.inj hservi
    obtain ⟨hsinceService, hsinceKeyframe⟩ := hadvances.committed hserves
    refine ⟨?_, ?_, ?_⟩
    · rw [hsinceService, h.sinceService, saturatingAdd_saturated]
    · rw [hsinceKeyframe, h.sinceKeyframe, saturatingAdd_saturated]
    · rw [hadvances.lastDecision, Option.any_some, hserves, hkf, Bool.and_true]

theorem hasFrame_or (h : Tracks activity policy history sched) :
    sched.cadence.hasFrame = true ∨ sched.activity.activity.hasBaseline = false := by
  rw [h.hasFrame, h.baseline]
  cases awaitsFirstFrame history <;> simp

/-- A service reported lost winds the clocks back to what they showed when it was decided. -/
theorem failed {input keyframe : Bool}
    (h : Tracks activity policy (.observed ⟨frame, elapsed, input, .delivered keyframe⟩ :: earlier) sched) :
    Tracks activity policy (.observed ⟨frame, elapsed, input, .lost keyframe⟩ :: earlier)
      sched.noteServiceFailed := by
  obtain ⟨hservi, hkf, hl⟩ := h.committed frame elapsed input keyframe earlier rfl
  refine ⟨h.policy, h.keepalive, h.kernel, h.grid, ?_, ?_, h.sinceInput, h.first, rfl, h.baseline, rfl, ?_,
    h.compared, nofun⟩
  · exact hservi.trans (congrArg saturated (Nat.add_comm ..))
  · exact hkf.trans (congrArg saturated (Nat.add_comm ..))
  · have hpend : sched.pendingKeyframe = if keyframe then false else keyframeLost earlier := by
      rw [h.pendingKeyframe]
      cases keyframe <;> rfl
    unfold noteServiceFailed
    simp only [hl, hpend]
    cases keyframe <;> rfl

end Tracks

/-- Failures are reported only directly after a decision to serve, and the host serves nothing on its own. -/
def Disciplined (log : List RegionScheduleEntry) : Prop := Throughout (fun before entry =>
    (entry.1 = .noteServiceFailed → ∃ front owner frame elapsed signals decision,
      before = front ++ [(.observe owner frame elapsed signals, .decided (.ok decision))] ∧ decision.serves = true) ∧
    ∀ keyframe, entry.1 ≠ .noteExternalService keyframe) log

section Runs

variable {activity : ActivityGrid} {policy : RegionSchedulePolicy} {log : List RegionScheduleEntry}
  {sched : RegionActivityScheduler}

section

variable (h : Tracks activity policy (regionHistory log) sched)
include h

variable (owner : RegionActivityOwner)

theorem tracks_observe (frame : BgraFrame) (elapsed : Duration) (signals : RegionScheduleSignals) :
    Tracks activity policy (recordEpisode (regionHistory log)
        (.observe owner frame elapsed signals, .decided (sched.observe owner frame elapsed signals).2))
      (sched.observe owner frame elapsed signals).1 := by
  rcases sched.observe_cases owner frame elapsed signals h.hasFrame_or with
    ⟨_, hobs⟩ | ⟨_, _, _, _, hobs, haccepts, hadvances⟩
  · rw [hobs]
    exact h
  · rw [hobs]
    exact h.observed haccepts hadvances

theorem tracks_rebind : Tracks activity policy
      (recordEpisode (regionHistory log) (.rebind owner, .rebound (sched.rebind owner).2))
      (sched.rebind owner).1 := by
  rcases sched.rebind_cases owner with ⟨error, hrebi⟩ | hrebi
  · rw [hrebi]
    exact h
  · rw [hrebi]
    exact Tracks.of_reset (.inr ⟨_, rfl⟩) h.policy h.kernel h.grid rfl

end

/-- **Step rule.** -/
theorem tracks_step (h : Disciplined log → Tracks activity policy (regionHistory log) sched)
    (call : RegionScheduleCall) (hd : Disciplined (log ++ [(call, (sched.step call).2)])) :
    Tracks activity policy (regionHistory (log ++ [(call, (sched.step call).2)])) (sched.step call).1 := by
  have ht := h hd.of_concat.1
  rw [regionHistory_concat]
  cases call with
  | observe owner frame elapsed signals => exact tracks_observe ht owner frame elapsed signals
  | reset => exact Tracks.of_reset (.inr ⟨_, rfl⟩) ht.policy ht.kernel ht.grid rfl
  | rebind owner => exact tracks_rebind ht owner
  | noteServiceFailed =>
    obtain ⟨_, _, _, _, _, decision, rfl, hserves⟩ := hd.of_concat.2.1 rfl
    have hservi : decision.service = .delivered decision.keyframe := if_pos hserves
    rw [regionHistory_concat] at ht ⊢
    simp only [recordEpisode, hservi] at ht ⊢
    exact ht.failed
  | noteExternalService keyframe => exact absurd rfl (hd.of_concat.2.2 keyframe)

end Runs

/-! ### Deadlines -/

/-- The blocks of the frame differ from those of the last accepted one. -/
def Damaged (activity : ActivityGrid) (history : List RegionEpisode) (frame : BgraFrame) : Prop :=
  ∃ last, lastFrame history = some last ∧ blockHashes activity.damage.kernel activity.damage.grid last ≠
    blockHashes activity.damage.kernel activity.damage.grid frame

variable (policy : RegionSchedulePolicy)

/-- The last input signal, which may come with the observation itself, is at most the grace old. -/
def InputAwake (age : Option Duration) (elapsed : Duration) (signals : RegionScheduleSignals) : Prop :=
  ∃ since, (if signals.inputActivity then some 0 else age.map (· + elapsed)) = some since ∧
    since ≤ policy.inputWakeGrace

/-- The observation has to be served with a keyframe. -/
def KeyframeOwed (history : List RegionEpisode) (elapsed : Duration) (signals : RegionScheduleSignals) : Prop :=
  awaitsFirstFrame history = true ∨ signals.forcedKeyframe.isSome = true ∨
    policy.keyframeInterval ≤ keyframeTime history + elapsed ∨ keyframeLost history = true

/-- The observation has to be served. -/
def ServiceOwed (activity : ActivityGrid) (policy : RegionSchedulePolicy) (history : List RegionEpisode)
    (frame : BgraFrame) (elapsed : Duration) (signals : RegionScheduleSignals) : Prop :=
  KeyframeOwed policy history elapsed signals ∨ policy.maxIdleRefresh ≤ idleTime history + elapsed ∨
    Damaged activity history frame ∨ InputAwake policy (inputAge (recent restarts history)) elapsed signals ∨
    serviceFailed history = true

section Deadlines

variable {activity : ActivityGrid} {policy : RegionSchedulePolicy} {history : List RegionEpisode}
  {sched next : RegionActivityScheduler} {owned : RegionActivityGrid} {frame : BgraFrame} {elapsed : Duration}
  {signals : RegionScheduleSignals} {diag : ActivityDiagnostics} {decision : RegionServiceDecision}

section

variable (h : Tracks activity policy history sched)
include h

section

variable (hadvances : RegionActivityScheduler.Advances { sched with activity := owned } diag elapsed signals next decision)
include hadvances

theorem Tracks.keyframe_iff : decision.keyframe = true ↔ KeyframeOwed policy history elapsed signals := by
  have hdue : sched.policy.keyframeInterval ≤ saturatingAdd sched.sinceKeyframe elapsed ↔
      policy.keyframeInterval ≤ keyframeTime history + elapsed := by
    rw [h.sinceKeyframe, saturatingAdd_saturated, h.policy]
    exact le_saturated_iff policy.bounds_lt.2.1 _
  have ho := hadvances.keyframe
  simp only [hdue, h.first, h.pendingKeyframe, Bool.or_eq_true] at ho
  rw [ho]
  constructor
  · rintro (hf | hforc | hlate | hf | hl)
    · exact .inl hf
    · exact .inr (.inl hforc)
    · exact .inr (.inr (.inl hlate))
    · exact .inl hf
    · exact .inr (.inr (.inr hl))
  · rintro (hf | hforc | hlate | hl)
    · exact .inl hf
    · exact .inr (.inl hforc)
    · exact .inr (.inr (.inl hlate))
    · exact .inr (.inr (.inr (.inr hl)))

theorem Tracks.awake_iff : (∃ since, next.sinceInput = some since ∧ since ≤ sched.policy.inputWakeGrace) ↔
      InputAwake policy (inputAge (recent restarts history)) elapsed signals := by
  rw [hadvances.sinceInput, h.sinceInput, inputClock_saturated, h.policy]
  simp only [Option.map_eq_some_iff]
  constructor
  · rintro ⟨_, ⟨since, hsnc, rfl⟩, hgrace⟩
    exact ⟨since, hsnc, (saturated_le_iff policy.bounds_lt.2.2 since).mp hgrace⟩
  · rintro ⟨since, hsnc, hgrace⟩
    exact ⟨_, ⟨since, hsnc, rfl⟩, (saturated_le_iff policy.bounds_lt.2.2 since).mpr hgrace⟩

end

section

variable (haccepts : sched.activity.activity.Accepts frame owned.activity diag)
include haccepts

theorem Tracks.damaged_iff (hawai : awaitsFirstFrame history = false) :
    diag.summary.isClean = false ↔ Damaged activity history frame := by
  obtain ⟨hbase, last, hlast, hhash⟩ := h.compared hawai
  have hcln := haccepts.damage.isClean_iff hbase
  rw [hhash, h.kernel, h.grid] at hcln
  rw [← Bool.not_eq_true, hcln, Damaged, hlast]
  constructor
  · exact fun hne => ⟨last, rfl, hne⟩
  · rintro ⟨_, hsome, hne⟩
    cases hsome
    exact hne

theorem Tracks.serves_iff
    (hadvances : RegionActivityScheduler.Advances { sched with activity := owned } diag elapsed signals next
      decision) : decision.serves = true ↔ ServiceOwed activity policy history frame elapsed signals := by
  have hdue : sched.cadence.keepalive ≤ saturatingAdd sched.sinceService elapsed ↔
      policy.maxIdleRefresh ≤ idleTime history + elapsed := by
    rw [h.sinceService, saturatingAdd_saturated, h.keepalive, h.policy]
    exact le_saturated_iff policy.bounds_lt.1 _
  have hserves := hadvances.serves
  rw [h.keyframe_iff hadvances, hdue, h.awake_iff hadvances, haccepts.refresh, h.baseline, h.dirty] at hserves
  rw [hserves]
  cases hawai : awaitsFirstFrame history with
  | true =>
    have ho : KeyframeOwed policy history elapsed signals := Or.inl hawai
    exact iff_of_true (.inl ho) (.inl ho)
  | false =>
    rw [h.damaged_iff haccepts hawai]
    constructor
    · rintro (hkf | hfail | hdama | hrefr | hawake | hlate)
      · exact .inl hkf
      · exact .inr (.inr (.inr (.inr hfail)))
      · exact .inr (.inr (.inl hdama))
      · cases hrefr
      · exact .inr (.inr (.inr (.inl hawake)))
      · exact .inr (.inl hlate)
    · rintro (hkf | hlate | hdama | hawake | hfail)
      · exact .inl hkf
      · exact .inr (.inr (.inr (.inr (.inr hlate))))
      · exact .inr (.inr (.inl hdama))
      · exact .inr (.inr (.inr (.inr (.inl hawake))))
      · exact .inr (.inl hfail)

end

end

end Deadlines

/-- **Service deadlines.** After every run in which failures are reported only directly after a decision to serve, an
accepted frame is served exactly when the history owes the region a service, with a keyframe exactly when it owes a
keyframe, and a rejected one changes nothing. -/
theorem region_service_deadlines (owned : RegionActivityGrid) (hfresh : owned.activity.hasBaseline = false)
    (policy : RegionSchedulePolicy) (calls : List RegionScheduleCall)
    (hdisciplined : Disciplined ((regionActivityScheduler owned policy).log calls)) (owner : RegionActivityOwner)
    (frame : BgraFrame) (elapsed : Duration) (signals : RegionScheduleSignals) :
    let scheduler := (regionActivityScheduler owned policy).exec calls
    let hist := regionHistory ((regionActivityScheduler owned policy).log calls)
    (∀ decision, (scheduler.observe owner frame elapsed signals).2 = .ok decision →
      (decision.action = .serve ↔ ServiceOwed owned.activity policy hist frame elapsed signals) ∧
      (decision.action = .skip ↔ ¬ServiceOwed owned.activity policy hist frame elapsed signals) ∧
      (decision.keyframe = true ↔ KeyframeOwed policy hist elapsed signals)) ∧
    (∀ error, (scheduler.observe owner frame elapsed signals).2 = .error error →
      (scheduler.observe owner frame elapsed signals).1 = scheduler) := by
  intro scheduler hist
  have ht : Tracks owned.activity policy hist scheduler := (regionActivityScheduler owned policy).log_invariant
    (P := fun log sched => Disciplined log → Tracks owned.activity policy (regionHistory log) sched)
    (fun _ => .of_reset (.inl rfl) (show (fromActivityGrid owned policy).policy = policy from rfl) rfl rfl hfresh)
    (fun _ _ call h => tracks_step h call) calls hdisciplined
  rcases scheduler.observe_cases owner frame elapsed signals ht.hasFrame_or with
    ⟨_, hobs⟩ | ⟨_, decision, _, _, hobs, haccepts, hadvances⟩
  · rw [hobs]
    refine ⟨fun _ hdec => ?_, fun _ _ => rfl⟩
    cases hdec
  rw [hobs]
  refine ⟨fun _ hdec => ?_, nofun⟩
  cases hdec
  have hserves := ht.serves_iff haccepts hadvances
  have hacti : decision.action = .serve ↔ decision.serves = true := decide_eq_true_iff.symm
  refine ⟨hacti.trans hserves, ?_, ht.keyframe_iff hadvances⟩
  rw [← hserves, ← hacti]
  cases decision.action <;> simp

/-! One region of a single pixel. -/

def pixelOwner : RegionActivityOwner := ⟨⟨1, u64_one_ne_zero⟩, ⟨1, u32_one_ne_zero⟩⟩

def pixelFrame : BgraFrame := ⟨[7, 7, 7, 255], ⟨1, 1, by decide⟩, 4, by decide, by decide⟩

def pixelRegion : RegionActivityGrid :=
  .new pixelOwner ⟨1, 1, by decide⟩ fun frame _ => (frame.pixels.headD 0).toUInt64

/-- A frame every 16 ms, a refresh every 160 ms, a keyframe every 960 ms, awake for 64 ms after an input. -/
def pixelPolicy : RegionSchedulePolicy where
  frameInterval := 16000000
  maxIdleRefresh := 160000000
  keyframeInterval := 960000000
  inputWakeGrace := 64000000
  frame_bounds := by decide
  idle_bounds := by decide
  keyframe_bounds := by decide
  grace_le := by decide

def pixelObserve (inputActivity : Bool) : RegionScheduleCall := .observe pixelOwner pixelFrame 0 { inputActivity }

/-- The first keyframe is lost, so the next frame, a millisecond later, is a keyframe again. -/
theorem region_service_deadlines_lost_keyframe : ∃ decision,
      (((regionActivityScheduler pixelRegion pixelPolicy).exec [pixelObserve false, .noteServiceFailed]).observe
        pixelOwner pixelFrame 1000000 {}).2 = .ok decision ∧ decision.action = .serve ∧ decision.keyframe = true := by
  have hf : Disciplined ((regionActivityScheduler pixelRegion pixelPolicy).log [pixelObserve false]) :=
    Throughout.nil.concat ⟨nofun, nofun⟩
  have hd : Disciplined ((regionActivityScheduler pixelRegion pixelPolicy).log
      [pixelObserve false, .noteServiceFailed]) :=
    hf.concat ⟨fun _ => ⟨[], pixelOwner, pixelFrame, 0, { inputActivity := false }, _, rfl, by decide⟩, nofun⟩
  have ho := region_service_deadlines pixelRegion rfl pixelPolicy [pixelObserve false, .noteServiceFailed]
    hd pixelOwner pixelFrame 1000000 {}
  obtain ⟨hserve, -, hkf⟩ := ho.1 _ rfl
  have hl : KeyframeOwed pixelPolicy (regionHistory ((regionActivityScheduler pixelRegion pixelPolicy).log
      [pixelObserve false, .noteServiceFailed])) 1000000 {} := Or.inr (Or.inr (Or.inr (by decide)))
  exact ⟨_, rfl, hserve.mpr (Or.inl hl), hkf.mpr hl⟩

/-- A reset forgets the input: the second frame after it, 10 ms after the last input signal, is skipped. -/
theorem region_input_before_reset_forgotten : let calls := [pixelObserve true, .reset, pixelObserve false]
    let machine := regionActivityScheduler pixelRegion pixelPolicy
    Disciplined (machine.log calls) ∧
      InputAwake pixelPolicy (inputAge (regionHistory (machine.log calls))) 10000000 {} ∧
      ((machine.exec calls).observe pixelOwner pixelFrame 10000000 {}).2.map action = .ok .skip := by
  intro calls machine
  have hf : Disciplined (machine.log [pixelObserve true]) := Throughout.nil.concat ⟨nofun, nofun⟩
  have hreset : Disciplined (machine.log [pixelObserve true, .reset]) := hf.concat ⟨nofun, nofun⟩
  have hd : Disciplined (machine.log calls) := hreset.concat ⟨nofun, nofun⟩
  exact ⟨hd, ⟨10000000, by decide +kernel, by decide⟩, by decide +kernel⟩

end Arcen
