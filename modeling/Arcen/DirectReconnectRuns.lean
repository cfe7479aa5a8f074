import Arcen.DirectReconnect
import Arcen.History

/-! Runs of the reconnect model. Every transition is one of seven moves; what holds over a whole run (one timer at a
time, one release of the leases, no way back to an attached session but a resume before its deadline) is read off
the moves. -/

namespace Arcen

open DirectReconnect List

def ReconnectState.armed : ReconnectState → Option (MonotonicMillis × UInt64)
  | .detached deadline timerGeneration => some (deadline, timerGeneration)
  | .resuming deadline timerGeneration => some (deadline, timerGeneration)
  | _ => none

/-- The session has not started its terminal cleanup. -/
def ReconnectState.isOpen : ReconnectState → Bool
  | .draining => false
  | .closed => false
  | _ => true

theorem ReconnectState.isOpen_of_armed {state : ReconnectState} (h : state.armed = some timer) : state.isOpen = true := by
  cases state <;> first | rfl | cases h

namespace DirectReconnect

inductive Moves (model : DirectReconnect) (event : ReconnectEvent) (now : MonotonicMillis) :
    DirectReconnect × ReconnectActions → Prop
  | rest : Moves model event now (model, {})
  | detach (hstate : model.state = .attached) (hevent : event = .unexpectedLoss) :
      Moves model event now (model.detach now)
  | drain (hopen : model.state.isOpen = true)
      (hdeadline : ∀ timerGeneration, event = .deadlineReached timerGeneration →
        ∃ deadline, model.state.armed = some (deadline, timerGeneration) ∧ deadline ≤ now) :
      Moves model event now (model.beginDrain (model.state.armed.map Prod.snd))
  | begin {deadline : MonotonicMillis} {timerGeneration : UInt64}
      (hstate : model.state = .detached deadline timerGeneration) (hevent : event = .beginResume)
      (hearly : now < deadline) :
      Moves model event now ({ model with state := .resuming deadline timerGeneration }, {})
  | accept {deadline : MonotonicMillis} {timerGeneration : UInt64}
      (hstate : model.state = .resuming deadline timerGeneration) (hevent : event = .resumeAccepted)
      (hearly : now < deadline) : Moves model event now ({ model with state := .attached },
        { startMedia := true, resetInput := true, rotateGrant := true, timer := .cancel timerGeneration })
  | fail {deadline : MonotonicMillis} {timerGeneration : UInt64}
      (hstate : model.state = .resuming deadline timerGeneration) (hevent : event = .resumeFailed)
      (hearly : now < deadline) : Moves model event now ({ model with state := .detached deadline timerGeneration },
        { resetInput := true, closeTransport := true })
  | close (hstate : model.state = .draining) (hevent : event = .drainComplete) :
      Moves model event now ({ model with state := .closed }, {})

section Moves

variable {model : DirectReconnect} {event : ReconnectEvent} {now deadline : MonotonicMillis} {timerGeneration : UInt64}

theorem moves_drain (ho : model.state.isOpen = true) (ht : model.state.armed.map Prod.snd = timer)
    (hdead : ∀ timerGeneration, event = .deadlineReached timerGeneration →
      ∃ deadline, model.state.armed = some (deadline, timerGeneration) ∧ deadline ≤ now) :
    Moves model event now (model.beginDrain timer) := ht ▸ .drain ho hdead

theorem moves_overdue (ha : model.state.armed = some (deadline, active))
    (hev : ∀ timerGeneration, event ≠ .deadlineReached timerGeneration)
    (hoth : now < deadline → Moves model event now other) :
    Moves model event now (if deadline ≤ now then model.beginDrain (some active) else other) := by
  split_ifs with hlate
  · exact moves_drain (ReconnectState.isOpen_of_armed ha) (by rw [ha]; rfl) fun gen h => absurd h (hev gen)
  · exact hoth (Nat.not_le.mp hlate)

theorem moves_deadlineReached (ha : model.state.armed = some (deadline, active)) :
    Moves model (.deadlineReached timerGeneration) now
      (if timerGeneration = active ∧ deadline ≤ now then model.beginDrain (some active) else (model, {})) := by
  split_ifs with hr
  · refine moves_drain (ReconnectState.isOpen_of_armed ha) (by rw [ha]; rfl) fun gen h => ?_
    cases h
    exact ⟨deadline, by rw [ha, hr.1], hr.2⟩
  · exact .rest

theorem apply_moves (model : DirectReconnect) (event : ReconnectEvent) (now : MonotonicMillis) :
    Moves model event now (model.apply event now) := by
  obtain ⟨_, state, _⟩ := model
  cases state with
  | disabled => cases event <;> first | exact .rest | exact moves_drain rfl rfl nofun
  | attached =>
    cases event <;> first | exact .rest | exact .detach rfl rfl | exact moves_drain rfl rfl nofun
  | detached =>
    cases event with
    | unexpectedLoss | drainComplete => exact .rest
    | explicitDisconnect | nativeSessionEnded | ownerCrashed => exact moves_drain rfl rfl nofun
    | beginResume =>
      simp only [apply]
      split_ifs with hearly
      · exact .begin rfl rfl hearly
      · exact moves_drain rfl rfl nofun
    | resumeAccepted | resumeFailed => exact moves_overdue rfl (by nofun) fun _ => .rest
    | deadlineReached => exact moves_deadlineReached rfl
  | resuming =>
    cases event with
    | unexpectedLoss | drainComplete => exact .rest
    | explicitDisconnect | nativeSessionEnded | ownerCrashed => exact moves_drain rfl rfl nofun
    | beginResume => exact moves_overdue rfl (by nofun) fun _ => .rest
    | resumeAccepted => exact moves_overdue rfl (by nofun) fun hearly => .accept rfl rfl hearly
    | resumeFailed => exact moves_overdue rfl (by nofun) fun hearly => .fail rfl rfl hearly
    | deadlineReached => exact moves_deadlineReached rfl
  | draining => cases event <;> first | exact .close rfl rfl | exact .rest
  | closed => cases event <;> exact .rest

end Moves
end DirectReconnect

/-! ### Runs -/

/-- One event of a run: the state it found, what it emitted, the state it left. -/
structure ReconnectTransition where
  before : ReconnectState
  actions : ReconnectActions
  after : ReconnectState

/-- The model as a machine, from a fresh one. -/
def directReconnect (policy : ReconnectPolicy) :
    Machine DirectReconnect (ReconnectEvent × MonotonicMillis) ReconnectTransition where
  init := .new policy
  step model call :=
    let next := model.apply call.1 call.2
    (next.1, ⟨model.state, next.2, next.1.state⟩)

abbrev ReconnectEntry := (ReconnectEvent × MonotonicMillis) × ReconnectTransition

def reconnectEntry (model : DirectReconnect) (event : ReconnectEvent) (now : MonotonicMillis)
    (next : DirectReconnect × ReconnectActions) : ReconnectEntry :=
  ((event, now), ⟨model.state, next.2, next.1.state⟩)

def Arms (deadline : MonotonicMillis) (timerGeneration : UInt64) (entry : ReconnectEntry) : Prop :=
  entry.2.actions.timer = .arm deadline timerGeneration

variable (entry : ReconnectEntry)

/-- The event left the timers alone. -/
def TimerIdle : Prop := entry.2.actions.timer = .none

def armedGeneration : Option UInt64 :=
  match entry.2.actions.timer with
  | .arm _ timerGeneration => some timerGeneration
  | _ => none

def cancelledGeneration : Option UInt64 :=
  match entry.2.actions.timer with
  | .cancel timerGeneration => some timerGeneration
  | _ => none

variable (deadline : MonotonicMillis)

variable (timerGeneration : UInt64)

def TimerRuns (log : List ReconnectEntry) : Prop := Since (Arms deadline timerGeneration) TimerIdle log

/-- The event began a resume before the deadline. -/
def BeginsResume (entry : ReconnectEntry) : Prop := entry.1.1 = .beginResume ∧ entry.1.2 < deadline

/-- The timer armed last runs, and since then a resume began before its deadline and is under way. -/
def ResumeUnderWay (log : List ReconnectEntry) : Prop :=
  ∃ before arming after, log = before ++ arming :: after ∧ Arms deadline timerGeneration arming ∧
    (∀ entry ∈ after, TimerIdle entry) ∧
    Since (BeginsResume deadline) (fun entry => entry.2.after = .resuming deadline timerGeneration) after

variable {deadline : MonotonicMillis} {timerGeneration : UInt64} {log : List ReconnectEntry}

theorem ResumeUnderWay.timerRuns (h : ResumeUnderWay deadline timerGeneration log)
    : TimerRuns deadline timerGeneration log := by
  obtain ⟨before, arming, after, hlog, harms, hidle, -⟩ := h
  exact ⟨before, arming, after, hlog, harms, hidle⟩

/-- What a state says about the events that led to it. -/
structure Armed (log : List ReconnectEntry) (state : ReconnectState) : Prop where
  runs : ∀ deadline timerGeneration, state.armed = some (deadline, timerGeneration) →
    TimerRuns deadline timerGeneration log
  underWay : ∀ deadline timerGeneration, state = .resuming deadline timerGeneration →
    ResumeUnderWay deadline timerGeneration log
  stopped : state.armed ≠ none →
    Since (fun entry => entry.2.actions.stopMedia = true) (fun entry => entry.2.actions.startMedia = false) log

theorem armed_of_none {state : ReconnectState} (h : state.armed = none) : Armed log state where
  runs := fun _ _ ha => by rw [h] at ha; cases ha
  underWay := fun _ _ hst => by rw [hst] at h; cases h
  stopped := fun ha => absurd h ha

variable {entry : ReconnectEntry} {model : DirectReconnect}

theorem ResumeUnderWay.keep (h : ResumeUnderWay deadline timerGeneration log) (hidle : TimerIdle entry)
    (haft : entry.2.after = .resuming deadline timerGeneration) :
    ResumeUnderWay deadline timerGeneration (log ++ [entry]) := by
  obtain ⟨before, arming, after, rfl, harms, hidles, hbegun⟩ := h
  exact ⟨before, arming, after ++ [entry], by simp, harms,
    forall_mem_append.mpr ⟨hidles, forall_mem_singleton.mpr hidle⟩, hbegun.step haft⟩

theorem TimerRuns.begin (h : TimerRuns deadline timerGeneration log) (hidle : TimerIdle entry)
    (hbegi : BeginsResume deadline entry) : ResumeUnderWay deadline timerGeneration (log ++ [entry]) := by
  obtain ⟨before, arming, after, rfl, harms, hidles⟩ := h
  exact ⟨before, arming, after ++ [entry], by simp, harms,
    forall_mem_append.mpr ⟨hidles, forall_mem_singleton.mpr hidle⟩, .now after hbegi⟩

theorem Armed.step {next : DirectReconnect × ReconnectActions} (h : Armed log model.state)
    (hmv : model.Moves event now next) : Armed (log ++ [reconnectEntry model event now next]) next.1.state := by
  cases hmv with
  | rest =>
    exact ⟨fun deadline gen ha => (h.runs deadline gen ha).step rfl,
      fun deadline gen hst => (h.underWay deadline gen hst).keep rfl hst, fun ha => (h.stopped ha).step rfl⟩
  | detach =>
    refine ⟨fun deadline gen ha => .now log ?_, nofun, fun _ => .now log rfl⟩
    cases ha
    rfl
  | drain | accept | close => exact armed_of_none rfl
  | begin hst hev hearly =>
    have hruns := h.runs _ _ (by rw [hst]; rfl)
    refine ⟨fun deadline gen ha => ?_, fun deadline gen hresu => ?_,
      fun _ => (h.stopped (by rw [hst]; exact nofun)).step rfl⟩
    · cases ha
      exact hruns.step rfl
    · cases hresu
      exact hruns.begin rfl ⟨hev, hearly⟩
  | fail hst =>
    have hruns := h.runs _ _ (by rw [hst]; rfl)
    refine ⟨fun deadline gen ha => ?_, nofun, fun _ => (h.stopped (by rw [hst]; exact nofun)).step rfl⟩
    cases ha
    exact hruns.step rfl

/-! ### Counting timers and releases -/

def armedGenerations (log : List ReconnectEntry) : List UInt64 := log.filterMap armedGeneration

def cancelledGenerations (log : List ReconnectEntry) : List UInt64 := log.filterMap cancelledGeneration

def Releases (entry : ReconnectEntry) : Bool := entry.2.actions.restoreLeases

theorem toNat_u64SaturatingSucc (n : UInt64) : (u64SaturatingSucc n).toNat = min (n.toNat + 1) (2 ^ 64 - 1) := by
  have hbd := n.toNat_lt
  unfold u64SaturatingSucc u64CheckedSucc
  split_ifs with hlt
  · rw [Option.getD_some, UInt64.toNat_add, UInt64.toNat_one]
    omega
  · rw [Option.getD_none]
    omega

structure Counted (log : List ReconnectEntry) (model : DirectReconnect) : Prop where
  /-- Every armed timer but the running one was cancelled, in order. -/
  timers : armedGenerations log = cancelledGenerations log ++ (model.state.armed.map Prod.snd).toList
  next : model.nextTimerGeneration.toNat = min ((armedGenerations log).length + 1) (2 ^ 64 - 1)
  numbered : (armedGenerations log).length < 2 ^ 64 →
    (armedGenerations log).map UInt64.toNat = range' 1 (armedGenerations log).length
  releases : log.countP Releases = if model.state.isOpen then 0 else 1

section Counted

variable {log : List ReconnectEntry} {model : DirectReconnect} {event : ReconnectEvent} {now : MonotonicMillis}
  {next : DirectReconnect × ReconnectActions} {entry : ReconnectEntry}

theorem armedGenerations_concat :
    armedGenerations (log ++ [entry]) = armedGenerations log ++ (armedGeneration entry).toList :=
  filterMap_concat armedGeneration log entry

theorem cancelledGenerations_concat :
    cancelledGenerations (log ++ [entry]) = cancelledGenerations log ++ (cancelledGeneration entry).toList :=
  filterMap_concat cancelledGeneration log entry

theorem countP_releases_concat : (log ++ [entry]).countP Releases = log.countP Releases + (Releases entry).toNat := by
  rw [countP_append, countP_singleton]
  cases Releases entry <;> rfl

/-- An event that arms nothing keeps the numbering. -/
theorem Counted.keep (h : Counted log model) (harms : armedGeneration entry = none) {after : DirectReconnect}
    (hnext : after.nextTimerGeneration = model.nextTimerGeneration) (htime : (model.state.armed.map Prod.snd).toList =
      (cancelledGeneration entry).toList ++ (after.state.armed.map Prod.snd).toList)
    (hrele : (if model.state.isOpen then 0 else 1) + (Releases entry).toNat = if after.state.isOpen then 0 else 1) :
    Counted (log ++ [entry]) after := by
  have hsame : armedGenerations (log ++ [entry]) = armedGenerations log := by
    rw [armedGenerations_concat, harms, Option.toList_none, append_nil]
  refine ⟨?_, ?_, ?_, ?_⟩
  · rw [hsame, h.timers, cancelledGenerations_concat, append_assoc, htime]
  · rw [hsame, hnext, h.next]
  · rw [hsame]
    exact h.numbered
  · rw [countP_releases_concat, h.releases, hrele]

theorem Counted.detach (h : Counted log model) (hst : model.state = .attached) :
    Counted (log ++ [reconnectEntry model event now (model.detach now)]) (model.detach now).1 := by
  have ha : armedGenerations (log ++ [reconnectEntry model event now (model.detach now)]) =
      armedGenerations log ++ [model.nextTimerGeneration] := armedGenerations_concat
  have hcance : cancelledGenerations (log ++ [reconnectEntry model event now (model.detach now)]) =
      cancelledGenerations log := by
    rw [cancelledGenerations_concat]
    exact append_nil _
  have htime := h.timers
  rw [hst] at htime
  refine ⟨?_, ?_, ?_, ?_⟩
  · rw [ha, hcance, htime]
    exact congrArg (· ++ _) (append_nil _)
  · rw [ha, length_append, length_singleton]
    refine (toNat_u64SaturatingSucc _).trans ?_
    rw [h.next]
    omega
  · rw [ha, length_append, length_singleton]
    intro hfew
    have hnum : model.nextTimerGeneration.toNat = 1 + (armedGenerations log).length := by
      rw [h.next]
      omega
    rw [map_append, map_singleton, h.numbered (by omega), hnum, range'_1_concat]
  · rw [countP_releases_concat, h.releases, hst]
    rfl

theorem Counted.step (h : Counted log model) (hmv : model.Moves event now next) :
    Counted (log ++ [reconnectEntry model event now next]) next.1 := by
  cases hmv with
  | rest => exact h.keep rfl rfl rfl rfl
  | detach hst => exact h.detach hst
  | drain ho =>
    refine h.keep ?_ rfl ?_ ?_
    · cases hst : model.state.armed <;> simp [armedGeneration, reconnectEntry, beginDrain]
    · cases hst : model.state.armed <;>
        simp [cancelledGeneration, reconnectEntry, beginDrain, ReconnectState.armed]
    · rw [ho]
      rfl
  | begin hst
  | accept hst
  | fail hst
  | close hst => exact h.keep rfl rfl (by rw [hst]; rfl) (by rw [hst]; rfl)

end Counted

/-! ### Timed safety -/

/-- What an event may do after the events before it. -/
structure ReconnectSafe (log : List ReconnectEntry) (entry : ReconnectEntry) : Prop where
  /-- The session is attached again only when a resume that began before the deadline of the last detachment is
  accepted before it. -/
  attaches : entry.2.before ≠ .attached → entry.2.after = .attached → entry.1.1 = .resumeAccepted ∧
      ∃ deadline timerGeneration, ResumeUnderWay deadline timerGeneration log ∧ entry.1.2 < deadline
  /-- The deadline in force is the one the last detachment armed. -/
  deadline : ∀ deadline timerGeneration, entry.2.before.armed = some (deadline, timerGeneration) →
    TimerRuns deadline timerGeneration log
  cancels : ∀ timerGeneration, entry.2.actions.timer = .cancel timerGeneration →
    ∃ deadline, TimerRuns deadline timerGeneration log
  /-- The timer is cancelled when the session stops waiting for it. -/
  leaves : ∀ deadline timerGeneration, entry.2.before.armed = some (deadline, timerGeneration) →
    entry.2.after.armed = none → entry.2.actions.timer = .cancel timerGeneration
  /-- An early or stale deadline changes nothing. -/
  reached : ∀ timerGeneration, entry.1.1 = .deadlineReached timerGeneration →
    entry.2.after = entry.2.before ∧ entry.2.actions = {} ∨
      ∃ deadline, TimerRuns deadline timerGeneration log ∧ deadline ≤ entry.1.2
  /-- Leases are restored and the grant revoked together, at the transition to draining. -/
  releases : entry.2.actions.restoreLeases = entry.2.actions.revokeGrant ∧
    (entry.2.actions.restoreLeases = true ↔ entry.2.before ≠ .draining ∧ entry.2.after = .draining)
  /-- Afterwards nothing is emitted. -/
  silent : (∃ earlier ∈ log, earlier.2.actions.restoreLeases = true) → entry.2.actions = {}
  /-- Media starts with a new grant, after it was stopped. -/
  media : entry.2.actions.startMedia = entry.2.actions.rotateGrant ∧
    (entry.2.actions.startMedia = true → Since (fun entry => entry.2.actions.stopMedia = true)
      (fun entry => entry.2.actions.startMedia = false) log)

section Safe

variable {log : List ReconnectEntry} {model : DirectReconnect} {event : ReconnectEvent} {now : MonotonicMillis}
  {next : DirectReconnect × ReconnectActions}

theorem Counted.isOpen_eq_false (h : Counted log model)
    (hrelea : ∃ earlier ∈ log, earlier.2.actions.restoreLeases = true) : model.state.isOpen = false := by
  obtain ⟨earlier, hearl, hrel⟩ := hrelea
  have hpos : 0 < log.countP Releases := countP_pos_iff.mpr ⟨earlier, hearl, hrel⟩
  rw [h.releases] at hpos
  cases ho : model.state.isOpen with
  | true => rw [ho] at hpos; exact absurd hpos (Nat.lt_irrefl 0)
  | false => rfl

/-- A move of an open session is no threat to the silence after the release. -/
theorem Counted.silent (h : Counted log model) (ho : model.state.isOpen = true) {actions : ReconnectActions}
    (hrelea : ∃ earlier ∈ log, earlier.2.actions.restoreLeases = true) : actions = {} := by
  rw [h.isOpen_eq_false hrelea] at ho
  cases ho

/-- **Step rule.** Every move is safe after a log the invariants hold of. -/
theorem reconnectSafe_of_moves (ha : Armed log model.state) (hcnt : Counted log model)
    (hmv : model.Moves event now next) : ReconnectSafe log (reconnectEntry model event now next) := by
  cases hmv with
  | rest =>
    exact ⟨fun hp haft => absurd haft hp, ha.runs, nofun,
      fun _ _ hsome hnone => absurd (hsome.symm.trans hnone) nofun, fun _ _ => .inl ⟨rfl, rfl⟩,
      ⟨rfl, nofun, fun h => absurd h.2 h.1⟩, fun _ => rfl, rfl, nofun⟩
  | detach hst hev | fail hst hev =>
    refine ⟨nofun, ha.runs, nofun, fun _ _ _ => nofun, ?_, ⟨rfl, nofun, nofun⟩,
      hcnt.silent (by rw [hst]; rfl), rfl, nofun⟩
    intro gen hr
    exact absurd (hev.symm.trans hr) nofun
  | drain ho hdead =>
    refine ⟨nofun, ha.runs, ?_, ?_, ?_, ⟨rfl, fun _ => ⟨?_, rfl⟩, fun _ => rfl⟩, hcnt.silent ho, rfl, nofun⟩
    · intro gen hc
      cases ht : model.state.armed with
      | none =>
        simp only [beginDrain, ht] at hc
        cases hc
      | some timer =>
        simp only [beginDrain, ht] at hc
        cases hc
        exact ⟨timer.1, ha.runs timer.1 timer.2 ht⟩
    · intro deadline gen hp _
      change model.state.armed = _ at hp
      simp only [reconnectEntry, beginDrain, hp, Option.map_some, Option.elim_some]
    · intro gen hr
      obtain ⟨deadline, ht, hlate⟩ := hdead gen hr
      exact .inr ⟨deadline, ha.runs deadline gen ht, hlate⟩
    · intro hdrain
      change model.state = _ at hdrain
      rw [hdrain] at ho
      cases ho
  | begin _ hev =>
    refine ⟨nofun, ha.runs, nofun, fun _ _ _ => nofun, ?_, ⟨rfl, nofun, nofun⟩, fun _ => rfl, rfl, nofun⟩
    intro gen hr
    exact absurd (hev.symm.trans hr) nofun
  | @accept deadline gen hst hev hearly =>
    have hunderWay := ha.underWay deadline gen hst
    have ht : model.state.armed = some (deadline, gen) := by rw [hst]; rfl
    refine ⟨fun _ _ => ⟨hev, deadline, gen, hunderWay, hearly⟩, ha.runs, ?_, ?_, ?_,
      ⟨rfl, nofun, nofun⟩, hcnt.silent (by rw [hst]; rfl), rfl, fun _ => ha.stopped (by rw [ht]; exact nofun)⟩
    · intro other hc
      cases hc
      exact ⟨deadline, hunderWay.timerRuns⟩
    · intro other otherGeneration hp _
      cases ht.symm.trans hp
      rfl
    · intro other hr
      exact absurd (hev.symm.trans hr) nofun
  | close hst hev =>
    refine ⟨nofun, ha.runs, nofun, ?_, ?_, ⟨rfl, nofun, nofun⟩, fun _ => rfl, rfl, nofun⟩
    · intro deadline gen hp
      change model.state.armed = _ at hp
      rw [hst] at hp
      cases hp
    · intro gen hr
      exact absurd (hev.symm.trans hr) nofun

end Safe

section

variable (policy : ReconnectPolicy)

theorem new_state_cases : (new policy).state = .disabled ∨ (new policy).state = .attached := by
  unfold new
  split_ifs
  · exact .inl rfl
  · exact .inr rfl

theorem armed_new : Armed [] (new policy).state := by
  apply armed_of_none
  rcases new_state_cases policy with hst | hst <;> rw [hst] <;> rfl

theorem counted_new : Counted [] (new policy) := by
  refine ⟨?_, rfl, fun _ => rfl, ?_⟩ <;> rcases new_state_cases policy with hst | hst <;> rw [hst] <;> rfl

variable (calls : List (ReconnectEvent × MonotonicMillis))

theorem counted_log : Counted ((directReconnect policy).log calls) ((directReconnect policy).exec calls) :=
  (directReconnect policy).log_invariant (counted_new policy)
    (fun _ model call h => h.step (model.apply_moves call.1 call.2)) calls

theorem reconnectSafe_log : Throughout ReconnectSafe ((directReconnect policy).log calls) := by
  refine (directReconnect policy).throughout (I := fun log model => Armed log model.state ∧ Counted log model)
    ⟨armed_new policy, counted_new policy⟩ ?_ ?_ calls
  · intro log model call h
    have hmv := model.apply_moves call.1 call.2
    exact ⟨h.1.step hmv, h.2.step hmv⟩
  · intro log model call h
    exact reconnectSafe_of_moves h.1 h.2 (model.apply_moves call.1 call.2)

end

/-- The timers of a run are numbered in the order they are armed. -/
theorem Counted.increasing (h : Counted log model) (hfew : (armedGenerations log).length < 2 ^ 64)
    : (armedGenerations log).Pairwise (· < ·) := by
  have hsort : ((armedGenerations log).map UInt64.toNat).Pairwise (· < ·) := by
    rw [h.numbered hfew]
    exact pairwise_lt_range'
  exact (pairwise_map.mp hsort).imp UInt64.lt_iff_toNat_lt.mpr

/-- **Timed safety of a reconnect.** In a run with fewer than `2 ^ 64` detachments every event is safe after the
events before it, timers are armed in increasing order and each is cancelled at most once, the running one excepted,
and the leases are restored exactly once when the session drains. -/
theorem reconnect_timed_safety (policy : ReconnectPolicy) (calls : List (ReconnectEvent × MonotonicMillis))
    (hfew : (armedGenerations ((directReconnect policy).log calls)).length < 2 ^ 64) :
    Throughout ReconnectSafe ((directReconnect policy).log calls) ∧
    (armedGenerations ((directReconnect policy).log calls)).Pairwise (· < ·) ∧
    (cancelledGenerations ((directReconnect policy).log calls)).Nodup ∧
    armedGenerations ((directReconnect policy).log calls) =
      cancelledGenerations ((directReconnect policy).log calls) ++
        (((directReconnect policy).exec calls).state.armed.map Prod.snd).toList ∧
    ((directReconnect policy).log calls).countP Releases =
      if ((directReconnect policy).exec calls).state.isOpen then 0 else 1 := by
  have hcnt := counted_log policy calls
  have hincr := hcnt.increasing hfew
  refine ⟨reconnectSafe_log policy calls, hincr, ?_, hcnt.timers, hcnt.releases⟩
  rw [hcnt.timers] at hincr
  exact (pairwise_append.mp hincr).1.imp UInt64.ne_of_lt

/-- A loss, a resume that fails, one that is accepted a minute later, and a disconnect. -/
def recoveredRun : List (ReconnectEvent × MonotonicMillis) :=
  [(.unexpectedLoss, ⟨1000, by decide⟩), (.beginResume, ⟨2000, by decide⟩), (.resumeFailed, ⟨3000, by decide⟩),
    (.beginResume, ⟨60000, by decide⟩), (.resumeAccepted, ⟨61000, by decide⟩),
    (.deadlineReached 1, ⟨181000, by decide⟩), (.explicitDisconnect, ⟨182000, by decide⟩)]

theorem reconnect_timed_safety_recovered : Throughout ReconnectSafe ((directReconnect .default).log recoveredRun) ∧
      armedGenerations ((directReconnect .default).log recoveredRun) = [1] ∧
      cancelledGenerations ((directReconnect .default).log recoveredRun) = [1] ∧
      ((directReconnect .default).log recoveredRun).countP Releases = 1 := by
  have ha : armedGenerations ((directReconnect .default).log recoveredRun) = [1] := by decide +kernel
  obtain ⟨hsafe, -, -, htime, hrele⟩ := reconnect_timed_safety .default recoveredRun (by rw [ha]; decide)
  rw [ha] at htime
  exact ⟨hsafe, ha, by rw [htime]; exact (append_nil _).symm, hrele⟩

end Arcen
