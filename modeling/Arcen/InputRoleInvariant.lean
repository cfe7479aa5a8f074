import Arcen.InputRoleHistory
import Arcen.LaneRegistrySteps

/-! The invariant of the input role. `Slots` ties the registry's slot to the lanes admitted, taken and closed so far;
`OnLane` says how the lane that waits for the reader relates to the one it took last; `ReaderFits` says, for each place
the reader can be at, what it has sent and what it still owes. Nothing here depends on when a lane is cancelled. -/

namespace Arcen

/-! ### The registry, seen from one role -/

namespace LaneRegistry

/-- The registry in what this role depends on. -/
structure SameForInput (reg next : LaneRegistry) : Prop where
  state : (next.lanes .inputCursor).state = (reg.lanes .inputCursor).state
  highest : (next.lanes .inputCursor).highest = (reg.lanes .inputCursor).highest
  ended : next.ended = reg.ended

theorem SameForInput.refl (reg : LaneRegistry) : SameForInput reg reg := ⟨rfl, rfl, rfl⟩

variable {role : LaneRole} {reg : LaneRegistry}

theorem sameForInput_setSlot (reg : LaneRegistry) (slot : LaneSlot) (hr : role ≠ .inputCursor) :
    SameForInput reg (reg.setSlot role slot) := by
  have hs : (reg.setSlot role slot).lanes .inputCursor = reg.lanes .inputCursor :=
    lanes_setSlot_of_ne reg slot (Ne.symm hr)
  exact ⟨by rw [hs], by rw [hs], rfl⟩

theorem sameForInput_markHealthy (reg : LaneRegistry) (gen : NonZeroU32) :
    SameForInput reg (reg.markHealthy .inputCursor gen) := by
  unfold markHealthy
  dsimp only
  split
  · exact ⟨by rw [lanes_setSlot_same], by rw [lanes_setSlot_same], rfl⟩
  · exact .refl reg

inductive AdmitsInput (reg : LaneRegistry) : LaneRegistry → Except LaneRefusal PeerLaneAdmission → Prop where
  | other {next : LaneRegistry} {result : Except LaneRefusal PeerLaneAdmission} (hsame : SameForInput reg next)
      (hresult : ∀ admission, result = .ok (.admitted admission) → admission.role ≠ .inputCursor) :
      AdmitsInput reg next result
  | admitted {next : LaneRegistry} {admission : LaneAdmission} (hrole : admission.role = .inputCursor)
      (hslot : SlotAdmits (reg.lanes .inputCursor) .inputCursor admission.laneGeneration true admission.superseded)
      (hstate : (next.lanes .inputCursor).state = .opened admission.laneGeneration)
      (hhighest : (next.lanes .inputCursor).highest = some admission.laneGeneration) (hended : reg.ended = none)
      (hnext : next.ended = none) : AdmitsInput reg next (.ok (.admitted admission))

theorem ended_openLane (h : reg.ended = none) : (reg.openLane role gen).ended = none := by
  rw [ended_eq_none] at h ⊢
  intro reason
  rw [phase_openLane]
  split_ifs
  · exact h reason
  · exact nofun

theorem ended_of_phaseAdmits (h : PhaseAdmits reg.phase preface gen) : reg.ended = none := by
  rw [ended_eq_none]
  intro reason hreas
  rcases h.control_or_bound with ⟨-, hph⟩ | ⟨_, _, -, hph, -⟩ <;> exact nomatch hph.symm.trans hreas

theorem Effect.admitsInput (heff : Effect reg (.admitPeer shape preface) next (.admitPeer result)) :
    AdmitsInput reg next result := by
  cases heff with
  | idle hidle =>
    refine .other (.refl reg) fun adm hres => ?_
    rw [hres] at hidle
    exact hidle.elim
  | admitted hopens hregs =>
    have hend := ended_of_phaseAdmits hregs.phase_admits
    by_cases hr : preface.role = .inputCursor
    · have hs := hregs.slot_admits
      rw [hr, ← hregs.generation_eq] at hs
      have hl : (reg.openLane preface.role preface.laneGeneration).lanes .inputCursor = { reg.lanes .inputCursor with
            highest := some preface.laneGeneration, state := .opened preface.laneGeneration } := by
        rw [hr, lanes_openLane_same]
      refine .admitted (hregs.role_eq.trans hr) hs ?_ ?_ hend (ended_openLane hend)
      · rw [hl, hregs.generation_eq]
      · rw [hl, hregs.generation_eq]
    · have hl : (reg.openLane preface.role preface.laneGeneration).lanes .inputCursor = reg.lanes .inputCursor :=
        lanes_openLane_of_ne reg preface.laneGeneration (Ne.symm hr)
      refine .other ⟨by rw [hl], by rw [hl], by rw [hend, ended_openLane hend]⟩ fun other hoth => ?_
      obtain rfl := PeerLaneAdmission.admitted.inj (Except.ok.inj hoth)
      rw [hregs.role_eq]
      exact hr
  | held hopens _ hdeck =>
    refine .other (reg.sameForInput_setSlot _ ?_) fun _ hres => nomatch hres
    -- a Deck holds the lanes of its Pier, and input is opened by the Deck
    intro hinput
    rw [hinput, hdeck] at hopens
    exact nomatch hopens

inductive ReportsInput (reg : LaneRegistry) (generation : NonZeroU32) : LaneRegistry → LaneRecoveryAction → Prop where
  | superseded : ReportsInput reg generation reg .superseded
  | reopen {next : LaneRegistry} (failure : LaneFailure) {reopenedBy : LaneEndpoint}
      {resetStream requestKeyframe : Bool} (hstate : (reg.lanes .inputCursor).state = .opened generation)
      (hended : reg.ended = none) (hnext : (next.lanes .inputCursor).state = .recovering generation failure)
      (hhighest : (next.lanes .inputCursor).highest = (reg.lanes .inputCursor).highest) (hlater : next.ended = none) :
      ReportsInput reg generation next (.reopen .inputCursor generation reopenedBy resetStream requestKeyframe true)
  | endAttachment {next : LaneRegistry} (failure : LaneFailure) {resetStream : Bool} {reason : LaneEndReason}
      (hstate : (reg.lanes .inputCursor).state = .opened generation)
      (hnext : (next.lanes .inputCursor).state = .recovering generation failure)
      (hhighest : (next.lanes .inputCursor).highest = (reg.lanes .inputCursor).highest) (hlater : next.ended ≠ none) :
      ReportsInput reg generation next (.endAttachment .inputCursor resetStream reason)

theorem reportFailure_input (reg : LaneRegistry) (gen : NonZeroU32) (failure : LaneFailure) :
    ReportsInput reg gen (reg.reportFailure .inputCursor gen failure).1
      (reg.reportFailure .inputCursor gen failure).2 := by
  unfold reportFailure
  dsimp only
  split
  · exact .superseded
  rename_i hend
  rw [Option.not_isSome_iff_eq_none] at hend
  split
  · exact .superseded
  rename_i hst
  rw [not_not] at hst
  rw [if_neg (by decide)]
  by_cases hexh : (LaneRecoveryPolicy.forRole .inputCursor).maxConsecutiveFailures <
      min ((reg.lanes .inputCursor).consecutiveFailures + 1) 255
  · rw [if_pos hexh]
    dsimp only [LaneRecoveryPolicy.forRole]
    refine .endAttachment failure hst ?_ ?_ ?_
    · rw [lanes_endAttachment, lanes_setSlot_same]
    · rw [lanes_endAttachment, lanes_setSlot_same]
    · rw [ended_eq_some.mpr (phase_endAttachment _ _)]
      exact nofun
  · rw [if_neg hexh]
    refine .reopen failure hst hend ?_ ?_ hend
    · rw [lanes_setSlot_same]
    · rw [lanes_setSlot_same]

end LaneRegistry

/-! ### The invariant -/

/-- The registry's slot and the lane that waits for the reader, against what happened. -/
structure Slots (events : List LaneEvent) (reg : LaneRegistry) (delivered : Option LaneParts)
    (writer : NonZeroU32 → WriterAt) : Prop where
  not_disabled : ∀ reason, (reg.lanes .inputCursor).state ≠ .disabled reason
  absent : (reg.lanes .inputCursor).state = .absent → (reg.lanes .inputCursor).highest = none
  opened : ∀ generation, (reg.lanes .inputCursor).state = .opened generation →
    (reg.lanes .inputCursor).highest = some generation ∧ .writerClosed generation ∉ events ∧
      .readerClosed generation ∉ events
  recovering : ∀ generation failure, (reg.lanes .inputCursor).state = .recovering generation failure →
    (reg.lanes .inputCursor).highest = some generation ∧
      (reg.ended = none → .writerClosed generation ∈ events ∨ .readerClosed generation ∈ events)
  top : ∀ generation, (reg.lanes .inputCursor).highest = some generation → .admitted generation ∈ events
  admitted : ∀ generation, .admitted generation ∈ events →
    ∃ top, (reg.lanes .inputCursor).highest = some top ∧ generation ≤ top
  took : ∀ generation, .took generation ∈ events → .admitted generation ∈ events
  record : ∀ generation, .record generation ∈ events → .took generation ∈ events
  looked : ∀ generation, .looked generation ∈ events → .took generation ∈ events
  writers : ∀ generation, writer generation ≠ .absent → .took generation ∈ events
  closed : ∀ generation, .writerClosed generation ∈ events ∨ .readerClosed generation ∈ events →
    .admitted generation ∈ events
  exclusive : ∀ generation, .writerClosed generation ∈ events → .readerClosed generation ∉ events
  waiting : ∀ parts, delivered = some parts → (reg.lanes .inputCursor).state = .opened parts.laneGeneration ∧
    (∀ generation, .took generation ∈ events → generation < parts.laneGeneration) ∧ reg.ended = none ∧
      ∀ lane, parts.superseded = some lane → lane.releaseHeldInput = true

/-- The lane the reader took last, and the one that waits for it. -/
structure OnLane (events : List LaneEvent) (reg : LaneRegistry) (delivered : Option LaneParts)
    (current : NonZeroU32) : Prop where
  took : .took current ∈ events
  last : ∀ generation, .took generation ∈ events → generation ≤ current
  idle : delivered = none → reg.ended = none → (reg.lanes .inputCursor).highest = some current
  /-- The waiting lane owes nothing if it was the first after a lane that had been closed. -/
  next : ∀ parts, delivered = some parts → (parts.superseded = none ↔
    (.writerClosed current ∈ events ∨ .readerClosed current ∈ events) ∧
      ∀ newer, .admitted newer ∈ events → current < newer → parts.laneGeneration ≤ newer)

variable (events : List LaneEvent)

/-- What the agent holds is what the reader left without a release. -/
def Balanced (current : NonZeroU32) : Prop :=
  ∀ generation, HeldFrom events generation ↔ Unsettled events current generation

/-- The reader knows that its lane failed, and owes or sent the release. -/
def Aware (reg : LaneRegistry) (current : NonZeroU32) : Prop :=
  .readerClosed current ∈ events ∨ Noticed events current ∨ reg.ended ≠ none

structure OnTrack (events : List LaneEvent) (owed : Bool) (current : NonZeroU32) : Prop where
  owed : owed = false
  closed : .readerClosed current ∉ events
  looked : .looked current ∉ events
  balanced : Balanced events current

structure Reported (events : List LaneEvent) (current : NonZeroU32) (action : LaneRecoveryAction) : Prop where
  closed : action.isReopen = true ↔ .readerClosed current ∈ events
  owes : action.owesRelease = action.isReopen
  looked : .looked current ∉ events
  balanced : Balanced events current

/-- Where the reader is, against what happened. -/
def ReaderFits (reg : LaneRegistry) (owed : Bool) (current : NonZeroU32) : ReaderAt → Prop
  | .awaiting => owed = false ∧ (Aware events reg current ∧ (∀ generation, ¬HeldFrom events generation) ∨
      .readerClosed current ∉ events ∧ ¬Noticed events current ∧ Balanced events current)
  | .opened generation => generation = current ∧ owed = false ∧ .readerClosed current ∉ events ∧
      .looked current ∉ events ∧ ∀ older, ¬Unsettled events current older
  | .reading generation _ => generation = current ∧ OnTrack events owed current
  | .marking generation _ => generation = current ∧ OnTrack events owed current
  | .handling generation _ => generation = current ∧ OnTrack events owed current
  | .failing generation _ _ => generation = current ∧ OnTrack events owed current
  | .reporting generation _ _ => generation = current ∧ OnTrack events owed current
  | .asking generation => generation = current ∧ OnTrack events owed current
  | .exited generation (.cancelled _) => generation = current ∧ OnTrack events owed current
  | .settling _ _ action _ _ => owed = false ∧ Reported events current action
  | .exited _ (.failed _ action) => (owed = true → action.isReopen = true) ∧ Reported events current action
  | .following (.failed _ action) => (owed = true → action.isReopen = true) ∧ Reported events current action
  | .following (.cancelled _) => owed = false ∧ .readerClosed current ∉ events ∧ ¬Noticed events current ∧
      Balanced events current
  | .lost => Aware events reg current
  | .exited _ .connectionLost => True
  | .following .connectionLost => True
  | .terminal => True
  | .done => True

/-- The reader has taken no lane yet. -/
def Fresh (owed : Bool) (reader : ReaderAt) : Prop := (∀ generation, .took generation ∉ events) ∧ owed = false ∧
    (reader = .awaiting ∨ reader = .terminal ∨ reader = .done)

structure Followed (events : List LaneEvent) (role : InputRole) : Prop where
  slots : Slots events role.registry role.delivered role.writer
  reader : Fresh events role.owedRelease role.reader ∨ ∃ current, OnLane events role.registry role.delivered current ∧
      ReaderFits events role.registry role.owedRelease current role.reader

section Slots

variable {events : List LaneEvent} {reg next : LaneRegistry} {delivered : Option LaneParts}
  {writer writer' : NonZeroU32 → WriterAt}

theorem Slots.same (h : Slots events reg delivered writer) (hsame : LaneRegistry.SameForInput reg next)
    (hwr : ∀ gen, writer' gen ≠ .absent → writer gen ≠ .absent) : Slots events next delivered writer' := by
  constructor <;> grind [cases Slots, cases LaneRegistry.SameForInput]

variable {event : LaneEvent} {parts : LaneParts} {gen : NonZeroU32}

theorem Slots.observed (h : Slots events reg delivered writer)
    (hev : event = .release ∨ ∃ gen, (event = .looked gen ∨ event = .record gen) ∧
      .took gen ∈ events) : Slots (events ++ [event]) reg delivered writer := by
  constructor <;> grind [cases Slots]

theorem Slots.take (h : Slots events reg (some parts) writer)
    (hwr : ∀ gen, gen ≠ parts.laneGeneration → writer' gen = writer gen) :
    Slots (events ++ [.took parts.laneGeneration]) reg none writer' := by
  constructor <;> grind [cases Slots]

variable {failure : LaneFailure} {adm : LaneAdmission}

theorem Slots.close (h : Slots events reg none writer) (hst : (reg.lanes .inputCursor).state = .opened gen)
    (hnext : (next.lanes .inputCursor).state = .recovering gen failure)
    (hhigh : (next.lanes .inputCursor).highest = (reg.lanes .inputCursor).highest)
    (hev : event = .writerClosed gen ∨ event = .readerClosed gen) : Slots (events ++ [event]) next none writer := by
  constructor <;> grind [cases Slots]

theorem Slots.stop (h : Slots events reg delivered writer) (hst : (reg.lanes .inputCursor).state = .opened gen)
    (hnext : (next.lanes .inputCursor).state = .recovering gen failure)
    (hhigh : (next.lanes .inputCursor).highest = (reg.lanes .inputCursor).highest) (hlat : next.ended ≠ none) :
    Slots events next none writer := by
  constructor <;> grind [cases Slots]

/-- A lane that is admitted owes the release if it replaces an open one. -/
theorem Slots.admitLane (h : Slots events reg delivered writer)
    (hs : LaneRegistry.SlotAdmits (reg.lanes .inputCursor) .inputCursor adm.laneGeneration true adm.superseded)
    (hst : (next.lanes .inputCursor).state = .opened adm.laneGeneration)
    (hhigh : (next.lanes .inputCursor).highest = some adm.laneGeneration) (hend : next.ended = none)
    (hps : parts.laneGeneration = adm.laneGeneration)
    (hsup : parts.superseded = (delivered.bind (·.superseded)).or adm.superseded) :
    Slots (events ++ [.admitted adm.laneGeneration]) next (some parts) writer := by
  have hnew := hs.newer
  have hrel : ∀ lane, adm.superseded = some lane → lane.releaseHeldInput = true := by
    intro lane hl
    rw [hl] at hs
    cases hs with
    | supersede => rfl
  have hsteps : ∀ lane, parts.superseded = some lane → lane.releaseHeldInput = true := by
    intro lane hl
    rw [hsup, Option.or_eq_some_iff] at hl
    rcases hl with hstale | ⟨-, hnow⟩
    · obtain ⟨stale, hwait, hl⟩ := Option.bind_eq_some_iff.mp hstale
      exact (h.waiting stale hwait).2.2.2 lane hl
    · exact hrel lane hnow
  constructor <;> grind [cases Slots]

variable {cur : NonZeroU32}

theorem OnLane.same (h : OnLane events reg delivered cur) (hsame : LaneRegistry.SameForInput reg next) :
    OnLane events next delivered cur := by
  constructor <;> grind [cases OnLane, cases LaneRegistry.SameForInput]

theorem OnLane.observed (h : OnLane events reg delivered cur)
    (hev : event = .release ∨ ∃ gen, (event = .looked gen ∨ event = .record gen) ∧
      .took gen ∈ events) : OnLane (events ++ [event]) reg delivered cur := by
  constructor <;> grind [cases OnLane]

theorem OnLane.close (h : OnLane events reg none cur)
    (hhigh : (next.lanes .inputCursor).highest = (reg.lanes .inputCursor).highest) (hend : reg.ended = none)
    (hev : event = .writerClosed gen ∨ event = .readerClosed gen) : OnLane (events ++ [event]) next none cur := by
  constructor <;> grind [cases OnLane]

theorem OnLane.stop (h : OnLane events reg delivered cur) (hlat : next.ended ≠ none) :
    OnLane events next none cur := by
  constructor <;> grind [cases OnLane]

theorem Slots.onLane_take (h : Slots events reg (some parts) writer) :
    OnLane (events ++ [.took parts.laneGeneration]) reg none parts.laneGeneration := by
  constructor <;> grind [cases Slots]

/-- A lane that is admitted owes nothing exactly if it is the first after a lane that had been closed. -/
theorem OnLane.admitLane (h : OnLane events reg delivered cur) (hsl : Slots events reg delivered writer)
    (hs : LaneRegistry.SlotAdmits (reg.lanes .inputCursor) .inputCursor adm.laneGeneration true
      adm.superseded) (hend : reg.ended = none) (hps : parts.laneGeneration = adm.laneGeneration)
    (hsup : parts.superseded = (delivered.bind (·.superseded)).or adm.superseded) :
    OnLane (events ++ [.admitted adm.laneGeneration]) next (some parts) cur := by
  refine ⟨by grind [cases OnLane], by grind [cases OnLane], nofun, ?_⟩
  rintro _ ⟨⟩
  rw [hsup]
  cases delivered with
  | none =>
    generalize adm.superseded = superseded at hs
    cases hs with
    | fresh | supersede => grind [cases OnLane, cases Slots]
  | some stale =>
    generalize adm.superseded = superseded at hs
    cases hs with
    | fresh | supersede => grind [cases Slots]

end Slots

end Arcen
