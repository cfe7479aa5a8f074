import Arcen.InputRoleInvariant

/-! Every step of the input role keeps its invariant: the dispatcher's and the writers' steps by what they add to the
history, the reader's by where it goes next. -/

namespace Arcen

open LaneEvent InputRole List Followed

section Fits

variable {events : List LaneEvent} {reg next : LaneRegistry} {delivered : Option LaneParts}
  {writer : NonZeroU32 → WriterAt} {current : NonZeroU32} {event : LaneEvent}

theorem Balanced.concat (h : Balanced events current) (hsl : Slots events reg delivered writer)
    (hl : OnLane events reg delivered current) (hfol : event.Follows current) (hrel : event ≠ .release)
    (hr : ∀ gen, event ≠ .record gen) : Balanced (events ++ [event]) current := by
  intro gen
  rw [heldFrom_concat, or_iff_right (hr gen), and_iff_right hrel,
    unsettled_concat hfol hl.last (hsl.took _ hl.took) (hr gen)]
  exact h gen

/-- What the dispatcher and the writers add to the history of the reader's lane. -/
inductive LaneEvent.IsOutside (current : NonZeroU32) : LaneEvent → Prop where
  | admitted {newer : NonZeroU32} (h : current < newer) : IsOutside current (.admitted newer)
  | writerClosed : IsOutside current (.writerClosed current)

theorem LaneEvent.IsOutside.follows (h : event.IsOutside current) : event.Follows current := by
  cases h with
  | admitted hnew => exact hnew
  | writerClosed => exact le_refl current

theorem Aware.registry (h : Aware events reg current) (hend : reg.ended ≠ none → next.ended ≠ none) :
    Aware events next current := h.imp_right fun hrest => hrest.imp_right hend

theorem Aware.concat (h : Aware events reg current) (hlook : event ≠ .looked current) :
    Aware (events ++ [event]) reg current := by
  rcases h with hcl | hnotd | hend
  · exact .inl (mem_append_left _ hcl)
  · exact .inr (.inl ((noticed_of_other hlook).mpr hnotd))
  · exact .inr (.inr hend)

variable {owed : Bool} {reader : ReaderAt}

theorem ReaderFits.registry (h : ReaderFits events reg owed current reader)
    (hend : reg.ended ≠ none → next.ended ≠ none) : ReaderFits events next owed current reader := by
  cases reader with
  | awaiting => exact ⟨h.1, h.2.imp_left fun hp => ⟨hp.1.registry hend, hp.2⟩⟩
  | exited _ exit | following exit =>
    cases exit <;> exact h
  | lost => exact Aware.registry h hend
  | _ => exact h

variable (hsl : Slots events reg delivered writer) (hl : OnLane events reg delivered current)
  (hev : event.IsOutside current)
include hsl hl hev

theorem Balanced.outside (h : Balanced events current) : Balanced (events ++ [event]) current := by
  refine h.concat hsl hl hev.follows ?_ ?_
  · cases hev <;> exact nofun
  · cases hev <;> exact fun _ => nofun

omit hsl hl in
theorem mem_outside (hoth : ¬other.IsOutside current) : other ∈ events ++ [event] ↔ other ∈ events := by
  rw [mem_append, mem_singleton]
  refine or_iff_left fun hnow => hoth ?_
  rw [hnow]
  exact hev

theorem OnTrack.outside (h : OnTrack events owed current) : OnTrack (events ++ [event]) owed current where
  owed := h.owed
  closed := (mem_outside hev (by nofun)).not.mpr h.closed
  looked := (mem_outside hev (by nofun)).not.mpr h.looked
  balanced := h.balanced.outside hsl hl hev

theorem Reported.outside (h : Reported events current action) : Reported (events ++ [event]) current action where
  closed := h.closed.trans (mem_outside hev (by nofun)).symm
  owes := h.owes
  looked := (mem_outside hev (by nofun)).not.mpr h.looked
  balanced := h.balanced.outside hsl hl hev

/-- Nothing the other processes do changes what the reader owes. -/
theorem ReaderFits.outside (h : ReaderFits events reg owed current reader) :
    ReaderFits (events ++ [event]) reg owed current reader := by
  have hlook : event ≠ .looked current := by cases hev <;> exact nofun
  have hcl : readerClosed current ∈ events ++ [event] ↔ readerClosed current ∈ events := mem_outside hev (by nofun)
  have hu : ¬Noticed events current → ¬Noticed (events ++ [event]) current := (noticed_of_other hlook).not.mpr
  cases reader with
  | awaiting =>
    refine ⟨h.1, h.2.imp (fun hp => ⟨hp.1.concat hlook, fun gen => ?_⟩) fun hleft => ?_⟩
    · rw [heldFrom_concat]
      cases hev <;> simp [hp.2 gen]
    · exact ⟨hcl.not.mpr hleft.1, hu hleft.2.1, hleft.2.2.outside hsl hl hev⟩
  | opened =>
    obtain ⟨hgen, ho, hopen, hunse, hset⟩ := h
    refine ⟨hgen, ho, hcl.not.mpr hopen, (mem_outside hev (by nofun)).not.mpr hunse, fun older => ?_⟩
    rw [unsettled_concat hev.follows hl.last (hsl.took _ hl.took)]
    · exact hset older
    · cases hev <;> exact nofun
  | settling => exact ⟨h.1, h.2.outside hsl hl hev⟩
  | exited _ exit =>
    cases exit with
    | failed | cancelled => exact ⟨h.1, h.2.outside hsl hl hev⟩
    | connectionLost => trivial
  | following exit =>
    cases exit with
    | failed => exact ⟨h.1, h.2.outside hsl hl hev⟩
    | cancelled =>
      exact ⟨h.1, hcl.not.mpr h.2.1, hu h.2.2.1, h.2.2.2.outside hsl hl hev⟩
    | connectionLost => trivial
  | lost => exact Aware.concat h hlook
  | terminal | done => trivial
  | _ => exact ⟨h.1, h.2.outside hsl hl hev⟩

end Fits

section Processes

variable {events : List LaneEvent} {role next : InputRole} {current : NonZeroU32}

section

variable (h : Followed events role)
include h

/-- A step that changes nothing the invariant is about. -/
theorem Followed.quiet (hs : LaneRegistry.SameForInput role.registry next.registry)
    (hd : next.delivered = role.delivered) (hrd : next.reader = role.reader)
    (ho : next.owedRelease = role.owedRelease) (hwr : ∀ gen, next.writer gen ≠ .absent → role.writer gen ≠ .absent) :
    Followed events next := by
  constructor
  · rw [hd]
    exact h.slots.same hs hwr
  · rw [hd, hrd, ho]
    refine h.reader.imp_right ?_
    rintro ⟨cur, hl, hf⟩
    exact ⟨cur, hl.same hs, hf.registry (by rw [hs.ended]; exact id)⟩

theorem Followed.silent : Followed (events ++ (none : Option LaneEvent).toList) role := by
  rw [Option.toList_none, append_nil]
  exact h

theorem Followed.setWriter (at' : WriterAt) (hpres : role.writer gen ≠ .absent)
    : Followed events (role.setWriter gen at') := by
  refine h.quiet (.refl _) rfl rfl rfl fun other hoth => ?_
  by_cases hs : other = gen
  · rw [hs]
    exact hpres
  · have hunch : (role.setWriter gen at').writer other = role.writer other := Function.update_of_ne hs _ _
    rwa [hunch] at hoth

theorem Followed.cancel (gen : NonZeroU32) (code : LaneStreamCode) :
    Followed events (role.cancel gen code) := h.quiet (.refl _) rfl rfl rfl fun _ => id

/-! ### The dispatcher -/

variable (shape : LaneShape) (preface : LanePreface)

theorem Followed.admitLane :
    Followed (events ++ (role.admitLane shape preface).2.toList) (role.admitLane shape preface).1 := by
  have hadmi := (role.registry.effect_admitPeer shape preface).admitsInput
  unfold InputRole.admitLane
  dsimp only
  generalize (role.registry.admitPeer shape preface).1 = registry at hadmi ⊢
  generalize (role.registry.admitPeer shape preface).2 = result at hadmi ⊢
  cases hadmi with
  | other hs hres =>
    have hoth : Followed (events ++ (none : Option LaneEvent).toList) { role with registry } :=
      silent (h.quiet hs rfl rfl rfl fun _ => id)
    split
    · rw [if_neg (hres _ rfl)]
      exact hoth
    · exact hoth
  | admitted hrole hslot hst hh hend hnext =>
    rename_i adm
    dsimp only
    rw [if_pos hrole]
    have hsup : ((({ role with registry } : InputRole).installLocked adm).delivered.bind
        (·.superseded)) = (role.delivered.bind (·.superseded)).or adm.superseded := by
      cases role.delivered <;> rfl
    constructor
    · exact h.slots.admitLane hslot hst hh hnext rfl hsup
    · rcases h.reader with hfresh | ⟨cur, hl, hf⟩
      · exact .inl ⟨by simpa using hfresh.1, hfresh.2⟩
      · refine .inr ⟨cur, hl.admitLane h.slots hslot hend rfl hsup, ?_⟩
        have hnew : cur < adm.laneGeneration := by
          obtain ⟨top, htop, hle⟩ := h.slots.admitted _ (h.slots.took _ hl.took)
          exact hle.trans_lt (hslot.newer top htop)
        exact (hf.outside h.slots hl (.admitted hnew)).registry fun hsome => absurd hend hsome

theorem Followed.dispatcherStep :
    Followed (events ++ (role.dispatcherStep shape preface).2.toList) (role.dispatcherStep shape preface).1 := by
  unfold InputRole.dispatcherStep
  split
  · exact silent (h.quiet (.refl _) rfl rfl rfl fun _ => id)
  · exact h.admitLane shape preface

end

/-! ### Reports -/

/-- What the report of a failure leaves behind, with the event it adds to the history. -/
structure ReportLeaves (events : List LaneEvent) (role next : InputRole) (current generation : NonZeroU32)
    (action : LaneRecoveryAction) (event : LaneEvent) : Prop where
  slots : Slots (events ++ (action.closing event).toList) next.registry next.delivered next.writer
  lane : OnLane (events ++ (action.closing event).toList) next.registry next.delivered current
  ended : role.registry.ended ≠ none → next.registry.ended ≠ none
  owes : action.owesRelease = action.isReopen
  generation : action.isReopen = true → generation = current
  writer : next.writer = role.writer
  reader : next.reader = role.reader
  owed : next.owedRelease = role.owedRelease

variable {gen : NonZeroU32} {reg : LaneRegistry}

/-- Only the lane that was taken last can still be closed by a report. -/
theorem reportLeaves (hsl : Slots events role.registry role.delivered role.writer)
    (hl : OnLane events role.registry role.delivered current) (htook : .took gen ∈ events) (failure : LaneFailure)
    (hev : event = .writerClosed gen ∨ event = .readerClosed gen) :
    ReportLeaves events role (role.reportFailure gen failure).1 current gen
      (role.reportFailure gen failure).2.1 event := by
  have hrepo := role.registry.reportFailure_input gen failure
  unfold reportFailure
  dsimp only
  generalize (role.registry.reportFailure .inputCursor gen failure).1 = registry at hrepo ⊢
  generalize (role.registry.reportFailure .inputCursor gen failure).2 = action at hrepo ⊢
  cases hrepo with
  | superseded =>
    have hn : events ++ [] = events := append_nil events
    exact ⟨hn.symm ▸ hsl, hn.symm ▸ hl, id, rfl, nofun, rfl, rfl, rfl⟩
  | reopen _ hst hend hnext hh =>
    -- a lane that waits would be the open one, but the reader took none as new
    have hidle : role.delivered = none := by
      rw [Option.eq_none_iff_forall_not_mem]
      intro parts hps
      obtain ⟨hopene, hnew, -⟩ := hsl.waiting parts hps
      cases hopene.symm.trans hst
      exact lt_irrefl _ (hnew _ htook)
    have hgen : gen = current := by
      have htop := (hsl.opened gen hst).1
      rw [hl.idle hidle hend] at htop
      exact (Option.some.inj htop).symm
    rw [hidle] at hsl hl
    have hsl' := hsl.close hst hnext hh hev
    have hl' : OnLane (events ++ [event]) registry none current := hl.close hh hend hev
    dsimp only
    split
    · exact ⟨hidle.symm ▸ hsl', hidle.symm ▸ hl', fun hsome => absurd hend hsome, rfl, fun _ => hgen, rfl, rfl, rfl⟩
    · exact ⟨hidle.symm ▸ hsl', hidle.symm ▸ hl', fun hsome => absurd hend hsome, rfl, fun _ => hgen, rfl, rfl, rfl⟩
  | endAttachment _ hst hnext hh hlat =>
    have hn : events ++ [] = events := append_nil events
    exact ⟨hn.symm ▸ hsl.stop hst hnext hh hlat, hn.symm ▸ hl.stop hlat, fun _ => hlat, rfl, nofun, rfl, rfl, rfl⟩

/-! ### The writers -/

theorem Followed.writerReports (h : Followed events role) (hpres : role.writer gen ≠ .absent) (failure : LaneFailure)
    (at' : WriterAt) : Followed (events ++ ((role.reportFailure gen failure).2.1.closing (.writerClosed gen)).toList)
      ((role.reportFailure gen failure).1.setWriter gen at') := by
  have htook := h.slots.writers gen hpres
  rcases h.reader with hfresh | ⟨cur, hl, hf⟩
  · exact absurd htook (hfresh.1 gen)
  · have hlv := reportLeaves h.slots hl htook failure (.inl rfl)
    refine setWriter ⟨hlv.slots, .inr ⟨cur, hlv.lane, ?_⟩⟩ at' ?_
    · rw [hlv.reader, hlv.owed]
      refine ReaderFits.registry ?_ hlv.ended
      unfold LaneRecoveryAction.closing
      split
      · rename_i hreop
        rw [hlv.generation hreop]
        exact hf.outside h.slots hl .writerClosed
      · rw [Option.toList_none, append_nil]
        exact hf
    · rw [hlv.writer]
      exact hpres

theorem Followed.writerStep (h : Followed events role) (gen : NonZeroU32) (out : LaneWrite) :
    Followed (events ++ (role.writerStep gen out).2.toList) (role.writerStep gen out).1 := by
  unfold InputRole.writerStep
  by_cases ha : role.writer gen = .absent
  · rw [ha]
    exact h.silent
  cases hat : role.writer gen with
  | absent => exact absurd hat ha
  | running =>
    dsimp only
    split
    · exact silent (h.setWriter .ended ha)
    · cases out with
      | written =>
        refine silent ?_
        dsimp only
        split
        · exact h
        · exact h.setWriter .marking ha
      | failed failure =>
        exact silent (h.setWriter (.failing failure) ha)
  | marking =>
    refine silent (setWriter ?_ (.running true) ha)
    exact h.quiet (role.registry.sameForInput_markHealthy gen) rfl rfl rfl fun _ => id
  | failing failure =>
    exact silent ((h.cancel gen .laneFailed).setWriter (.reporting failure) ha)
  | reporting failure =>
    exact h.writerReports ha failure _
  | applying cancels =>
    cases cancels with
    | nil =>
      exact silent (h.setWriter .ended ha)
    | cons first rest =>
      exact silent ((h.cancel first.1 first.2).setWriter (.applying rest) ha)
  | ended =>
    exact h.silent

/-! ### The reader -/

section Reader

variable {reg : LaneRegistry} {delivered : Option LaneParts} {writer : NonZeroU32 → WriterAt} {owed : Bool}

theorem OnTrack.unnoticed (h : OnTrack events owed current) : ¬Noticed events current :=
  not_noticed_of_not_looked h.looked

variable (hsl : Slots events reg delivered writer) (hl : OnLane events reg delivered current)
include hsl hl

/-- The release that a lane starts with settles everything. -/
theorem onTrack_release (h : ReaderFits events reg owed current (.opened current)) :
    OnTrack (events ++ [.release]) owed current := by
  obtain ⟨-, ho, hopen, hunse, hset⟩ := h
  refine ⟨ho, by simpa using hopen, by simpa using hunse, fun gen => ?_⟩
  have hfol : release.Follows current := trivial
  rw [unsettled_concat hfol hl.last (hsl.took _ hl.took) (by nofun)]
  exact iff_of_false not_heldFrom_release (hset gen)

section

variable (h : OnTrack events owed current)
include h

theorem onTrack_record : OnTrack (events ++ [.record current]) owed current := by
  refine ⟨h.owed, by simpa using h.closed, by simpa using h.looked, fun generation => ?_⟩
  rw [heldFrom_concat]
  by_cases hs : generation = current
  · subst hs
    refine iff_of_true (.inl rfl) ⟨by simp, fun left _ hle hlt => absurd hle (not_le.mpr hlt)⟩
  · have hr : record current ≠ .record generation := fun heq => hs (record.inj heq).symm
    have hfol : (record current).Follows current := le_refl current
    rw [or_iff_right hr, and_iff_right (by nofun), unsettled_concat hfol hl.last (hsl.took _ hl.took) hr]
    exact h.balanced generation

/-- The reader that asks while its lane recovers learns of the failure. -/
theorem noticed_of_recovering (hend : reg.ended = none) {failed : NonZeroU32} {failure : LaneFailure}
    (hst : (reg.lanes .inputCursor).state = .recovering failed failure) :
    Noticed (events ++ [.looked current]) current := by
  have hidle : delivered = none := by
    rw [Option.eq_none_iff_forall_not_mem]
    intro parts hps
    exact nomatch (hsl.waiting parts hps).1.symm.trans hst
  obtain ⟨htop, hcl⟩ := hsl.recovering failed failure hst
  obtain rfl : current = failed := Option.some.inj ((hl.idle hidle hend).symm.trans htop)
  refine noticed_concat.mpr (.inr ⟨rfl, (hcl hend).resolve_right h.closed, fun newer hnew => ?_⟩)
  obtain ⟨_, htop', hle⟩ := hsl.admitted newer hnew
  rwa [← Option.some.inj (htop.symm.trans htop')] at hle

/-- Any earlier or later it does not. -/
theorem not_noticed_of_not_recovering
    (hst : ∀ failed failure, (reg.lanes .inputCursor).state ≠ .recovering failed failure) :
    ¬Noticed (events ++ [.looked current]) current := by
  rw [noticed_concat, or_iff_right h.unnoticed]
  rintro ⟨-, hcl, hnewe⟩
  obtain ⟨top, htop, hle⟩ := hsl.admitted current (hsl.took _ hl.took)
  obtain rfl : current = top := le_antisymm hle (hnewe top (hsl.top top htop))
  cases hslot : (reg.lanes .inputCursor).state with
  | absent => exact nomatch (hsl.absent hslot).symm.trans htop
  | opened gen =>
    obtain ⟨htop', hopen, -⟩ := hsl.opened gen hslot
    rw [← Option.some.inj (htop.symm.trans htop')] at hopen
    exact hopen hcl
  | recovering failed failure => exact hst failed failure hslot
  | disabled reason => exact hsl.not_disabled reason hslot

end

end Reader

section Take

variable {reg : LaneRegistry} {parts : LaneParts} {writer : NonZeroU32 → WriterAt} {owed : Bool}
  (hsl : Slots events reg (some parts) writer) (hl : OnLane events reg (some parts) current)
include hsl hl

/-- The lane before is missed if its writer closed it, the reader did not notice, and the new one owes nothing. -/
theorem missed_take : Missed (events ++ [.took parts.laneGeneration]) current ↔
    .writerClosed current ∈ events ∧ ¬Noticed events current ∧ parts.superseded = none := by
  have hnew := (hsl.waiting parts rfl).2.1
  have hfst : FirstTaken (events ++ [.took parts.laneGeneration]) current ↔
      ∀ newer, .admitted newer ∈ events → current < newer → parts.laneGeneration ≤ newer := by
    constructor
    · rintro ⟨next, hnext, hlt, hfst⟩
      rcases mem_append.mp hnext with hold | hnow
      · exact absurd (hl.last next hold) (not_le.mpr hlt)
      · cases mem_singleton.mp hnow
        exact fun newer hadm => hfst newer (mem_append_left _ hadm)
    · intro hfst
      exact ⟨parts.laneGeneration, by simp, hnew current hl.took, by simpa using hfst⟩
  unfold Missed
  rw [noticed_of_other (by nofun), hl.next parts rfl]
  simp only [mem_append]
  tauto

theorem unsettled_take : Unsettled (events ++ [.took parts.laneGeneration]) parts.laneGeneration gen ↔
      Unsettled events current gen ∧ Missed (events ++ [.took parts.laneGeneration]) current := by
  have hnew := (hsl.waiting parts rfl).2.1
  have hfol : (took parts.laneGeneration).Follows current := hnew current hl.took
  have hconc : ∀ {left}, left < current →
      (Missed (events ++ [.took parts.laneGeneration]) left ↔ Missed events left) :=
    missed_concat hfol hl.last (hsl.took _ hl.took)
  unfold Unsettled
  simp only [mem_append, mem_singleton, reduceCtorEq, or_false]
  constructor
  · rintro ⟨hr, hmiss⟩
    refine ⟨⟨hr, fun left hleft hle hlt => ?_⟩, ?_⟩
    · exact (hconc hlt).mp (hmiss left (.inl hleft) hle (hnew left hleft))
    · exact hmiss current (.inl hl.took) (hl.last _ (hsl.record _ hr)) (hnew _ hl.took)
  · rintro ⟨⟨hr, hmiss⟩, hcur⟩
    refine ⟨hr, fun left hleft hle hlt => ?_⟩
    rcases hleft with hold | hnow
    · rcases (hl.last left hold).lt_or_eq with hless | rfl
      · exact (hconc hless).mpr (hmiss left hold hle hless)
      · exact hcur
    · cases hnow
      exact absurd hlt (lt_irrefl _)

theorem settled_take (howes : parts.superseded ≠ none) (older : NonZeroU32) :
    ¬Unsettled (events ++ [.took parts.laneGeneration]) parts.laneGeneration older := by
  rw [unsettled_take hsl hl, missed_take hsl hl]
  exact fun h => howes h.2.2.2

theorem balanced_take (h : ReaderFits events reg owed current .awaiting) (howes : parts.superseded = none) :
    Balanced (events ++ [.took parts.laneGeneration]) parts.laneGeneration := by
  intro gen
  rw [heldFrom_concat, or_iff_right (by nofun), and_iff_right (by nofun), unsettled_take hsl hl, missed_take hsl hl]
  rcases h.2 with ⟨haware, hfree⟩ | ⟨hopen, hu, hb⟩
  · -- the release was sent when the reader learned of the failure
    refine iff_of_false (hfree gen) ?_
    rintro ⟨-, hcl, hu, -⟩
    rcases haware with hrd | hnotd | hend
    · exact hsl.exclusive current hcl hrd
    · exact hu hnotd
    · exact hend (hsl.waiting parts rfl).2.2.1
  · -- the new lane owes nothing, so the old one had been closed, and not by the reader
    have hcl := (((hl.next parts rfl).mp howes).1).resolve_right hopen
    rw [and_iff_left ⟨hcl, hu, howes⟩]
    exact hb gen

end Take

theorem Followed.take (h : Followed events role) (hrd : role.reader = .awaiting) {parts : LaneParts}
    (hd : role.delivered = some parts) : Followed (events ++ [.took parts.laneGeneration]) (role.takeLane parts) := by
  obtain ⟨hsl, hfol⟩ := h
  rw [hd] at hsl hfol
  obtain ⟨hst, hnew, -, hrel⟩ := hsl.waiting parts rfl
  have hf : role.owedRelease = false ∧ (parts.superseded ≠ none →
        ∀ older, ¬Unsettled (events ++ [.took parts.laneGeneration]) parts.laneGeneration older) ∧
      (parts.superseded = none → Balanced (events ++ [.took parts.laneGeneration]) parts.laneGeneration) := by
    rcases hfol with ⟨hn, ho, -⟩ | ⟨cur, hl, hf⟩
    · have hr : ∀ gen, .record gen ∉ events ++ [.took parts.laneGeneration] := by
        intro gen hmem
        exact hn gen (hsl.record gen (by simpa using hmem))
      refine ⟨ho, fun _ older hold => hr older hold.1, fun _ gen => ?_⟩
      exact iff_of_false (fun hheld => hr gen hheld.mem) fun hold => hr gen hold.1
    · rw [hrd] at hf
      exact ⟨hf.1, settled_take hsl hl, balanced_take hsl hl hf⟩
  obtain ⟨ho, hset, hb⟩ := hf
  have hopen : .readerClosed parts.laneGeneration ∉ events ++ [.took parts.laneGeneration] := by
    simpa using (hsl.opened _ hst).2.2
  have hunse : .looked parts.laneGeneration ∉ events ++ [.took parts.laneGeneration] := by
    intro hmem
    exact lt_irrefl _ (hnew _ (hsl.looked _ (by simpa using hmem)))
  refine ⟨hsl.take fun gen hne => Function.update_of_ne hne _ _, .inr ⟨_, hsl.onLane_take, ?_⟩⟩
  unfold takeLane
  rw [ho]
  cases hsup : parts.superseded with
  | none => exact ⟨rfl, rfl, hopen, hunse, hb hsup⟩
  | some lane =>
    rw [Option.map_some, hrel lane hsup]
    exact ⟨rfl, rfl, hopen, hunse, hset (by rw [hsup]; exact nofun)⟩

/-! ### Following an exit -/

/-- The reader has applied everything it owes for its lane. -/
theorem fits_afterFollow (ho : role.owedRelease = false) (hopen : .readerClosed current ∉ events)
    (hu : ¬Noticed events current) (hb : Balanced events current) :
    ReaderFits events reg role.afterFollow.owedRelease current role.afterFollow.reader := by
  unfold afterFollow
  rw [ho]
  exact ⟨rfl, .inr ⟨hopen, hu, hb⟩⟩

variable (reopenedBy : LaneEndpoint)

/-- The reader owes the release and sends it before anything else. -/
theorem fits_awaitPeer (haware : Aware events reg current) :
    ReaderFits events reg (role.awaitPeer reopenedBy true).owedRelease current
      (role.awaitPeer reopenedBy true).reader := by
  unfold awaitPeer
  split
  · unfold afterFollow
    rw [Bool.or_true]
    exact haware
  · trivial

/-- The role, apart from where the reader is and what it owes. -/
structure SameLanes (role next : InputRole) : Prop where
  registry : next.registry = role.registry
  delivered : next.delivered = role.delivered
  writer : next.writer = role.writer

theorem sameLanes_awaitPeer (releaseHeldInput : Bool) :
    SameLanes role (role.awaitPeer reopenedBy releaseHeldInput) := by
  unfold awaitPeer
  split <;> exact ⟨rfl, rfl, rfl⟩

theorem sameLanes_followLaneExit (exit : LaneExit) : SameLanes role (role.followLaneExit exit) := by
  unfold followLaneExit
  split
  · exact ⟨rfl, rfl, rfl⟩
  · split <;> exact ⟨rfl, rfl, rfl⟩
  · exact ⟨rfl, rfl, rfl⟩
  · exact sameLanes_awaitPeer _ _
  · exact ⟨rfl, rfl, rfl⟩
  · exact ⟨rfl, rfl, rfl⟩

theorem followed_of_sameLanes (hsl : Slots events role.registry role.delivered role.writer)
    (hl : OnLane events role.registry role.delivered current) (hs : SameLanes role next)
    (hf : ReaderFits events role.registry next.owedRelease current next.reader) : Followed events next := by
  rw [← hs.registry, ← hs.delivered, ← hs.writer] at hsl
  rw [← hs.registry, ← hs.delivered] at hl
  rw [← hs.registry] at hf
  exact ⟨hsl, .inr ⟨current, hl, hf⟩⟩

theorem fits_followLaneExit (h : ReaderFits events role.registry role.owedRelease current (.following exit)) :
    ReaderFits events role.registry (role.followLaneExit exit).owedRelease current (role.followLaneExit exit).reader := by
  cases exit with
  | connectionLost => trivial
  | cancelled =>
    obtain ⟨ho, hopen, hu, hb⟩ := h
    unfold followLaneExit
    dsimp only
    split
    · trivial
    · exact fits_afterFollow ho hopen hu hb
  | failed _ action =>
    obtain ⟨ho, hcl, howes, hunse, hb⟩ := h
    cases action with
    | superseded =>
      refine fits_afterFollow ?_ (hcl.not.mp nofun) (not_noticed_of_not_looked hunse) hb
      exact Bool.eq_false_iff.mpr fun hsome => nomatch ho hsome
    | reopen _ _ reopenedBy _ _ releaseHeldInput =>
      obtain rfl : releaseHeldInput = true := howes
      exact fits_awaitPeer reopenedBy (.inl (hcl.mp rfl))
    | disable | endAttachment => trivial

/-! ### The reader's turn -/

section

variable (hsl : Slots events role.registry role.delivered role.writer)
include hsl

variable (hl : OnLane events role.registry role.delivered current) (h : OnTrack events role.owedRelease current)
include hl h

theorem Followed.readerReports (failure : LaneFailure) (owner : Bool) :
    Followed (events ++ ((role.reportFailure current failure).2.1.closing (.readerClosed current)).toList)
      { (role.reportFailure current failure).1 with
        reader := .settling current failure (role.reportFailure current failure).2.1
          (role.reportFailure current failure).2.2 owner } := by
  have hlv := reportLeaves hsl hl hl.took failure (.inr rfl)
  generalize (role.reportFailure current failure).1 = next at hlv ⊢
  generalize (role.reportFailure current failure).2.1 = action at hlv ⊢
  refine ⟨hlv.slots, .inr ⟨current, hlv.lane, hlv.owed.trans h.owed, ?_⟩⟩
  unfold LaneRecoveryAction.closing
  split
  · rename_i hreop
    have hfol : (readerClosed current).Follows current := le_refl current
    exact ⟨iff_of_true hreop (by simp), hlv.owes, by simpa using h.looked,
      h.balanced.concat hsl hl hfol nofun (fun _ => nofun)⟩
  · rename_i hoth
    rw [Option.toList_none, append_nil]
    exact ⟨iff_of_false hoth h.closed, hlv.owes, h.looked, h.balanced⟩

theorem Followed.readerAsks : Followed (events ++ [.looked current]) (match role.registry.state .inputCursor with
        | .recovering _ _ =>
          role.awaitPeer LaneRole.inputCursor.opener (LaneRecoveryPolicy.forRole .inputCursor).releaseHeldInput
        | _ => { role with reader := .following (.cancelled .laneFailed) }) := by
  have hsl' : Slots (events ++ [.looked current]) role.registry role.delivered role.writer :=
    hsl.observed (.inr ⟨current, .inl rfl, hl.took⟩)
  have hl' : OnLane (events ++ [.looked current]) role.registry role.delivered current :=
    hl.observed (.inr ⟨current, .inl rfl, hl.took⟩)
  by_cases hreco : ∃ failed failure, (role.registry.lanes .inputCursor).state = .recovering failed failure
  · obtain ⟨failed, failure, hst⟩ := hreco
    have haware : Aware (events ++ [.looked current]) role.registry current := by
      by_cases hend : role.registry.ended = none
      · exact .inr (.inl (noticed_of_recovering hsl hl h hend hst))
      · exact .inr (.inr hend)
    unfold LaneRegistry.state
    rw [hst]
    exact followed_of_sameLanes hsl' hl' (sameLanes_awaitPeer _ _) (fits_awaitPeer _ haware)
  · simp only [not_exists] at hreco
    have hfol : (looked current).Follows current := le_refl current
    split
    · rename_i hst
      exact absurd hst (hreco _ _)
    · exact ⟨hsl', .inr ⟨current, hl', h.owed, by simpa using h.closed, not_noticed_of_not_recovering hsl hl h hreco,
        h.balanced.concat hsl hl hfol nofun (fun _ => nofun)⟩⟩

end

theorem Followed.readerAwaits (h : Followed events role) (hrd : role.reader = .awaiting) (out : LaneRead) :
    Followed (events ++ (role.readerStep out).2.toList) (role.readerStep out).1 := by
  unfold readerStep
  rw [hrd]
  dsimp only
  split
  · rename_i hd
    exact h.take hrd hd
  · refine silent ?_
    split
    · refine ⟨h.slots, h.reader.imp ?_ ?_⟩
      · exact fun hfresh => ⟨hfresh.1, hfresh.2.1, .inr (.inl rfl)⟩
      · exact fun ⟨cur, hl, _⟩ => ⟨cur, hl, trivial⟩
    · exact h

section

variable (hsl : Slots events role.registry role.delivered role.writer)
include hsl

theorem Followed.readerEnds (hfresh : Fresh events role.owedRelease role.reader) (hrd : role.reader ≠ .awaiting)
    (out : LaneRead) : Followed (events ++ (role.readerStep out).2.toList) (role.readerStep out).1 := by
  obtain ⟨hn, ho, hends⟩ := hfresh
  unfold readerStep
  rcases hends.resolve_left hrd with hterm | hdone
  · rw [hterm]
    exact ⟨hsl.observed (.inl rfl), .inl ⟨by simpa using hn, ho, .inr (.inr rfl)⟩⟩
  · rw [hdone]
    exact silent ⟨hsl, .inl ⟨hn, ho, hends⟩⟩

theorem Followed.readerOnLane (hl : OnLane events role.registry role.delivered current)
    (hf : ReaderFits events role.registry role.owedRelease current role.reader) (hawait : role.reader ≠ .awaiting)
    (out : LaneRead) : Followed (events ++ (role.readerStep out).2.toList) (role.readerStep out).1 := by
  -- a release leaves the lanes as they are
  have hslotsRelease : Slots (events ++ [.release]) role.registry role.delivered role.writer :=
    hsl.observed (.inl rfl)
  have hlaneRelease : OnLane (events ++ [.release]) role.registry role.delivered current := hl.observed (.inl rfl)
  unfold readerStep
  revert hf
  cases hrd : role.reader with
  | awaiting => exact absurd hrd hawait
  | opened gen =>
    intro hf
    obtain rfl := hf.1
    exact ⟨hslotsRelease, .inr ⟨gen, hlaneRelease, rfl, onTrack_release hsl hl hf⟩⟩
  | reading gen =>
    rintro ⟨rfl, ht⟩
    dsimp only
    split
    · exact silent ⟨hsl, .inr ⟨gen, hl, rfl, ht⟩⟩
    · cases out with
      | frame =>
        refine silent ⟨hsl, .inr ⟨gen, hl, ?_⟩⟩
        dsimp only
        split <;> exact ⟨rfl, ht⟩
      | failed =>
        exact silent ⟨hsl, .inr ⟨gen, hl, rfl, ht⟩⟩
      | lost =>
        exact silent ⟨hsl, .inr ⟨gen, hl, trivial⟩⟩
  | marking gen =>
    intro hf
    refine silent ?_
    have hs := role.registry.sameForInput_markHealthy gen
    exact ⟨hsl.same hs fun _ => id, .inr ⟨current, hl.same hs, hf⟩⟩
  | handling gen kind =>
    rintro ⟨rfl, ht⟩
    cases kind with
    | input =>
      have hr : record gen = .release ∨ ∃ lane, (record gen = .looked lane ∨
          record gen = .record lane) ∧ .took lane ∈ events := .inr ⟨_, .inr rfl, hl.took⟩
      exact ⟨hsl.observed hr, .inr ⟨gen, hl.observed hr, rfl, onTrack_record hsl hl ht⟩⟩
    | ignored | malformed =>
      exact silent ⟨hsl, .inr ⟨gen, hl, rfl, ht⟩⟩
  | failing =>
    intro hf
    exact silent ⟨hsl, .inr ⟨current, hl, hf⟩⟩
  | reporting _ failure owner =>
    rintro ⟨rfl, ht⟩
    exact readerReports hsl hl ht failure owner
  | settling _ _ action cancels owner =>
    rintro ⟨ho, hrep⟩
    cases cancels with
    | nil =>
      refine silent ?_
      have howes : (role.owedRelease || (owner && action.owesRelease)) = true → action.isReopen = true := by
        rw [ho, Bool.false_or, Bool.and_eq_true, hrep.owes]
        exact fun h => h.2
      exact ⟨hsl, .inr ⟨current, hl, howes, hrep⟩⟩
    | cons =>
      exact silent ⟨hsl, .inr ⟨current, hl, ho, hrep⟩⟩
  | exited gen exit =>
    intro hf
    dsimp only
    split
    · rename_i hfail
      obtain ⟨rfl, -⟩ := hfail
      exact silent ⟨hsl, .inr ⟨current, hl, hf⟩⟩
    · refine silent ⟨hsl, .inr ⟨current, hl, ?_⟩⟩
      cases exit with
      | failed => exact hf
      | cancelled => exact ⟨hf.2.owed, hf.2.closed, hf.2.unnoticed, hf.2.balanced⟩
      | connectionLost => trivial
  | asking =>
    rintro ⟨rfl, ht⟩
    exact readerAsks hsl hl ht
  | following exit =>
    intro hf
    exact silent (followed_of_sameLanes hsl hl (sameLanes_followLaneExit exit) (fits_followLaneExit hf))
  | lost =>
    intro hf
    have haware : Aware (events ++ [.release]) role.registry current := Aware.concat hf nofun
    exact ⟨hslotsRelease, .inr ⟨current, hlaneRelease, rfl, .inl ⟨haware, fun _ => not_heldFrom_release⟩⟩⟩
  | terminal => exact fun _ => ⟨hslotsRelease, .inr ⟨current, hlaneRelease, trivial⟩⟩
  | done =>
    exact fun _ => silent ⟨hsl, .inr ⟨current, hl, by rw [hrd]; trivial⟩⟩

end

theorem Followed.step (h : Followed events role) (call : RoleStep) :
    Followed (events ++ (role.step call).2.toList) (role.step call).1 := by
  cases call with
  | dispatcher shape preface => exact h.dispatcherStep shape preface
  | writer gen out => exact h.writerStep gen out
  | reader out =>
    by_cases hawait : role.reader = .awaiting
    · exact h.readerAwaits hawait out
    · rcases h.reader with hfresh | ⟨cur, hl, hf⟩
      · exact readerEnds h.slots hfresh hawait out
      · exact readerOnLane h.slots hl hf hawait out

end Processes

end Arcen
