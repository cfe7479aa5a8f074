import Arcen.MuteLease

/-! What a mute lease leaves behind, whatever happened during it, once a restore run has been completed. -/

namespace Arcen

open AudioServer MuteLease List

/-! ### The mute flag of a sink -/

/-- How far a lease has come with a sink that had the flag `initial` at its start and has `known` now, or had it when
it was last there. -/
structure FlagKept (name : String) (initial known : Bool) (lease : MuteLease) : Prop where
  seen : ∀ flag, lease.server.muteFlag name = some flag → flag = known
  undoable : known = initial ∨ known = true ∧ name ∈ lease.journal.mutedSinks
  recorded : name ∈ lease.journal.mutedSinks → initial = false
  pending : ∀ pending recorded, lease.work = .enforcing pending recorded → .muteSink name ∈ pending → initial = false
  listed : ∀ rest, lease.work = .enforcing (.muteSink name :: rest) true → name ∈ lease.journal.mutedSinks

namespace FlagKept

variable {name : String} {initial known : Bool} {lease next : MuteLease} {sessionSink : String} {prior : Option String}

section

variable (h : FlagKept name initial known lease)
include h

theorem getD : (lease.server.muteFlag name).getD known = known := by
  cases hf : lease.server.muteFlag name with
  | none => rfl
  | some flag => exact h.seen flag hf

section

variable (hf : ∀ flag, next.server.muteFlag name = some flag → flag = known)
  (hj : next.journal.mutedSinks = lease.journal.mutedSinks)
  (hpend : ∀ pending recorded, next.work = .enforcing pending recorded → .muteSink name ∈ pending → initial = false)
  (hlist : ∀ rest, next.work = .enforcing (.muteSink name :: rest) true → name ∈ lease.journal.mutedSinks)
include hf hj hpend hlist

theorem of_flag : FlagKept name initial known next := ⟨hf, hj ▸ h.undoable, hj ▸ h.recorded, hpend, hj ▸ hlist⟩

theorem still : FlagKept name initial ((next.server.muteFlag name).getD known) next := by
  have hnext := h.of_flag hf hj hpend hlist
  rw [hnext.getD]
  exact hnext

end

theorem record : FlagKept name initial known lease.record := by
  unfold MuteLease.record
  split
  · next action rest recorded hw =>
      have hmem : .muteSink name ∈ action :: rest → initial = false := h.pending _ _ hw
      have hundoa := h.undoable.imp_right fun ⟨ht, hlist⟩ =>
        And.intro ht ((RoutingAction.mem_record action).mpr (.inr hlist))
      refine ⟨h.seen, hundoa, fun hnow => ?_, fun pending _ hpend => ?_, fun later hlat => ?_⟩
      · rcases (RoutingAction.mem_record _).mp hnow with rfl | hpre
        · exact hmem mem_cons_self
        · exact h.recorded hpre
      · cases hpend
        exact hmem
      · cases hlat
        exact (RoutingAction.mem_record _).mpr (.inl rfl)
  · exact h

/-- A change that is applied was recorded before. -/
theorem applyNext : FlagKept name initial ((lease.applyNext.server.muteFlag name).getD known) lease.applyNext := by
  unfold MuteLease.applyNext
  split
  · next action rest hw =>
      have hpend (pending : List RoutingAction) (recorded : Bool)
          (heq : LeaseWork.enforcing rest false = .enforcing pending recorded) (hmem : .muteSink name ∈ pending) :
          initial = false := by
        cases heq
        exact h.pending _ _ hw (mem_cons_of_mem _ hmem)
      simp only [muteFlag_apply]
      split_ifs with hacti
      · subst hacti
        have hlist := h.listed rest hw
        cases hf : lease.server.muteFlag name with
        | none =>
          refine ⟨fun flag => ?_, h.undoable, h.recorded, hpend, nofun⟩
          simp [muteFlag_apply, hf]
        | some flag =>
          refine ⟨fun flag => ?_, .inr ⟨rfl, hlist⟩, h.recorded, hpend, nofun⟩
          simp [muteFlag_apply]
      · rw [h.getD]
        refine h.of_flag (fun flag => ?_) rfl hpend nofun
        rw [muteFlag_apply, if_neg hacti]
        exact h.seen flag
  · rw [h.getD]
    exact h

/-- An action of a restore run brings the flag back, or leaves it. -/
theorem undoNext (hl : Leased sessionSink prior lease) (choice : UnloadChoice) :
    FlagKept name initial (((lease.undoNext choice).server.muteFlag name).getD known) (lease.undoNext choice) := by
  unfold MuteLease.undoNext
  split
  · next action rest hw =>
      have hu := hl.restoring _ hw
      cases action with
      | setDefault =>
        refine h.still (fun flag => ?_) rfl (by simp) (by simp)
        rw [undo, muteFlag_setDefault]
        exact h.seen flag
      | unmuteSink other =>
        by_cases heq : name = other
        · subst heq
          have hi := h.recorded (hu.unmuted name mem_cons_self)
          cases hf : lease.server.muteFlag name with
          | none =>
            refine h.still (fun flag => ?_) rfl (by simp) (by simp)
            simp [undo, muteFlag_setMuted, hf]
          | some =>
            simp only [undo, muteFlag_setMuted, hf]
            refine ⟨fun flag => ?_, .inl hi.symm, h.recorded, by simp, by simp⟩
            simp [muteFlag_setMuted]
        · refine h.still (fun flag => ?_) rfl (by simp) (by simp)
          rw [undo, muteFlag_setMuted, if_neg heq]
          exact h.seen flag
      | unloadModule id =>
        refine h.still (fun flag hf => ?_) rfl (by simp) (by simp)
        rcases (unloads_unloadModule choice (hu.modules id mem_cons_self)).flags
          name with hk | ⟨-, hnone⟩
        · exact h.seen flag (hk.symm.trans hf)
        · cases hnone.symm.trans hf
  · rw [h.getD]
    exact h

theorem own (hl : Leased sessionSink prior lease) (hev : ¬event.byOthers) :
    FlagKept name initial (((lease.step event).server.muteFlag name).getD known) (lease.step event) := by
  cases event with
  | change => exact absurd trivial hev
  | recordModule => exact h.still h.seen rfl h.pending h.listed
  | enforce =>
    refine h.still h.seen rfl (fun pending recorded hpend hmem => ?_) fun rest hrest => ?_
    · cases hpend
      rcases h.undoable with hs | ⟨ht, -⟩
      · exact hs.symm.trans (h.seen false (muteFlag_of_mem_enforce hmem)).symm
      · cases (h.seen false (muteFlag_of_mem_enforce hmem)).trans ht
    · cases (LeaseWork.enforcing.inj hrest).2
  | record =>
    rw [step, record_server, h.getD]
    exact h.record
  | apply => exact h.applyNext
  | restore => exact h.still h.seen rfl (by simp [step]) (by simp [step])
  | undo choice => exact h.undoNext hl choice

theorem others (hev : event.byOthers)
    (hf : ∀ flag, (lease.step event).server.muteFlag name = some flag → flag = known) :
    FlagKept name initial known (lease.step event) := by
  obtain ⟨_, rfl⟩ := LeaseEvent.eq_change hev
  exact h.of_flag hf rfl (fun _ _ hpend => h.pending _ _ (enforcing_of_change hpend))
    fun _ hrest => h.listed _ (enforcing_of_change hrest)

end

end FlagKept

section Runs

variable (server : AudioServer) (sessionSink : String)

variable (events : List LeaseEvent)

/-- A sink whose flag nobody else changes, from the start of the lease on. -/
def FlagUndisturbed (name : String) (initial : Bool) : Prop :=
  (muteLeaseMachine server sessionSink).Undisturbed (fun lease => lease.server.muteFlag name) LeaseEvent.byOthers initial
    (muteLeaseMachine server sessionSink).init events

/-- The flag of such a sink is back once a restore run is complete. -/
theorem muteFlag_restored {events : List LeaseEvent} {name : String} {initial flag : Bool}
    (hcomp : ((muteLeaseMachine server sessionSink).exec events).work = .restoring [])
    (hi : server.muteFlag name = some initial) (hundi : FlagUndisturbed server sessionSink events name initial)
    (hf : ((muteLeaseMachine server sessionSink).exec events).server.muteFlag name = some flag) : flag = initial := by
  obtain ⟨known, hl, hk⟩ := Machine.Undisturbed.invariant
    (I := fun known lease => Leased sessionSink server.graph.defaultSink lease ∧ FlagKept name initial known lease)
    (fun known lease event hev h hs => ⟨h.1.step event, h.2.others hev hs⟩)
    (fun known lease event hev h => ⟨h.1.step event, h.2.own h.1 hev⟩) hundi
    ⟨Leased.start server sessionSink, fun flag h => Option.some_inj.mp (h.symm.trans hi), .inl rfl,
      fun h => absurd h not_mem_nil, nofun, nofun⟩
  have hknown := hk.seen flag hf
  rcases hk.undoable with hs | ⟨ht, hmem⟩
  · exact hknown.trans hs
  · subst hknown
    rw [ht] at hf
    cases (hl.restoring [] hcomp).mutes name hmem hf

/-! ### The default sink -/

/-- While the sink exists, the default is that sink or the session's. -/
def DefaultKept (sessionSink prior : String) (lease : MuteLease) : Prop :=
  (lease.server.muteFlag prior).isSome = true →
    lease.server.graph.defaultSink = some prior ∨ lease.server.graph.defaultSink = some sessionSink

variable {sessionSink} {prior : String} {before : Option String} {lease : MuteLease}

/-- Own steps bring back no sink, and leave the default or choose one of the two. -/
theorem DefaultKept.own (h : DefaultKept sessionSink prior lease)
    (hl : Leased sessionSink (some prior) lease) (hev : ¬event.byOthers) :
    DefaultKept sessionSink prior (lease.step event) := by
  have hsetDefault {name : String} (hname : name = prior ∨ name = sessionSink)
      (hp : (lease.server.muteFlag prior).isSome = true) :
      (lease.server.setDefault name).graph.defaultSink = some prior ∨
        (lease.server.setDefault name).graph.defaultSink = some sessionSink := by
    rw [defaultSink_setDefault]
    split_ifs
    · exact hname.imp (congrArg some) (congrArg some)
    · exact h hp
  cases event with
  | change => exact absurd trivial hev
  | recordModule | enforce | restore => exact h
  | record =>
    intro hp
    rw [step, record_server] at hp ⊢
    exact h hp
  | apply =>
    rw [MuteLease.step, MuteLease.applyNext]
    split
    · next action rest hw =>
        cases action with
        | muteSink =>
          intro hp
          rw [apply, isSome_muteFlag_setMuted] at hp
          exact h hp
        | setDefault name =>
          intro hp
          rw [apply, muteFlag_setDefault] at hp
          exact hsetDefault (.inr (hl.enforcing _ _ name hw mem_cons_self)) hp
        | moveStream => exact h
    · exact h
  | undo choice =>
    rw [MuteLease.step, MuteLease.undoNext]
    split
    · next action rest hw =>
        have hu := hl.restoring _ hw
        cases action with
        | setDefault name =>
          intro hp
          rw [undo, muteFlag_setDefault] at hp
          have hname := (hu.chosen name mem_cons_self).1
          exact hsetDefault (.inl (Option.some_inj.mp (hname.symm.trans hl.default))) hp
        | unmuteSink =>
          intro hp
          rw [undo, isSome_muteFlag_setMuted] at hp
          exact h hp
        | unloadModule id =>
          intro hp
          have hunl := unloads_unloadModule choice (hu.modules id mem_cons_self)
          rw [hl.sink] at hunl
          -- the default is restored before the module goes
          have hf : (lease.server.unloadModule id choice).muteFlag prior = lease.server.muteFlag prior := by
            rcases hunl.flags prior with hs | ⟨-, hnone⟩
            · exact hs
            · rw [undo, hnone] at hp
              cases hp
          rw [undo, hf] at hp
          rcases hunl.default with hs | ⟨ho, -, hgone⟩
          · simp only [undo, hs]
            exact h hp
          · have hoth : prior ≠ lease.journal.sessionSink := by
              intro heq
              rw [← hl.sink, ← heq, hf] at hgone
              rw [hgone] at hp
              cases hp
            rw [← hl.sink] at ho
            cases hu.default prior hl.default hoth ho hp
    · exact h

/-- Others leave the default as it is, and do not take the sink away or bring it back. -/
def LeavesDefault (prior : String) (before after : MuteLease) : Prop :=
  after.server.graph.defaultSink = before.server.graph.defaultSink ∧
    (after.server.muteFlag prior).isSome = (before.server.muteFlag prior).isSome

/-! ### Streams and modules -/

def SameStreamFlags (before after : MuteLease) : Prop := after.server.streamFlags = before.server.streamFlags

/-- Every module that does not create the session sink is still loaded. -/
def KeepsModules (sessionSink : String) (before after : MuteLease) : Prop :=
  ∀ module ∈ before.server.modules, module.sinkName ≠ some sessionSink → module ∈ after.server.modules

theorem step_own (hl : Leased sessionSink before lease) (hev : ¬event.byOthers) :
    SameStreamFlags lease (lease.step event) ∧ KeepsModules sessionSink lease (lease.step event) := by
  have hs : SameStreamFlags lease lease ∧ KeepsModules sessionSink lease lease := ⟨rfl, fun _ hmem _ => hmem⟩
  cases event with
  | change => exact absurd trivial hev
  | recordModule | enforce | restore => exact hs
  | record =>
    rw [MuteLease.step, MuteLease.record]
    split <;> exact hs
  | apply =>
    rw [MuteLease.step, MuteLease.applyNext]
    split
    · refine ⟨streamFlags_apply, fun module hmem _ => ?_⟩
      rwa [modules_apply]
    · exact hs
  | undo choice =>
    rw [MuteLease.step, MuteLease.undoNext]
    split
    · next action rest hw =>
        cases action with
        | setDefault =>
          refine ⟨streamFlags_setDefault, fun module hmem _ => ?_⟩
          rwa [undo, modules_setDefault]
        | unmuteSink => exact hs
        | unloadModule id =>
          have hunl := unloads_unloadModule choice ((hl.restoring _ hw).modules id mem_cons_self)
          rw [hl.sink] at hunl
          exact ⟨hunl.streams, hunl.kept⟩
    · exact hs

variable (sessionSink) in
/-- **A mute lease undoes exactly what it did.** After any run of passes, recorded change by change and cut off anywhere,
of changes by others and of restore runs, the last of them complete: a sink that exists at the start and at the end, and
whose flag nobody else changed, has its initial flag; the default is the initial one if that sink exists, the session sink
was the default when restoring began and nobody else has changed the default since; no step of the lease changed the flag
of a stream or unloaded a module that does not create the session sink; and once the modules that do are gone, another
restore has nothing to do. -/
theorem mute_lease_undone (hcomplete : ((muteLeaseMachine server sessionSink).exec events).work = .restoring []) :
    (∀ name initial flag, server.muteFlag name = some initial → FlagUndisturbed server sessionSink events name initial →
      ((muteLeaseMachine server sessionSink).exec events).server.muteFlag name = some flag → flag = initial) ∧
      (∀ first second prior, events = first ++ second → server.graph.defaultSink = some prior →
        ((muteLeaseMachine server sessionSink).exec first).server.graph.defaultSink = some sessionSink →
        (muteLeaseMachine server sessionSink).CallsRelate LeaseEvent.byOthers (LeavesDefault prior)
          ((muteLeaseMachine server sessionSink).exec first) second →
        (((muteLeaseMachine server sessionSink).exec events).server.muteFlag prior).isSome = true →
        ((muteLeaseMachine server sessionSink).exec events).server.graph.defaultSink = some prior) ∧
      (muteLeaseMachine server sessionSink).CallsRelate (fun event => ¬event.byOthers)
        (fun before after => SameStreamFlags before after ∧ KeepsModules sessionSink before after)
        (muteLeaseMachine server sessionSink).init events ∧
      restore ((muteLeaseMachine server sessionSink).exec events).journal
        ((muteLeaseMachine server sessionSink).exec events).server.graph [] = [] := by
  refine ⟨fun name initial flag hi hundi hf => ?_, ?_, ?_, ?_⟩
  · exact muteFlag_restored server sessionSink hcomplete hi hundi hf
  · rintro first second prior rfl hpr ho hoths hp
    -- from there on the default is the prior one or still the session sink
    have hfst := hpr ▸ Leased.run server sessionSink first
    obtain ⟨hl, hk⟩ := hoths.invariant
      (I := fun lease => Leased sessionSink (some prior) lease ∧ DefaultKept sessionSink prior lease)
      (fun lease event _ h hlv => ⟨h.1.step event, fun hnow => by
        have hs := h.2 (hlv.2 ▸ hnow)
        rwa [← hlv.1] at hs⟩)
      (fun lease event hev h => ⟨h.1.step event, h.2.own h.1 hev⟩) ⟨hfst, fun _ => .inr ho⟩
    rw [← Machine.exec_append] at hl hk
    rcases hk hp with hdone | hsess
    · exact hdone
    · by_cases hs : prior = sessionSink
      · rw [hsess, hs]
      · have hoth (heq : prior = _) := hs (heq.trans hl.sink)
        have hj := hsess.trans (congrArg some hl.sink.symm)
        cases (hl.restoring [] hcomplete).default prior hl.default hoth hj hp
  · exact Machine.callsRelate (I := Leased sessionSink server.graph.defaultSink) (fun lease event h => h.step event)
      (fun lease event hev h => step_own h hev) (Leased.start server sessionSink) events
  · exact ((Leased.run server sessionSink events).restoring [] hcomplete).restore_eq_nil

end Runs

/-- A server with one sink in use; the session sink joins it when the lease has begun. -/
def speakerServer : AudioServer :=
  ⟨⟨some "speakers", [⟨"speakers", false⟩], [⟨1, .sink "speakers", false, false⟩]⟩, [], by decide, by decide⟩

def speakerServerWithSession : AudioServer :=
  ⟨⟨some "speakers", [⟨"speakers", false⟩, ⟨"session", false⟩], [⟨1, .sink "speakers", false, false⟩]⟩,
    [⟨7, some "session"⟩], by decide, by decide⟩

/-- A lease that stops after it has muted the speakers, and is restored from its journal. -/
def stoppedLease : List LeaseEvent :=
  [.change speakerServerWithSession, .enforce, .record, .apply, .restore, .undo ⟨true, none⟩, .undo ⟨true, none⟩]

theorem stopped_lease_undone : restore ((muteLeaseMachine speakerServer "session").exec stoppedLease).journal
        ((muteLeaseMachine speakerServer "session").exec stoppedLease).server.graph [] = [] ∧
      ((muteLeaseMachine speakerServer "session").exec stoppedLease).server.muteFlag "speakers" = some false := by
  have h := mute_lease_undone speakerServer "session" stoppedLease rfl
  refine ⟨h.2.2.2, ?_⟩
  have hf : (((muteLeaseMachine speakerServer "session").exec stoppedLease).server.muteFlag "speakers").isSome = true :=
    rfl
  obtain ⟨flag, hf⟩ := Option.isSome_iff_exists.mp hf
  rw [hf, h.1 "speakers" false flag rfl ?_ hf]
  refine ⟨fun _ value hval => (Option.some_inj.mp hval).symm, ?_⟩
  exact ⟨False.elim, False.elim, False.elim, False.elim, False.elim, False.elim, trivial⟩

end Arcen
