import Arcen.Interference
import Arcen.LocalPlayback

/-! Runs of a mute lease: passes that silence the host, each change recorded before it is applied, changes of the server
by others, and runs that restore from the journal. A process may stop at any step: the next pass or restore run reads
the server anew. -/

namespace Arcen

open AudioServer List

/-- What the running process has still to do. -/
inductive LeaseWork where
  | idle
  | enforcing (pending : List RoutingAction) (recorded : Bool)
  | restoring (pending : List RestoreAction)

structure MuteLease where
  server : AudioServer
  journal : LeaseJournal
  work : LeaseWork

inductive LeaseEvent where
  /-- Others change the server in any way. A restore run that was under way has stopped. -/
  | change (server : AudioServer)
  | recordModule (id : Nat)
  | enforce
  | record
  | apply
  | restore
  | undo (choice : UnloadChoice)

def LeaseEvent.byOthers : LeaseEvent → Prop
  | .change _ => True
  | _ => False

namespace MuteLease

def start (server : AudioServer) (sessionSink : String) : MuteLease :=
  ⟨server, .new sessionSink server.graph.defaultSink, .idle⟩

def record (lease : MuteLease) : MuteLease :=
  match lease.work with
  | .enforcing (action :: rest) _ =>
    { lease with journal := action.record lease.journal, work := .enforcing (action :: rest) true }
  | _ => lease

variable (lease : MuteLease)

def applyNext : MuteLease :=
  match lease.work with
  | .enforcing (action :: rest) true => { lease with server := lease.server.apply action, work := .enforcing rest false }
  | _ => lease

def undoNext (choice : UnloadChoice) : MuteLease :=
  match lease.work with
  | .restoring (action :: rest) => { lease with server := lease.server.undo choice action, work := .restoring rest }
  | _ => lease

def step : LeaseEvent → MuteLease
  | .change server =>
    { lease with
      server
      work := match lease.work with
        | .restoring _ => .idle
        | work => work }
  | .recordModule id => { lease with journal := { lease.journal with moduleId := some id } }
  | .enforce => { lease with work := .enforcing (Arcen.enforce lease.server.graph lease.journal.sessionSink) false }
  | .record => lease.record
  | .apply => lease.applyNext
  | .restore =>
    { lease with
      work := .restoring
        (Arcen.restore lease.journal lease.server.graph (lease.server.modulesOf lease.journal.sessionSink)) }
  | .undo choice => lease.undoNext choice

variable {lease : MuteLease} {server : AudioServer}

/-- A change by others leaves what a pass has still to do. -/
theorem enforcing_of_change (h : (lease.step (.change server)).work = .enforcing pending recorded) :
    lease.work = .enforcing pending recorded := by
  cases hw : lease.work <;> simp_all [step]

/-- It ends a restore run. -/
theorem not_restoring_change : (lease.step (.change server)).work ≠ .restoring pending := by
  cases hw : lease.work <;> simp [step, hw]

theorem record_server : lease.record.server = lease.server := by
  unfold record
  split <;> rfl

end MuteLease

theorem LeaseEvent.eq_change {event : LeaseEvent} (h : event.byOthers) : ∃ server, event = .change server := by
  cases event with
  | change server => exact ⟨server, rfl⟩
  | _ => exact h.elim

def muteLeaseMachine (server : AudioServer) (sessionSink : String) : Machine MuteLease LeaseEvent Unit where
  init := .start server sessionSink
  step lease event := (lease.step event, ())

/-! ### A restore run -/

/-- What holds while a restore run has actions to apply. -/
structure Undoing (journal : LeaseJournal) (server : AudioServer) (pending : List RestoreAction) : Prop where
  mutes : ∀ name ∈ journal.mutedSinks, server.muteFlag name = some true → .unmuteSink name ∈ pending
  default : ∀ prior, journal.priorDefault = some prior → prior ≠ journal.sessionSink →
    server.graph.defaultSink = some journal.sessionSink → (server.muteFlag prior).isSome = true →
      pending.head? = some (.setDefault prior)
  chosen : ∀ name, .setDefault name ∈ pending → journal.priorDefault = some name ∧ name ≠ journal.sessionSink
  unmuted : ∀ name, .unmuteSink name ∈ pending → name ∈ journal.mutedSinks
  modules : ∀ id, .unloadModule id ∈ pending → ∀ module ∈ server.modules, module.id = id →
    module.sinkName = some journal.sessionSink

namespace Undoing

variable {journal : LeaseJournal} {server : AudioServer}

variable {graph : PlaybackGraph} {action : RestoreAction}

theorem mem_restoreDefault (h : action ∈ restoreDefault journal graph) :
    ∃ prior, action = .setDefault prior ∧ journal.priorDefault = some prior ∧ prior ≠ journal.sessionSink := by
  unfold restoreDefault at h
  split at h
  · next prior hpr =>
      split_ifs at h with ho
      · exact ⟨prior, mem_singleton.mp h, hpr, ho.1⟩
      · exact absurd h not_mem_nil
  · exact absurd h not_mem_nil

theorem mem_restoreModules
    (h : action ∈ restoreModules journal graph ids) : ∃ id ∈ ids, action = .unloadModule id := by
  unfold restoreModules at h
  split_ifs at h with hs
  · split at h
    · split_ifs at h with hmem
      · exact ⟨_, hmem, mem_singleton.mp h⟩
      · obtain ⟨id, hid, rfl⟩ := mem_map.mp h
        exact ⟨id, hid, rfl⟩
    · obtain ⟨id, hid, rfl⟩ := mem_map.mp h
      exact ⟨id, hid, rfl⟩
  · exact absurd h not_mem_nil

/-- What the actions of a restore are about. -/
theorem mem_restore (h : action ∈ restore journal graph ids) :
    match action with
    | .setDefault prior => journal.priorDefault = some prior ∧ prior ≠ journal.sessionSink
    | .unmuteSink name => name ∈ journal.mutedSinks
    | .unloadModule id => id ∈ ids := by
  rcases mem_append.mp h with h | h
  · rcases mem_append.mp h with h | h
    · obtain ⟨prior, rfl, hc⟩ := mem_restoreDefault h
      exact hc
    · obtain ⟨name, hn, rfl⟩ := mem_map.mp h
      exact mem_of_mem_filter hn
  · obtain ⟨id, hid, rfl⟩ := mem_restoreModules h
    exact hid

theorem start (journal : LeaseJournal) (server : AudioServer) :
    Undoing journal server (restore journal server.graph (server.modulesOf journal.sessionSink)) where
  mutes name hn hm := by
    refine mem_append_left _ (mem_append_right _ (mem_map_of_mem (mem_filter.mpr ⟨hn, ?_⟩)))
    obtain ⟨_, hs, hflag⟩ := Option.map_eq_some_iff.mp hm
    rw [hs, Option.any_some, hflag]
  default prior hpr hoth ho hp := by
    rw [isSome_muteFlag] at hp
    have hd : restoreDefault journal server.graph = [.setDefault prior] := by
      rw [restoreDefault, hpr]
      exact if_pos ⟨hoth, ho, hp⟩
    rw [restore, hd]
    rfl
  chosen _ hn := mem_restore hn
  unmuted _ hn := mem_restore hn
  modules id hid module hmodul hsame := by
    obtain ⟨_, hcrea, hcreat⟩ := mem_map.mp (mem_restore hid)
    obtain ⟨hmem, hs⟩ := mem_filter.mp hcrea
    rw [inj_on_of_nodup_map server.uniqueModules hmodul hmem (hsame.trans hcreat.symm)]
    exact of_decide_eq_true hs

/-- One action of the run. The default is the first of them, so that after it there is none to restore. -/
theorem step (h : Undoing journal server (action :: rest))
    (choice : UnloadChoice) : Undoing journal (server.undo choice action) rest := by
  have hhead {prior : String} (hpr : journal.priorDefault = some prior) (hoth : prior ≠ journal.sessionSink)
      (ho : server.graph.defaultSink = some journal.sessionSink) (hp : (server.muteFlag prior).isSome = true) :
      action = .setDefault prior := Option.some_inj.mp (h.default prior hpr hoth ho hp)
  have hc (name : String) (hn : .setDefault name ∈ rest) := h.chosen name (mem_cons_of_mem _ hn)
  have hunmut (name : String) (hn : .unmuteSink name ∈ rest) := h.unmuted name (mem_cons_of_mem _ hn)
  have hmodu (id : Nat) (hid : .unloadModule id ∈ rest) := h.modules id (mem_cons_of_mem _ hid)
  cases action with
  | setDefault name =>
    refine ⟨fun other hmem hm => ?_, fun prior hpr hoth ho hp => ?_, hc, hunmut, ?_⟩
    · rw [undo, muteFlag_setDefault] at hm
      exact (mem_cons.mp (h.mutes other hmem hm)).resolve_left nofun
    · rw [undo, muteFlag_setDefault] at hp
      rw [undo, defaultSink_setDefault] at ho
      split_ifs at ho with hn
      · exact absurd (Option.some_inj.mp ho) (h.chosen name mem_cons_self).2
      · cases hhead hpr hoth ho hp
        exact absurd hp hn
    · rw [undo, modules_setDefault]
      exact hmodu
  | unmuteSink =>
    refine ⟨fun other hmem hm => ?_, fun prior hpr hoth ho hp => ?_, hc, hunmut, hmodu⟩
    · rw [undo, muteFlag_setMuted] at hm
      split_ifs at hm with heq
      · simp at hm
      · refine mem_of_ne_of_mem (fun hsame => heq ?_) (h.mutes other hmem hm)
        cases hsame
        rfl
    · rw [undo, isSome_muteFlag_setMuted] at hp
      cases hhead hpr hoth ho hp
  | unloadModule id =>
    have hunl := unloads_unloadModule choice (h.modules id mem_cons_self)
    refine ⟨fun other hmem hm => ?_, fun prior hpr hoth ho hp => ?_, hc, hunmut, ?_⟩
    · rcases hunl.flags other with hsame | ⟨-, hnone⟩
      · exact (mem_cons.mp (h.mutes other hmem (hsame.symm.trans hm))).resolve_left nofun
      · cases hnone.symm.trans hm
    · rcases hunl.default with hsame | ⟨-, hnot, -⟩
      · rcases hunl.flags prior with hflag | ⟨heq, -⟩
        · cases hhead hpr hoth (hsame.symm.trans ho) (hflag ▸ hp)
        · exact absurd heq hoth
      · exact absurd ho hnot
    · exact fun other hid module hmem => hmodu other hid module (hunl.fewer module hmem)

/-- A run that is complete leaves nothing for another one, once the modules are gone. -/
theorem restore_eq_nil (h : Undoing journal server []) : restore journal server.graph [] = [] := by
  have hd : restoreDefault journal server.graph = [] := by
    unfold restoreDefault
    split
    · next prior hpr =>
        refine if_neg fun ⟨hoth, ho, hp⟩ => ?_
        cases h.default prior hpr hoth ho (isSome_muteFlag ▸ hp)
    · rfl
  have hmutes : (journal.mutedSinks.filter fun name => (server.graph.sink name).any (·.muted)) = [] := by
    refine filter_eq_nil_iff.mpr fun name hn hm => ?_
    cases hs : server.graph.sink name with
    | none => simp [hs] at hm
    | some sink =>
      rw [hs] at hm
      cases h.mutes name hn (Option.map_eq_some_iff.mpr ⟨sink, hs, hm⟩)
  have hmodu : restoreModules journal server.graph [] = [] := by
    refine eq_nil_iff_forall_not_mem.mpr fun action hacti => ?_
    obtain ⟨_, hid, -⟩ := mem_restoreModules hacti
    exact not_mem_nil hid
  rw [restore, hd, hmutes, hmodu]
  rfl

end Undoing

/-! ### Runs -/

/-- What a lease has on its hands: changes that were read off the server, or a restore run. -/
structure Leased (sessionSink : String) (prior : Option String) (lease : MuteLease) : Prop where
  sink : lease.journal.sessionSink = sessionSink
  default : lease.journal.priorDefault = prior
  enforcing : ∀ pending recorded name, lease.work = .enforcing pending recorded → .setDefault name ∈ pending →
    name = sessionSink
  restoring : ∀ pending, lease.work = .restoring pending → Undoing lease.journal lease.server pending

namespace Leased

variable {sessionSink : String} {prior : Option String} {lease : MuteLease}

/-- Without a restore run under way, only what is pending matters. -/
theorem of_work {next : MuteLease} (h : Leased sessionSink prior lease)
    (hs : next.journal.sessionSink = lease.journal.sessionSink)
    (hd : next.journal.priorDefault = lease.journal.priorDefault)
    (hw : ∀ pending recorded name, next.work = .enforcing pending recorded → .setDefault name ∈ pending →
      name = sessionSink)
    (hrest : ∀ pending, next.work ≠ .restoring pending) : Leased sessionSink prior next :=
  ⟨hs.trans h.sink, hd.trans h.default, hw, fun pending hpend => absurd hpend (hrest pending)⟩

theorem record_journal (action : RoutingAction) (journal : LeaseJournal) :
    (action.record journal).sessionSink = journal.sessionSink ∧
      (action.record journal).priorDefault = journal.priorDefault := by
  cases action with
  | muteSink =>
    unfold RoutingAction.record
    simp only
    split_ifs <;> exact ⟨rfl, rfl⟩
  | setDefault | moveStream => exact ⟨rfl, rfl⟩

section

variable (h : Leased sessionSink prior lease)
include h

theorem record : Leased sessionSink prior lease.record := by
  unfold MuteLease.record
  split
  · next action rest recorded hw =>
      obtain ⟨hs, hd⟩ := record_journal action lease.journal
      refine h.of_work hs hd (fun pending _ name hpend hmem => ?_) nofun
      cases hpend
      exact h.enforcing _ _ name hw hmem
  · exact h

theorem applyNext : Leased sessionSink prior lease.applyNext := by
  unfold MuteLease.applyNext
  split
  · next action rest hw =>
      refine h.of_work rfl rfl (fun pending _ name hpend hmem => ?_) nofun
      cases hpend
      exact h.enforcing _ _ name hw (mem_cons_of_mem _ hmem)
  · exact h

theorem undoNext (choice : UnloadChoice) : Leased sessionSink prior (lease.undoNext choice) := by
  unfold MuteLease.undoNext
  split
  · next action rest hw =>
      refine ⟨h.sink, h.default, nofun, fun pending hpend => ?_⟩
      cases hpend
      exact (h.restoring _ hw).step choice
  · exact h

end

theorem setDefault_of_mem_enforce {graph : PlaybackGraph}
    (h : .setDefault name ∈ Arcen.enforce graph sessionSink) : name = sessionSink := by
  unfold Arcen.enforce at h
  split_ifs at h with hs hd
  · exact absurd h not_mem_nil
  · simp at h
  · simpa using h

theorem step (h : Leased sessionSink prior lease) (event : LeaseEvent) : Leased sessionSink prior (lease.step event) := by
  cases event with
  | change =>
    exact h.of_work rfl rfl (fun _ _ name hpend => h.enforcing _ _ name (MuteLease.enforcing_of_change hpend))
      fun _ => MuteLease.not_restoring_change
  | recordModule =>
    refine ⟨h.sink, h.default, h.enforcing, fun pending hpend => ?_⟩
    have hundo := h.restoring pending hpend
    exact ⟨hundo.mutes, hundo.default, hundo.chosen, hundo.unmuted, hundo.modules⟩
  | enforce =>
    refine h.of_work rfl rfl (fun pending recorded name hpend hmem => ?_) nofun
    cases hpend
    exact (setDefault_of_mem_enforce hmem).trans h.sink
  | record => exact h.record
  | apply => exact h.applyNext
  | restore =>
    refine ⟨h.sink, h.default, nofun, fun pending hpend => ?_⟩
    cases hpend
    exact .start lease.journal lease.server
  | undo choice => exact h.undoNext choice

variable (server : AudioServer) (sessionSink : String)

theorem start : Leased sessionSink server.graph.defaultSink (.start server sessionSink) := ⟨rfl, rfl, nofun, nofun⟩

theorem run (events : List LeaseEvent) :
    Leased sessionSink server.graph.defaultSink ((muteLeaseMachine server sessionSink).exec events) :=
  (muteLeaseMachine server sessionSink).invariant (P := Leased sessionSink server.graph.defaultSink)
    (start server sessionSink) (fun _ event h => h.step event) events

end Leased
end Arcen
