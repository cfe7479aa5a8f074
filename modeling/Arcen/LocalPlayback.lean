import Arcen.History

/-! Muting a host's own speakers (`shared/session/src/local_playback.rs`): the routing of an audio server, the changes
that silence every sink but the session's, the journal of what a lease changed and the changes that undo it. The server
itself is modelled by what each change does to it. -/

namespace Arcen

open List

/-! ### The routing of a server -/

structure Sink where
  name : String
  muted : Bool

inductive StreamTarget where
  | unconnected
  | sink (name : String)
  | unknown
  deriving DecidableEq

structure Stream where
  id : Nat
  target : StreamTarget
  muted : Bool
  /-- The server refused to move it. -/
  moveRefused : Bool

structure PlaybackGraph where
  defaultSink : Option String
  sinks : List Sink
  streams : List Stream

def PlaybackGraph.sink (graph : PlaybackGraph) (name : String) : Option Sink :=
  graph.sinks.find? fun sink => sink.name == name

/-! ### Enforcing -/

inductive RoutingAction where
  | muteSink (name : String)
  | setDefault (name : String)
  | moveStream (id : Nat) (destination : String)
  deriving DecidableEq

/-- What a mute lease changed, persisted before each change. -/
structure LeaseJournal where
  sessionSink : String
  moduleId : Option Nat
  priorDefault : Option String
  /-- In ascending order, each once. -/
  mutedSinks : List String

def LeaseJournal.new (sessionSink : String) (priorDefault : Option String) : LeaseJournal :=
  ⟨sessionSink, none, priorDefault, []⟩

def RoutingAction.record (action : RoutingAction) (journal : LeaseJournal) : LeaseJournal :=
  match action with
  | .muteSink name =>
    if name ∈ journal.mutedSinks then journal
    else { journal with mutedSinks := journal.mutedSinks.orderedInsert (· ≤ ·) name }
  | .setDefault _ | .moveStream _ _ => journal

theorem RoutingAction.mem_record (action : RoutingAction) {journal : LeaseJournal} :
    name ∈ (action.record journal).mutedSinks ↔ action = .muteSink name ∨ name ∈ journal.mutedSinks := by
  cases action with
  | muteSink =>
    rw [record]
    split_ifs with hmem
    · simp only [muteSink.injEq]
      exact ⟨.inr, fun h => h.elim (fun heq => heq ▸ hmem) id⟩
    · simp [eq_comm (a := name)]
  | setDefault | moveStream => simp [record]

def Stream.elsewhere (stream : Stream) (sessionSink : String) : Bool :=
  match stream.target with
  | .unconnected => false
  | .sink name => name != sessionSink
  | .unknown => true

/-- The changes that silence every sink except the session's and route every stream to it, in order. -/
def enforce (graph : PlaybackGraph) (sessionSink : String) : List RoutingAction :=
  if (graph.sink sessionSink).isNone then []
  else
    ((graph.sinks.filter fun sink => sink.name != sessionSink && !sink.muted).map fun sink => .muteSink sink.name) ++
      (if graph.defaultSink = some sessionSink then [] else [.setDefault sessionSink]) ++
      (graph.streams.filter fun stream => stream.elsewhere sessionSink && !stream.moveRefused).map fun stream =>
        .moveStream stream.id sessionSink

theorem mem_enforce {graph : PlaybackGraph} : action ∈ enforce graph sessionSink ↔ (graph.sink sessionSink).isSome ∧
      ((∃ sink ∈ graph.sinks, (sink.name ≠ sessionSink ∧ sink.muted = false) ∧ .muteSink sink.name = action) ∨
      (graph.defaultSink ≠ some sessionSink ∧ action = .setDefault sessionSink) ∨
      ∃ stream ∈ graph.streams, (stream.elsewhere sessionSink = true ∧ stream.moveRefused = false) ∧
        .moveStream stream.id sessionSink = action) := by
  unfold enforce
  cases graph.sink sessionSink with
  | none => simp
  | some => by_cases hd : graph.defaultSink = some sessionSink <;> simp [and_assoc]

/-! ### Restoring -/

inductive RestoreAction where
  | setDefault (name : String)
  | unmuteSink (name : String)
  | unloadModule (id : Nat)

variable (journal : LeaseJournal)

/-- The default of before the lease, while it exists and the session sink is still the default. -/
def restoreDefault (graph : PlaybackGraph) : List RestoreAction :=
  match journal.priorDefault with
  | some prior =>
    if prior ≠ journal.sessionSink ∧ graph.defaultSink = some journal.sessionSink ∧ (graph.sink prior).isSome then
      [.setDefault prior]
    else []
  | none => []

def restoreModules (graph : PlaybackGraph) (sessionSinkModules : List Nat) : List RestoreAction :=
  if (graph.sink journal.sessionSink).isSome then
    match journal.moduleId with
    | some id => if id ∈ sessionSinkModules then [.unloadModule id] else sessionSinkModules.map .unloadModule
    | none => sessionSinkModules.map .unloadModule
  else []

/-- The changes that undo a journal on a graph, in order. -/
def restore (graph : PlaybackGraph) (sessionSinkModules : List Nat) : List RestoreAction :=
  restoreDefault journal graph ++
    ((journal.mutedSinks.filter fun name => (graph.sink name).any (·.muted)).map .unmuteSink) ++
    restoreModules journal graph sessionSinkModules

/-! ### The server -/

structure ServerModule where
  id : Nat
  /-- The sink it creates, if it creates one. -/
  sinkName : Option String

/-- An audio server: names of sinks and ids of modules are unique. -/
structure AudioServer where
  graph : PlaybackGraph
  modules : List ServerModule
  uniqueSinks : (graph.sinks.map (·.name)).Nodup
  uniqueModules : (modules.map (·.id)).Nodup

/-- What the server decides when a module goes: whether its sink goes with it, and the next default. -/
structure UnloadChoice where
  sinkGoes : Bool
  fallback : Option String

def Sink.setMuted (name : String) (muted : Bool) (sink : Sink) : Sink :=
  if sink.name = name then { sink with muted } else sink

@[simp] theorem Sink.setMuted_name (name : String) (muted : Bool) (sink : Sink) :
    (sink.setMuted name muted).name = sink.name := by
  unfold setMuted
  split_ifs <;> rfl

variable (graph : PlaybackGraph)

/-- The graph without a sink: its streams move to the default, which may be a new one. -/
def PlaybackGraph.withoutSink (name : String) (fallback : Option String) : PlaybackGraph :=
  let sinks := graph.sinks.filter fun sink => sink.name != name
  let defaultSink :=
    if graph.defaultSink = some name then fallback.filter fun other => sinks.any fun sink => sink.name == other
    else graph.defaultSink
  { defaultSink
    sinks
    streams := graph.streams.map fun stream =>
      if stream.target = .sink name then { stream with target := defaultSink.elim .unconnected .sink } else stream }

/-- The graph once the module that creates the sink is gone. -/
def PlaybackGraph.unloaded (sinkName : Option String) (choice : UnloadChoice) : PlaybackGraph :=
  match sinkName, choice.sinkGoes with
  | some name, true => graph.withoutSink name choice.fallback
  | _, _ => graph

theorem PlaybackGraph.unloaded_cases (sinkName : Option String) (choice : UnloadChoice) :
    graph.unloaded sinkName choice = graph ∨
      ∃ name, sinkName = some name ∧ graph.unloaded sinkName choice = graph.withoutSink name choice.fallback := by
  unfold unloaded
  split
  · exact .inr ⟨_, rfl, rfl⟩
  · exact .inl rfl

theorem PlaybackGraph.unloaded_nodup {graph : PlaybackGraph} (h : (graph.sinks.map (·.name)).Nodup)
    (sinkName : Option String) (choice : UnloadChoice) :
    ((graph.unloaded sinkName choice).sinks.map (·.name)).Nodup := by
  rcases graph.unloaded_cases sinkName choice with hsame | ⟨name, -, hg⟩
  · rwa [hsame]
  · rw [hg]
    exact h.sublist (List.filter_sublist.map _)

namespace PlaybackGraph

variable {graph : PlaybackGraph} {name other : String} {sinkName : Option String} {fallback : Option String}
  {choice : UnloadChoice}

theorem sink_withoutSink :
    (graph.withoutSink name fallback).sink other = if other = name then none else graph.sink other := by
  rw [sink, withoutSink, find?_filter]
  split_ifs with heq
  · rw [find?_eq_none]
    intro sink _
    simp [heq]
  · refine congrArg (find? · graph.sinks) (funext fun sink => ?_)
    by_cases hn : sink.name = other
    · simp [hn, heq]
    · simp [hn]

theorem sink_unloaded (graph : PlaybackGraph) (choice : UnloadChoice) : (graph.unloaded sinkName choice).sink name = graph.sink name ∨
    sinkName = some name ∧ (graph.unloaded sinkName choice).sink name = none := by
  rcases graph.unloaded_cases sinkName choice with hsame | ⟨gone, hg, hu⟩
  · exact .inl (by rw [hsame])
  · rw [hu, sink_withoutSink]
    split_ifs with heq
    · exact .inr ⟨heq ▸ hg, rfl⟩
    · exact .inl rfl

/-- The default stays, or it was the sink that is gone. -/
theorem defaultSink_unloaded (graph : PlaybackGraph) (choice : UnloadChoice) : (graph.unloaded (some name) choice).defaultSink = graph.defaultSink ∨
    graph.defaultSink = some name ∧ (graph.unloaded (some name) choice).defaultSink ≠ some name ∧
      (graph.unloaded (some name) choice).sink name = none := by
  rcases graph.unloaded_cases (some name) choice with hsame | ⟨gone, hg, hu⟩
  · exact .inl (by rw [hsame])
  · cases hg
    rw [hu]
    by_cases hdef : graph.defaultSink = some name
    · refine .inr ⟨hdef, fun hn => ?_, by rw [sink_withoutSink, if_pos rfl]⟩
      simp only [withoutSink, if_pos hdef] at hn
      simpa using (Option.filter_eq_some_iff.mp hn).2
    · exact .inl (if_neg hdef)

theorem streams_unloaded : (graph.unloaded sinkName choice).streams.map (fun stream => (stream.id, stream.muted)) =
    graph.streams.map fun stream => (stream.id, stream.muted) := by
  rcases graph.unloaded_cases sinkName choice with hsame | ⟨gone, -, hu⟩
  · rw [hsame]
  · rw [hu, withoutSink, map_map]
    refine map_congr_left fun stream _ => ?_
    simp only [Function.comp_apply]
    split_ifs <;> rfl

end PlaybackGraph

namespace AudioServer

variable (server : AudioServer)

def muteFlag (name : String) : Option Bool := (server.graph.sink name).map (·.muted)

def modulesOf (sinkName : String) : List Nat :=
  (server.modules.filter fun module => module.sinkName = some sinkName).map (·.id)

def streamFlags : List (Nat × Bool) := server.graph.streams.map fun stream => (stream.id, stream.muted)

def setMuted (server : AudioServer) (name : String) (muted : Bool) : AudioServer := { server with
    graph := { server.graph with sinks := server.graph.sinks.map (Sink.setMuted name muted) }
    uniqueSinks := by simpa [Function.comp_def] using server.uniqueSinks }

def setDefault (name : String) : AudioServer :=
  if (server.graph.sink name).isSome then
    { server with graph := { server.graph with defaultSink := some name } }
  else server

def moveStream (id : Nat) (destination : String) : AudioServer := { server with
    graph := { server.graph with
      streams := server.graph.streams.map fun stream =>
        if stream.id = id then { stream with target := .sink destination } else stream } }

def unloadModule (id : Nat) (choice : UnloadChoice) : AudioServer :=
  match server.modules.find? fun module => module.id == id with
  | none => server
  | some found =>
    { graph := server.graph.unloaded found.sinkName choice
      modules := server.modules.filter fun module => module.id != id
      uniqueSinks := PlaybackGraph.unloaded_nodup server.uniqueSinks _ _
      uniqueModules := server.uniqueModules.sublist (List.filter_sublist.map _) }

def apply : RoutingAction → AudioServer
  | .muteSink name => server.setMuted name true
  | .setDefault name => server.setDefault name
  | .moveStream id destination => server.moveStream id destination

def undo (choice : UnloadChoice) : RestoreAction → AudioServer
  | .setDefault name => server.setDefault name
  | .unmuteSink name => server.setMuted name false
  | .unloadModule id => server.unloadModule id choice

/-! ### What the changes leave -/

variable {server : AudioServer} {name other : String} {muted : Bool} {id : Nat} {choice : UnloadChoice}

theorem muteFlag_setMuted : (server.setMuted name muted).muteFlag other =
    if other = name then (server.muteFlag other).map fun _ => muted else server.muteFlag other := by
  have hfind : (server.setMuted name muted).graph.sink other =
      (server.graph.sink other).map (Sink.setMuted name muted) := by
    simp only [setMuted, PlaybackGraph.sink, find?_map, Function.comp_def, Sink.setMuted_name]
  rw [muteFlag, hfind, muteFlag]
  cases hs : server.graph.sink other with
  | none => simp
  | some sink =>
    have hn : sink.name = other := by simpa using find?_some hs
    simp only [Option.map_some, Sink.setMuted, hn]
    split_ifs <;> rfl

@[simp] theorem muteFlag_setDefault : (server.setDefault name).muteFlag other = server.muteFlag other := by
  unfold setDefault
  split_ifs <;> rfl

@[simp] theorem modules_setDefault : (server.setDefault name).modules = server.modules := by
  unfold setDefault
  split_ifs <;> rfl

theorem defaultSink_setDefault : (server.setDefault name).graph.defaultSink =
    if (server.muteFlag name).isSome then some name else server.graph.defaultSink := by
  rw [setDefault, muteFlag, Option.isSome_map]
  split_ifs <;> rfl

theorem isSome_muteFlag_setMuted :
    ((server.setMuted name muted).muteFlag other).isSome = (server.muteFlag other).isSome := by
  rw [muteFlag_setMuted]
  split_ifs
  · exact Option.isSome_map
  · rfl

theorem isSome_muteFlag : (server.muteFlag name).isSome = (server.graph.sink name).isSome := Option.isSome_map

theorem muteFlag_eq_some_iff : server.muteFlag name = some muted ↔ ⟨name, muted⟩ ∈ server.graph.sinks := by
  rw [muteFlag, Option.map_eq_some_iff]
  constructor
  · rintro ⟨sink, hs, rfl⟩
    have hn : sink.name = name := by simpa using find?_some hs
    subst hn
    exact mem_of_find?_eq_some hs
  · intro hmem
    refine ⟨⟨name, muted⟩, ?_, rfl⟩
    obtain ⟨sink, hs⟩ : ∃ sink, server.graph.sinks.find? (fun sink => sink.name == name) = some sink :=
      Option.isSome_iff_exists.mp (find?_isSome.mpr ⟨_, hmem, beq_self_eq_true name⟩)
    have hn : sink.name = name := by simpa using find?_some hs
    rw [PlaybackGraph.sink, hs, inj_on_of_nodup_map server.uniqueSinks (mem_of_find?_eq_some hs) hmem hn]

variable {sessionSink : String} {action : RoutingAction}

/-- What is to be muted is a sink other than the session's, and not muted. -/
theorem muteFlag_of_mem_enforce (h : .muteSink name ∈ enforce server.graph sessionSink) :
    server.muteFlag name = some false := by
  obtain ⟨-, ⟨sink, hmem, ⟨-, hmuted⟩, hn⟩ | ⟨-, h⟩ | ⟨_, -, -, h⟩⟩ := mem_enforce.mp h
  · cases hn
    rw [muteFlag_eq_some_iff, ← hmuted]
    exact hmem
  · cases h
  · cases h

@[simp] theorem streamFlags_setDefault : (server.setDefault name).streamFlags = server.streamFlags := by
  unfold setDefault
  split_ifs <;> rfl

@[simp] theorem streamFlags_apply : (server.apply action).streamFlags = server.streamFlags := by
  cases action with
  | muteSink => rfl
  | setDefault => exact streamFlags_setDefault
  | moveStream =>
    simp only [apply, moveStream, streamFlags, map_map]
    refine map_congr_left fun stream _ => ?_
    simp only [Function.comp_apply]
    split_ifs <;> rfl

@[simp] theorem modules_apply : (server.apply action).modules = server.modules := by
  cases action with
  | muteSink | moveStream => rfl
  | setDefault => exact modules_setDefault

theorem muteFlag_apply : (server.apply action).muteFlag name =
    if action = .muteSink name then (server.muteFlag name).map fun _ => true else server.muteFlag name := by
  cases action with
  | muteSink => simp only [apply, muteFlag_setMuted, RoutingAction.muteSink.injEq, eq_comm]
  | setDefault => simp [apply]
  | moveStream => rfl

/-- What unloading a module does, when the modules of that id all create the session sink. -/
structure Unloads (server : AudioServer) (sessionSink : String) (after : AudioServer) : Prop where
  flags : ∀ name, after.muteFlag name = server.muteFlag name ∨ name = sessionSink ∧ after.muteFlag name = none
  default : after.graph.defaultSink = server.graph.defaultSink ∨
    server.graph.defaultSink = some sessionSink ∧ after.graph.defaultSink ≠ some sessionSink ∧
      after.muteFlag sessionSink = none
  kept : ∀ module ∈ server.modules, module.sinkName ≠ some sessionSink → module ∈ after.modules
  fewer : ∀ module ∈ after.modules, module ∈ server.modules
  streams : after.streamFlags = server.streamFlags

theorem unloads_unloadModule (choice : UnloadChoice)
    (h : ∀ module ∈ server.modules, module.id = id → module.sinkName = some sessionSink) :
    server.Unloads sessionSink (server.unloadModule id choice) := by
  unfold unloadModule
  split
  · exact ⟨fun _ => .inl rfl, .inl rfl, fun _ hmem _ => hmem, fun _ hmem => hmem, rfl⟩
  · next found hfnd =>
      have hs := h found (mem_of_find?_eq_some hfnd) (by simpa using find?_some hfnd)
      have hkept (module : ServerModule) (hmem : module ∈ server.modules) (hoth : module.sinkName ≠ some sessionSink) :
          module ∈ server.modules.filter fun module => module.id != id :=
        mem_filter.mpr ⟨hmem, bne_iff_ne.mpr fun hid => hoth (h module hmem hid)⟩
      refine ⟨fun name => ?_, ?_, hkept, fun _ hmem => mem_of_mem_filter hmem, PlaybackGraph.streams_unloaded⟩
      · rcases server.graph.sink_unloaded choice with hsame | ⟨hg, hnone⟩
        · exact .inl (congrArg (Option.map Sink.muted) hsame)
        · exact .inr ⟨Option.some_inj.mp (hg.symm.trans hs), congrArg (Option.map Sink.muted) hnone⟩
      · simp only [hs]
        rcases server.graph.defaultSink_unloaded choice with
          hsame | ⟨hwas, hnot, hnone⟩
        · exact .inl hsame
        · exact .inr ⟨hwas, hnot, congrArg (Option.map Sink.muted) hnone⟩

end AudioServer
end Arcen
