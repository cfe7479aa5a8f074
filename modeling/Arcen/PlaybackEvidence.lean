import Arcen.LocalPlayback

/-! What counts as evidence that a host is silent, and that enforcing silence reaches it: at every point of a pass the
changes still to be made are those that are lacking. -/

namespace Arcen

open AudioServer List

structure MuteEvidence where
  requested : Bool
  /-- What the audio system reports, if it could be read. -/
  observedMuted : Option Bool
  honoured : Bool

def MuteEvidence.observed (requested : Bool) (observedMuted : Option Bool) : MuteEvidence where
  requested := requested
  observedMuted := observedMuted
  honoured := match observedMuted with
    | some muted => muted == requested
    | none => false

def Stream.silent (graph : PlaybackGraph) (sessionSink : String) (stream : Stream) : Bool :=
  stream.muted || match stream.target with
    | .unconnected => true
    | .sink name => name == sessionSink || (graph.sink name).any (·.muted)
    | .unknown => false

/-- Whether the graph is silent everywhere except on the session sink. -/
def PlaybackGraph.evidence (graph : PlaybackGraph) (sessionSink : String) (requested : Bool) : MuteEvidence :=
  match graph.sink sessionSink with
  | none => .observed requested none
  | some _ =>
    .observed requested (some (graph.defaultSink == some sessionSink &&
      graph.sinks.all (fun sink => sink.name == sessionSink || sink.muted) &&
      graph.streams.all (·.silent graph sessionSink)))

theorem honoured_iff {graph : PlaybackGraph} : (graph.evidence sessionSink true).honoured = true ↔
    (graph.sink sessionSink).isSome ∧ graph.defaultSink = some sessionSink ∧
      (∀ sink ∈ graph.sinks, sink.name = sessionSink ∨ sink.muted = true) ∧
      ∀ stream ∈ graph.streams, stream.silent graph sessionSink := by
  unfold PlaybackGraph.evidence
  cases graph.sink sessionSink with
  | none => simp [MuteEvidence.observed]
  | some => simp [MuteEvidence.observed, and_assoc]

/-- Every change that is lacking is still to be made. -/
structure Pending (sessionSink : String) (server : AudioServer) (rest : List RoutingAction) : Prop where
  session : (server.muteFlag sessionSink).isSome
  sinks : ∀ name, server.muteFlag name = some false → name = sessionSink ∨ .muteSink name ∈ rest
  default : server.graph.defaultSink = some sessionSink ∨ .setDefault sessionSink ∈ rest
  streams : ∀ stream ∈ server.graph.streams, stream.target = .unconnected ∨ stream.target = .sink sessionSink ∨
    .moveStream stream.id sessionSink ∈ rest ∨
    stream.moveRefused = true ∧ ∃ name, stream.target = .sink name ∧ (server.muteFlag name).isSome
  own : ∀ action ∈ rest, match action with
    | .muteSink _ => True
    | .setDefault name | .moveStream _ name => name = sessionSink

variable {server : AudioServer} {sessionSink : String} {action : RoutingAction} {rest : List RoutingAction}

theorem pending_enforce (hs : (server.graph.sink sessionSink).isSome)
    (hrefused : ∀ stream ∈ server.graph.streams, stream.moveRefused = true →
      stream.target = .unconnected ∨ ∃ sink ∈ server.graph.sinks, stream.target = .sink sink.name) :
    Pending sessionSink server (enforce server.graph sessionSink) := by
  refine ⟨isSome_muteFlag.trans hs, fun name hn => ?_, ?_, fun stream hmem => ?_, fun action ha => ?_⟩
  · exact or_iff_not_imp_left.mpr fun hne => mem_enforce.mpr ⟨hs, .inl ⟨_, muteFlag_eq_some_iff.mp hn, ⟨hne, rfl⟩, rfl⟩⟩
  · exact or_iff_not_imp_left.mpr fun hne => mem_enforce.mpr ⟨hs, .inr (.inl ⟨hne, rfl⟩)⟩
  · cases hr : stream.moveRefused with
    | true =>
      refine (hrefused stream hmem hr).imp_right fun ⟨sink, hsink, ht⟩ => .inr (.inr ⟨rfl, _, ht, ?_⟩)
      rw [muteFlag_eq_some_iff.mpr hsink]
      rfl
    | false =>
      have hmove (he : stream.elsewhere sessionSink = true) :
          .moveStream stream.id sessionSink ∈ enforce server.graph sessionSink :=
        mem_enforce.mpr ⟨hs, .inr (.inr ⟨stream, hmem, ⟨he, hr⟩, rfl⟩)⟩
      unfold Stream.elsewhere at hmove
      cases ht : stream.target with
      | unconnected => exact .inl rfl
      | unknown => exact .inr (.inr (.inl (hmove (by rw [ht]))))
      | sink name =>
        by_cases hn : name = sessionSink
        · exact .inr (.inl (by rw [hn]))
        · exact .inr (.inr (.inl (hmove (by rw [ht]; exact bne_iff_ne.mpr hn))))
  · obtain ⟨-, ⟨_, -, -, rfl⟩ | ⟨-, rfl⟩ | ⟨_, -, -, rfl⟩⟩ := mem_enforce.mp ha
    · trivial
    · rfl
    · rfl

/-- **Step rule.** -/
theorem Pending.apply (h : Pending sessionSink server (action :: rest)) :
    Pending sessionSink (server.apply action) rest := by
  have hsome (name : String) : ((server.apply action).muteFlag name).isSome = (server.muteFlag name).isSome := by
    rw [muteFlag_apply]
    split_ifs <;> simp
  have hown := h.own action mem_cons_self
  refine ⟨(hsome _).trans h.session, fun name hn => ?_, ?_, ?_, fun other ho => h.own other (mem_cons_of_mem _ ho)⟩
  · rw [muteFlag_apply] at hn
    split_ifs at hn with ha
    · cases hf : server.muteFlag name <;> simp [hf] at hn
    · exact (h.sinks name hn).imp_right fun hmem => (mem_cons.mp hmem).resolve_left (Ne.symm ha)
  · have hdef := h.default
    cases action with
    | setDefault name =>
      cases hown
      exact .inl (defaultSink_setDefault.trans (if_pos h.session))
    | muteSink | moveStream => simpa [AudioServer.apply, setMuted, moveStream] using hdef
  · simp only [hsome]
    have hstr := h.streams
    cases action with
    | moveStream id name =>
      cases hown
      intro stream hmem
      obtain ⟨stream, hold, rfl⟩ := mem_map.mp hmem
      split_ifs with hid
      · exact .inr (.inl rfl)
      · simpa [hid] using hstr stream hold
    | muteSink => simpa [AudioServer.apply, setMuted] using hstr
    | setDefault =>
      rw [AudioServer.apply, setDefault]
      split_ifs <;> simpa using hstr

theorem Pending.applied (hplan : plan = done ++ rest) (h : Pending sessionSink server plan) :
    Pending sessionSink (done.foldl AudioServer.apply server) rest := by
  subst hplan
  induction done generalizing server with
  | nil => exact h
  | cons action done ih => exact ih h.apply

theorem Pending.sink_muted (h : Pending sessionSink server rest) (hrest : ∀ name, .muteSink name ∉ rest)
    (hsink : sink ∈ server.graph.sinks) : sink.name = sessionSink ∨ sink.muted = true := by
  cases hm : sink.muted with
  | true => exact .inr rfl
  | false => exact .inl ((h.sinks sink.name (muteFlag_eq_some_iff.mpr (hm ▸ hsink))).resolve_right (hrest _))

theorem Pending.complies (h : Pending sessionSink server []) :
    (server.graph.evidence sessionSink true).honoured = true ∧ enforce server.graph sessionSink = [] := by
  have hs := isSome_muteFlag.symm.trans h.session
  have hdef := h.default.resolve_right not_mem_nil
  have hmuted (sink : Sink) (hmem : sink ∈ server.graph.sinks) := h.sink_muted (fun _ => not_mem_nil) hmem
  refine ⟨honoured_iff.mpr ⟨hs, hdef, hmuted, fun stream hmem => ?_⟩, eq_nil_iff_forall_not_mem.mpr fun action ha => ?_⟩
  · unfold Stream.silent
    rcases h.streams stream hmem with ht | ht | hmove | ⟨-, name, ht, hlisted⟩
    · simp [ht]
    · simp [ht]
    · cases hmove
    · obtain ⟨sink, hsink⟩ := Option.isSome_iff_exists.mp (isSome_muteFlag.symm.trans hlisted)
      have hn : sink.name = name := by simpa using find?_some hsink
      have hor := hmuted sink (mem_of_find?_eq_some hsink)
      rw [hn] at hor
      simp [ht, hsink, hor]
  · obtain ⟨-, ⟨sink, hmem, ⟨hn, hm⟩, -⟩ | ⟨hn, -⟩ | ⟨stream, hmem, ⟨he, hr⟩, -⟩⟩ := mem_enforce.mp ha
    · simpa [hn, hm] using hmuted sink hmem
    · exact hn hdef
    · unfold Stream.elsewhere at he
      rcases h.streams stream hmem with ht | ht | hmove | ⟨hr', -⟩
      · simp [ht] at he
      · simp [ht] at he
      · cases hmove
      · exact Bool.false_ne_true (hr.symm.trans hr')

/-- **Enforced silence.** A pass reaches a graph that the evidence honours and that needs no change; once its last mute
is applied, nothing plays on an unmuted sink but the session's; and honoured evidence means just that. -/
theorem enforced_silence_converges :
    (∀ (server : AudioServer) (sessionSink : String), (server.graph.sink sessionSink).isSome →
      (∀ stream ∈ server.graph.streams, stream.moveRefused = true →
        stream.target = .unconnected ∨ ∃ sink ∈ server.graph.sinks, stream.target = .sink sink.name) →
      (let final := (enforce server.graph sessionSink).foldl AudioServer.apply server
       (final.graph.evidence sessionSink true).honoured = true ∧ enforce final.graph sessionSink = []) ∧
      ∀ done later, enforce server.graph sessionSink = done ++ later → (∀ name, .muteSink name ∉ later) →
        ∀ stream ∈ (done.foldl AudioServer.apply server).graph.streams,
        ∀ sink ∈ (done.foldl AudioServer.apply server).graph.sinks,
          stream.target = .sink sink.name → sink.name = sessionSink ∨ sink.muted = true) ∧
    ∀ (graph : PlaybackGraph) (sessionSink : String), (graph.evidence sessionSink true).honoured = true →
      ∀ stream ∈ graph.streams, stream.muted = false → stream.target = .unconnected ∨
        stream.target = .sink sessionSink ∨ ∃ sink ∈ graph.sinks, sink.muted = true ∧ stream.target = .sink sink.name := by
  refine ⟨fun server sessionSink hs hrefused => ?_, fun graph sessionSink h stream hmem hm => ?_⟩
  · have hplan := pending_enforce hs hrefused
    exact ⟨(hplan.applied (append_nil _).symm).complies, fun done later hsplit hlater _ _ sink hsink _ =>
      (hplan.applied hsplit).sink_muted hlater hsink⟩
  · have hsilent := (honoured_iff.mp h).2.2.2 stream hmem
    rw [Stream.silent, hm, Bool.false_or] at hsilent
    cases ht : stream.target with
    | unconnected => exact .inl rfl
    | unknown => simp [ht] at hsilent
    | sink name =>
      simp only [ht, Bool.or_eq_true, beq_iff_eq, Option.any_eq_true] at hsilent
      rcases hsilent with rfl | ⟨sink, hsink, hmuted⟩
      · exact .inr (.inl rfl)
      · have hn : sink.name = name := by simpa using find?_some hsink
        exact .inr (.inr ⟨sink, mem_of_find?_eq_some hsink, hmuted, by rw [hn]⟩)

/-- A host with speakers, and a player that uses them. -/
def audibleHost : AudioServer :=
  ⟨⟨none, [⟨"speakers", false⟩, ⟨"session", false⟩], [⟨1, .sink "speakers", false, false⟩]⟩, [], by decide, List.nodup_nil⟩

theorem enforced_silence_audibleHost : (((enforce audibleHost.graph "session").foldl AudioServer.apply
    audibleHost).graph.evidence "session" true).honoured = true :=
  (enforced_silence_converges.1 audibleHost "session" (by decide) (by decide)).1.1

end Arcen
