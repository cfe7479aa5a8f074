import Arcen.MediaLaneProgress

/-! What a media lane delivers, over every schedule of its senders, its writer and its reader, every way the stream splits
writes and reads, and every failure: a prefix of what was accepted; and everything, under every fair schedule, if its
owner finished it and nothing failed. -/

namespace Arcen

open List
namespace MediaLink

variable (lane : MediaLane) (link : MediaLink)

/-- A step either leaves the reader's exit as it was and answers with at most a frame, or answers with the exit. -/
inductive Answers (before after : Option MediaExit) (reply : Option MediaReply) : Prop where
  | goesOn (hexit : after = before) (hresult : resultOf reply = (frameOf reply).map .ok)
      (hframe : before ≠ none → frameOf reply = [])
  | ends (exit : MediaExit) (hbefore : before = none ∨ before = some exit) (hexit : after = some exit)
      (hresult : resultOf reply = [.error exit]) (hframe : frameOf reply = [])

theorem answers_settle (result : Except ReadFail (List UInt8)) (h : link.exit = none) :
    Answers link.exit (link.settle result).1.exit (link.settle result).2 := by
  unfold settle
  split
  · exact .goesOn rfl rfl fun hsome => absurd h hsome
  · exact .ends _ (.inl h) rfl rfl rfl

theorem answers_takeBytes {link : MediaLink} (bytes : List UInt8) (h : link.exit = none) :
    Answers link.exit (link.takeBytes lane bytes).1.exit (link.takeBytes lane bytes).2 := by
  unfold takeBytes
  split
  · exact .goesOn rfl rfl fun _ => rfl
  · rename_i frame result _
    exact answers_settle { link with
      stream := { link.stream with consumed := link.stream.consumed + bytes.length }, frame } result h

theorem answers_readStep {link : MediaLink} (count : Nat) (h : link.exit = none) :
    Answers link.exit (link.readStep lane count).1.exit (link.readStep lane count).2 := by
  unfold readStep
  split
  · split
    · exact .goesOn rfl rfl fun _ => rfl
    · exact answers_settle link _ h
    · exact answers_settle link _ h
  · exact answers_takeBytes lane _ h

theorem answers_readerStep (turn : ReaderTurn) :
    Answers link.exit (link.readerStep lane turn).1.exit (link.readerStep lane turn).2 := by
  unfold readerStep
  split
  · exact .goesOn rfl rfl fun _ => rfl
  · unfold pollStep
    split
    · rename_i exit hexit
      exact .ends exit (.inr hexit) hexit rfl rfl
    · rename_i hexit
      split
      · exact .ends _ (.inl hexit) rfl rfl rfl
      · split
        · exact answers_readStep lane _ hexit
        · split
          · split
            · exact .goesOn rfl rfl fun _ => rfl
            · exact answers_settle link _ hexit
          · exact .goesOn rfl rfl fun _ => rfl
        · exact answers_settle link _ hexit
        · exact .goesOn rfl rfl fun _ => rfl

theorem answers_sendTurn (record : List UInt8) :
    Answers link.exit (link.sendTurn lane record).1.exit (link.sendTurn lane record).2 := by
  unfold sendTurn
  dsimp only
  split
  · exact .goesOn rfl rfl fun _ => rfl
  · exact .goesOn rfl rfl fun _ => rfl

theorem exit_writerStep (turn : WriterTurn) : (link.writerStep lane turn).exit = link.exit := by
  unfold writerStep proceed noticeCancelled nextItem writeSlice endStream failWrite
  repeat' split
  all_goals rfl

theorem answers_step (call : MediaStep) : Answers link.exit (link.step lane call).1.exit (link.step lane call).2 := by
  cases call with
  | send record => exact answers_sendTurn lane link record
  | retry index =>
    change Answers link.exit (link.retry lane index).1.exit (link.retry lane index).2
    unfold retry
    split
    · exact .goesOn rfl rfl fun _ => rfl
    · exact answers_sendTurn lane { link with pending := link.pending.eraseIdx index } _
  | writer turn => exact .goesOn (exit_writerStep lane link turn) rfl fun _ => rfl
  | reader turn => exact answers_readerStep lane link turn
  | _ => exact .goesOn rfl rfl fun _ => rfl

/-- What the calls of `recv_frame` returned: the frames, and then one exit from every call. -/
def Results (log : List (MediaStep × Option MediaReply)) (exit : Option MediaExit) : Prop :=
  ∃ again, receivedResults log = (receivedFrames log).map .ok ++ exit.elim [] fun exit =>
    replicate (again + 1) (.error exit)

theorem results_log (lane : MediaLane) (steps : List MediaStep) :
    Results ((mediaLane lane).log steps) ((mediaLane lane).exec steps).exit := by
  refine (mediaLane lane).log_invariant (P := fun log link => Results log link.exit) ⟨0, rfl⟩ ?_ steps
  rintro log link call ⟨again, hresu⟩
  have hsplit : receivedResults (log ++ [(call, (link.step lane call).2)]) =
      receivedResults log ++ resultOf (link.step lane call).2 := by
    simp [receivedResults]
  have hfram : receivedFrames (log ++ [(call, (link.step lane call).2)]) =
      receivedFrames log ++ frameOf (link.step lane call).2 := by
    simp [receivedFrames]
  change ∃ again, receivedResults (log ++ [(call, (link.step lane call).2)]) =
    (receivedFrames (log ++ [(call, (link.step lane call).2)])).map .ok ++
      (link.step lane call).1.exit.elim [] fun exit => replicate (again + 1) (.error exit)
  rw [hsplit, hfram, hresu]
  cases answers_step lane link call with
  | goesOn hexit hres hfr =>
    refine ⟨again, ?_⟩
    rw [hexit, hres]
    cases hp : link.exit with
    | none => simp
    | some => simp [hfr (by simp [hp])]
  | ends _ hp hexit hres hfr =>
    rw [hexit, hres, hfr]
    rcases hp with hp | hp
    · exact ⟨0, by simp [hp]⟩
    · refine ⟨again + 1, ?_⟩
      simp [hp, replicate_succ' (n := again + 1)]

/-- A run on which nothing fails stays undisturbed, and once finished it stays finished. -/
theorem undisturbed_exec (hs : ∀ step ∈ steps, step.fails = false) : Undisturbed lane ((mediaLane lane).exec steps) ∧
      (.finish ∈ steps → ((mediaLane lane).exec steps).queue.finishing = true) := by
  refine (mediaLane lane).calls_invariant (P := fun calls link => (∀ call ∈ calls, call.fails = false) →
    Undisturbed lane link ∧ (.finish ∈ calls → link.queue.finishing = true))
    (fun _ => ⟨⟨steady_new, [], [], holds_new lane⟩, nofun⟩) ?_ steps hs
  intro calls link call ih hcs
  rw [forall_mem_append, forall_mem_singleton] at hcs
  obtain ⟨hu, hfin⟩ := ih hcs.1
  refine ⟨hu.step hcs.2, fun hmem => ?_⟩
  rcases mem_append.mp hmem with hearl | hlast
  · exact ((hu.moves hcs.2).finishing (hfin hearl)).1
  · rw [← mem_singleton.mp hlast]
    rfl

/-- A stream that ended is reported by whether it ended inside a frame. -/
theorem Holds.exit_of_end {lane : MediaLane} {link : MediaLink} {delivered rest : List (List UInt8)}
    (h : Holds lane delivered rest link) (hexit : link.exit = none) (hopen : link.recvOpen = true)
    (hend : link.stream.ending = some .finished ∨ link.stream.ending = some .truncated)
    (hout : link.stream.outstanding = []) (count : Nat) : (link.readerStep lane (.read count)).1.exit =
      some (.failed (if link.stream.sent = frameAll delivered then .peerFinished else .partialFrame)) := by
  have hall : link.stream.sent = frameAll delivered ++ link.frame.bytes := by
    rw [← h.read, take_of_length_le (drop_eq_nil_iff.mp hout)]
  have hmid : link.frame.midFrame = true ↔ ¬link.stream.sent = frameAll delivered := by
    rw [h.wellFormed.midFrame_iff, hall, append_right_eq_self]
  have hstep : link.readerStep lane (.read count) = link.settle (.error (.finished link.frame.midFrame)) := by
    unfold MediaLink.readerStep MediaLink.pollStep MediaLink.readStep
    rcases hend with hend | hend <;> simp [hexit, hopen, hend, hout]
  rw [hstep]
  by_cases hwh : link.stream.sent = frameAll delivered
  · rw [if_pos hwh]
    simp [MediaLink.settle, failInner, (Bool.not_eq_true _).mp fun hfr => hmid.mp hfr hwh]
  · rw [if_neg hwh]
    simp [MediaLink.settle, failInner, hmid.mpr hwh]

/-- A finished lane on which nothing failed has delivered everything after enough fair rounds. -/
theorem delivers_all {steps : List MediaStep} (hs : ∀ step ∈ steps, step.fails = false) (hfini : .finish ∈ steps)
    {rounds : List (List MediaStep)} (hroun : ∀ round ∈ rounds, FairRound round)
    (hlen : ((mediaLane lane).exec steps).work < rounds.length) :
    ∃ again, receivedResults ((mediaLane lane).log (steps ++ rounds.flatten)) =
      (acceptedRecords ((mediaLane lane).log (steps ++ rounds.flatten))).map .ok ++
        replicate (again + 1) (.error (.failed .peerFinished)) := by
  obtain ⟨hu, hfin⟩ := undisturbed_exec lane hs
  have hdone : ((mediaLane lane).exec (steps ++ rounds.flatten)).exit ≠ none := by
    rw [Machine.exec_append]
    refine (progress lane).done_of_rounds ⟨hu, hfin hfini⟩ (fun round hround => ?_) hlen
    obtain ⟨hallo, ⟨written, hwrite⟩, read, hread⟩ := hroun round hround
    exact ⟨hallo, ⟨_, hwrite, written, rfl⟩, _, hread, read, rfl⟩
  have hall : ∀ step ∈ steps ++ rounds.flatten, step.fails = false := by
    refine forall_mem_append.mpr ⟨hs, fun step hlate => ?_⟩
    obtain ⟨round, hround, hmem⟩ := mem_flatten.mp hlate
    exact (hroun round hround).1 step hmem
  have hstea := (undisturbed_exec lane hall).1.steady
  have hexit := hstea.exit.resolve_left hdone
  obtain ⟨_, hacc, hh⟩ := mediaLane_holds lane (steps ++ rounds.flatten)
  have hended := hstea.writer.resolve_left fun hlive => hh.ended hexit hlive.1
  rw [hh.clean hexit hended.1, append_nil] at hacc
  obtain ⟨again, hresu⟩ := results_log lane (steps ++ rounds.flatten)
  rw [hexit, ← hacc] at hresu
  exact ⟨again, hresu⟩

end MediaLink

/-- **A media lane delivers a prefix of what was accepted.** For any bounds, any calls and any schedule: the frames that
`recv_frame` returned are a prefix of the records that the sender accepted, and the queue keeps its bounds; a stream that
has ended and that was read to its end is reported as finished by the peer if it ended after whole frames, and as a
partial frame otherwise; and if the lane was finished and nothing failed, then from some number of fair rounds on the
calls have returned every accepted record and then that exit. -/
theorem media_lane_delivers_in_order (lane : MediaLane) (steps : List MediaStep) :
    receivedFrames ((mediaLane lane).log steps) <+: acceptedRecords ((mediaLane lane).log steps) ∧
    ((mediaLane lane).exec steps).queue.Within lane.bounds ∧
    (((mediaLane lane).exec steps).exit = none → ((mediaLane lane).exec steps).recvOpen = true →
      ((mediaLane lane).exec steps).stream.ending = some .finished ∨
        ((mediaLane lane).exec steps).stream.ending = some .truncated →
      ((mediaLane lane).exec steps).stream.outstanding = [] → ∀ count,
      ((mediaLane lane).exec (steps ++ [.reader (.read count)])).exit = some (.failed
        (if ((mediaLane lane).exec steps).stream.sent = frameAll (receivedFrames ((mediaLane lane).log steps)) then
          .peerFinished
        else .partialFrame))) ∧ ((∀ step ∈ steps, step.fails = false) → .finish ∈ steps →
      ∃ turns, ∀ rounds : List (List MediaStep), (∀ round ∈ rounds, FairRound round) → turns < rounds.length →
        ∃ again, receivedResults ((mediaLane lane).log (steps ++ rounds.flatten)) =
          (acceptedRecords ((mediaLane lane).log (steps ++ rounds.flatten))).map .ok ++
            replicate (again + 1) (.error (.failed .peerFinished))) := by
  obtain ⟨rest, hacc, hh⟩ := mediaLane_holds lane steps
  refine ⟨⟨rest, hacc.symm⟩, hh.queue, ?_, ?_⟩
  · intro hexit hopen hend hout count
    rw [Machine.exec_concat]
    exact hh.exit_of_end hexit hopen hend hout count
  · intro hs hfini
    exact ⟨_, fun rounds hroun hlen => MediaLink.delivers_all lane hs hfini hroun hlen⟩

/-- One record on a video lane, accepted and then finished. -/
theorem media_lane_delivers_video_record :
    ∃ turns, ∀ rounds : List (List MediaStep), (∀ round ∈ rounds, FairRound round) → turns < rounds.length →
      ∃ again, receivedResults ((mediaLane (.ofRole .video ⟨1, 64⟩ rfl)).log
          ([.trySend [1, 2, 3], .finish] ++ rounds.flatten)) =
        (acceptedRecords ((mediaLane (.ofRole .video ⟨1, 64⟩ rfl)).log
          ([.trySend [1, 2, 3], .finish] ++ rounds.flatten))).map .ok ++
            replicate (again + 1) (.error (.failed .peerFinished)) :=
  (media_lane_delivers_in_order (.ofRole .video ⟨1, 64⟩ rfl) [.trySend [1, 2, 3], .finish]).2.2.2 (by decide) (by simp)

end Arcen
