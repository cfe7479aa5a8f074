import Arcen.MediaLaneSteps
import Arcen.Rounds

/-! A media lane that its owner finished and that nothing disturbs. Every turn of the writer brings it closer to its end,
and once it has ended, so does every read of the reader. -/

namespace Arcen

open List

/-- A cancellation, the loss of a connection, or a failure of the stream. -/
def MediaStep.fails : MediaStep → Bool
  | .writer (.failed _) | .reader (.failed _) | .cancelSender _ | .cancelReceiver _ | .closeSender | .closeReceiver
  | .truncate _ => true
  | _ => false

/-- Part of a schedule that fails nothing and gives the writer and the reader a turn each. -/
def FairRound (round : List MediaStep) : Prop :=
  (∀ step ∈ round, step.fails = false) ∧ (∃ count, .writer (.proceed count) ∈ round) ∧
    ∃ count, .reader (.read count) ∈ round

namespace MediaLink

/-- A lane on which nothing failed. -/
structure Steady (link : MediaLink) : Prop where
  sender : link.sender.reason = none
  receiver : link.exit = none → link.receiver.reason = none ∧ link.recvOpen = true
  writer : link.stream.ending = none ∧ link.writer.Live ∨ link.stream.ending = some .finished ∧ link.writer.Finished
  exit : link.exit = none ∨ link.exit = some (.failed .peerFinished)

theorem steady_new : Steady .new := ⟨rfl, fun _ => ⟨rfl, rfl⟩, .inl ⟨rfl, trivial⟩, .inl rfl⟩

variable {lane : MediaLane} {delivered rest : List (List UInt8)} {link : MediaLink}

/-- A send changes the queue and the calls that wait, and no queue that is finishing. -/
def SendsOnly (link next : MediaLink) : Prop :=
  ∃ queue pending, next = { link with queue, pending } ∧ (link.queue.finishing = true → queue = link.queue)

theorem sendsOnly_enqueue (lane : MediaLane) (link : MediaLink) (pending : List (List UInt8)) (record : List UInt8) :
    SendsOnly link { link with
      queue := (link.queue.enqueue lane.bounds lane.maxFrame link.sender record).1, pending } := by
  refine ⟨_, pending, rfl, fun hfin => ?_⟩
  rcases link.queue.enqueue_cases lane.bounds lane.maxFrame link.sender record with ⟨error, herror⟩ | ⟨hacc, -⟩
  · rw [herror]
  · exact absurd hfin (by simp [hacc.running])

theorem sendsOnly_sendTurn (lane : MediaLane) (link : MediaLink) (record : List UInt8) :
    SendsOnly link (link.sendTurn lane record).1 := by
  unfold sendTurn
  dsimp only
  split <;> exact sendsOnly_enqueue lane link _ record

variable {call : MediaStep} {next : MediaLink}

theorem sendsOnly_retry (lane : MediaLane) (link : MediaLink) (index : Nat) :
    SendsOnly link (link.retry lane index).1 := by
  unfold retry
  split
  · exact ⟨link.queue, link.pending, rfl, fun _ => rfl⟩
  · exact sendsOnly_sendTurn lane { link with pending := link.pending.eraseIdx index } _

/-! ### What is left to do -/

def writerWork (records : List (List UInt8)) (writer : MediaWriter) : Nat :=
  match writer with
  | .waiting => (records.map fun record => record.length + 6).sum + 3
  | .writing .. => writer.remaining.length + (records.map fun record => record.length + 6).sum + 4
  | .exiting _ => 2
  | .closing _ => 1
  | .ended _ => 0

/-- What the reader has to read. -/
def unread (stream : LaneStream) (records : List (List UInt8)) (writer : MediaWriter) : Nat :=
  stream.outstanding.length + writer.remaining.length + (frameAll records).length

def work (link : MediaLink) : Nat :=
  writerWork link.queue.records link.writer + unread link.stream link.queue.records link.writer +
    if link.exit = none then 1 else 0

theorem writerWork_startSlices (records slices : List (List UInt8)) (written : Nat) :
    writerWork records (startSlices slices written) ≤
      slices.flatten.length + (records.map fun record => record.length + 6).sum + 4 := by
  have hr := remaining_startSlices slices written
  rcases startSlices_cases slices written with h | ⟨slice, later, h, -⟩
  · rw [h]
    dsimp only [writerWork]
    omega
  · rw [h] at hr ⊢
    rw [← hr]
    rfl

/-- A turn of the writer: the lane stays steady, the writer has less to do and the reader no more. -/
structure WriterMoves (link next : MediaLink) : Prop where
  steady : Steady next
  writer : writerWork next.queue.records next.writer < writerWork link.queue.records link.writer
  reader : unread next.stream next.queue.records next.writer ≤ unread link.stream link.queue.records link.writer
  exit : next.exit = link.exit
  finishing : next.queue.finishing = link.queue.finishing

theorem WriterMoves.work_lt (h : WriterMoves link next) : next.work < link.work := by
  have hwr := h.writer
  have hrd := h.reader
  unfold work
  rw [h.exit]
  omega

theorem Steady.live (h : Steady link) (hwr : ¬link.writer.Finished) :
    link.stream.ending = none ∧ link.writer.Live := h.writer.resolve_right fun hd => hwr hd.2

theorem Steady.finished (h : Steady link) (hwr : ¬link.writer.Live) :
    link.stream.ending = some .finished ∧ link.writer.Finished := h.writer.resolve_left fun hl => hwr hl.2

theorem length_frame (record : List UInt8) : (Arcen.frame record).length = record.length + 4 := by
  rw [Arcen.frame, length_append, length_u32ToBeBytes, Nat.add_comm]

section

variable (h : Steady link) (hholds : Holds lane delivered rest link)
include h hholds

theorem Steady.nextItem (hwr : link.writer = .waiting) :
    WriterMoves link (link.nextItem lane) ∨ link.nextItem lane = link ∧ link.queue.finishing = false := by
  have ho := (h.live (by rw [hwr]; exact id)).1
  unfold MediaLink.nextItem SendQueue.popFront
  cases hrecs : link.queue.records with
  | nil =>
    dsimp only
    split
    · refine .inl ⟨{ h with writer := .inl ⟨ho, trivial⟩ }, ?_, ?_, rfl, rfl⟩
      · rw [hwr, hrecs]
        exact Nat.lt_succ_self 2
      · rw [hwr]
        exact Nat.le_refl _
    · rename_i hrunn
      exact .inr ⟨rfl, Bool.not_eq_true _ ▸ hrunn⟩
  | cons record records =>
    have hsmall := hholds.queued record (by rw [hrecs]; exact mem_cons_self)
    have hfr := lengthPrefix_append lane hsmall
    have hw := writerWork_startSlices records [lengthPrefix lane.role.framing record, record] 0
    rw [hfr, length_frame] at hw
    refine .inl ⟨{ h with writer := .inl ⟨ho, live_startSlices _ _⟩ }, ?_, ?_, rfl, rfl⟩
    · refine Nat.lt_of_le_of_lt hw ?_
      rw [hwr, hrecs]
      dsimp only [writerWork]
      rw [map_cons, sum_cons]
      omega
    · unfold unread
      rw [remaining_startSlices, hfr, hrecs, frameAll_cons, length_append]
      dsimp only [MediaWriter.remaining]
      omega

theorem Steady.writeSlice {slice : List UInt8} {offset written : Nat}
    (hwr : link.writer = .writing slice offset later written) (count : Nat)
    : WriterMoves link (link.writeSlice lane slice offset later written count) := by
  have ho := (h.live (by rw [hwr]; exact id)).1
  have hoff := hholds.writing slice offset later written hwr
  obtain ⟨htaken, hleft⟩ := taken_range lane hoff count
  rw [writeSlice_eq]
  generalize taken lane slice offset count = taken at htaken hleft ⊢
  have hr := congrArg List.length (remaining_afterWrite slice offset later written taken)
  rw [length_append, length_drop] at hr
  have hpre : link.writer.remaining.length = slice.length - offset + later.flatten.length := by
    rw [hwr, MediaWriter.remaining, length_append, length_drop]
  refine ⟨{ h with writer := .inl ⟨ho, ?_⟩ }, ?_, ?_, rfl, rfl⟩
  · unfold afterWrite
    split
    · trivial
    · exact live_startSlices _ _
  · have hw : writerWork link.queue.records (afterWrite slice offset later written taken) ≤
        (slice.length - (offset + taken) + later.flatten.length) +
          (link.queue.records.map fun record => record.length + 6).sum + 4 := by
      rw [← hr]
      unfold afterWrite
      split
      · exact Nat.le_refl _
      · rw [remaining_startSlices]
        exact writerWork_startSlices _ _ _
    have hbeforeWork : writerWork link.queue.records link.writer = link.writer.remaining.length +
        (link.queue.records.map fun record => record.length + 6).sum + 4 := by
      rw [hwr]
      rfl
    dsimp only
    omega
  · unfold unread LaneStream.outstanding
    dsimp only
    rw [hpre, length_drop, length_append, length_take, length_drop, length_drop]
    omega

/-- Every turn of the writer brings it closer to its end, unless it waits for records or has ended. -/
theorem Steady.proceed (count : Nat) : WriterMoves link (link.proceed lane count) ∨ link.proceed lane count = link ∧
      (link.queue.finishing = false ∨ ∃ exit, link.writer = .ended exit) := by
  unfold MediaLink.proceed
  cases hwr : link.writer with
  | waiting => exact (h.nextItem hholds hwr).imp_right fun hidle => ⟨hidle.1, .inl hidle.2⟩
  | writing =>
    rw [(h.live (by rw [hwr]; exact id)).1]
    exact .inl (h.writeSlice hholds hwr count)
  | exiting exit =>
    obtain ⟨ho, hl⟩ := h.live (by rw [hwr]; exact id)
    rw [hwr] at hl
    cases exit with
    | finished =>
      refine .inl ⟨{ h with writer := .inr ⟨?_, trivial⟩ }, ?_, ?_, rfl, rfl⟩
      · change link.stream.ending.or (some .finished) = some .finished
        rw [ho]
        rfl
      · rw [hwr]
        exact Nat.lt_succ_self 1
      · rw [hwr]
        exact Nat.le_refl _
    | _ => exact hl.elim
  | closing exit =>
    obtain ⟨hended, hd⟩ := h.finished (by rw [hwr]; exact id)
    rw [hwr] at hd
    cases exit with
    | finished =>
      refine .inl ⟨{ h with writer := .inr ⟨?_, trivial⟩ }, ?_, ?_, rfl, rfl⟩
      · change link.stream.ending.or (some .reset) = some .finished
        rw [hended]
        rfl
      · rw [hwr]
        exact Nat.lt_succ_self 0
      · rw [hwr]
        exact Nat.add_le_add_left (Nat.zero_le _) _
    | _ => exact hd.elim
  | ended exit => exact .inr ⟨rfl, .inr ⟨exit, rfl⟩⟩
end

theorem Steady.noticeCancelled (h : Steady link) : link.noticeCancelled = link := by
  unfold MediaLink.noticeCancelled
  rw [h.sender]
  split <;> rfl

/-- A turn of the reader: the lane stays steady and there is no more to do. -/
structure ReaderMoves (link next : MediaLink) : Prop where
  steady : Steady next
  queue : next.queue = link.queue
  writer : next.writer = link.writer
  work : next.work ≤ link.work
  exit : link.exit ≠ none → next.exit ≠ none

section

variable (h : Steady link)
include h

theorem Steady.stays : ReaderMoves link link := ⟨h, rfl, rfl, Nat.le_refl _, id⟩

variable (hholds : Holds lane delivered rest link)
include hholds

theorem Steady.takeBytes (hroom : bytes.length ≤ link.frame.room)
    (hfrt : bytes <+: link.stream.outstanding) : ReaderMoves link (link.takeBytes lane bytes).1 ∧
      (link.takeBytes lane bytes).1.work + bytes.length = link.work := by
  obtain ⟨left, hleft⟩ := hfrt
  obtain ⟨tail, htail⟩ := hholds.front
  have hstr : frameAll rest = link.frame.bytes ++ (bytes ++ (left ++ tail)) := by
    rw [← htail, ← hleft]
    simp
  have hlen : (link.stream.sent.drop (link.stream.consumed + bytes.length)).length + bytes.length =
      link.stream.outstanding.length := by
    rw [← drop_drop, ← LaneStream.outstanding, ← hleft, drop_left, length_append, Nat.add_comm]
  have hn : ∃ frame draining, (link.takeBytes lane bytes).1 = { link with
      stream := { link.stream with consumed := link.stream.consumed + bytes.length }, frame, draining } := by
    unfold MediaLink.takeBytes
    rcases hholds.wellFormed.read lane.maxFrame_lt hholds.small hroom hstr with
      ⟨next, hn, -, -⟩ | ⟨record, later, hrec, -, -⟩
    · rw [hn]
      exact ⟨next, link.draining, rfl⟩
    · rw [hrec]
      exact ⟨.new, false, rfl⟩
  obtain ⟨frame, draining, hn⟩ := hn
  rw [hn]
  have hw : MediaLink.work { link with
      stream := { link.stream with consumed := link.stream.consumed + bytes.length }, frame, draining } + bytes.length =
        link.work := by
    unfold MediaLink.work unread LaneStream.outstanding
    unfold LaneStream.outstanding at hlen
    dsimp only
    omega
  exact ⟨⟨⟨h.sender, h.receiver, h.writer, h.exit⟩, rfl, rfl, Nat.le.intro hw, id⟩, hw⟩

theorem Steady.streamEnd (hexit : link.exit = none) (hended : link.stream.ending ≠ none)
    (hout : link.stream.outstanding = []) :
    ReaderMoves link (link.settle (.error (.finished link.frame.midFrame))).1 ∧
      (link.settle (.error (.finished link.frame.midFrame))).1.work + 1 = link.work := by
  have hfini := (h.writer.resolve_left fun hl => hended hl.1).1
  have hmid : link.frame.midFrame = false := by
    rw [← Bool.not_eq_true, hholds.wellFormed.midFrame_iff, not_not]
    exact (hholds.all_read hfini hout).2
  have hw : (link.settle (.error (.finished link.frame.midFrame))).1.work + 1 = link.work := by
    unfold MediaLink.work
    rw [if_pos hexit]
    rfl
  rw [hmid] at hw ⊢
  exact ⟨⟨⟨h.sender, nofun, h.writer, .inr rfl⟩, rfl, rfl, by omega, fun _ => nofun⟩, hw⟩

theorem Steady.readStep (hexit : link.exit = none) (count : Nat) : ReaderMoves link (link.readStep lane count).1 ∧
      (link.stream.ending ≠ none → (link.readStep lane count).1.work < link.work) := by
  unfold MediaLink.readStep
  split
  · rename_i hout
    split
    · rename_i ho
      exact ⟨h.stays, fun hended => absurd ho hended⟩
    · rename_i hreset
      rcases h.writer with ⟨ho, -⟩ | ⟨hfini, -⟩
      · exact nomatch ho.symm.trans hreset
      · exact nomatch hfini.symm.trans hreset
    · rename_i hended
      have hend := h.streamEnd hholds hexit (by rw [hended]; exact nofun) hout
      exact ⟨hend.1, fun _ => Nat.lt_of_succ_le (Nat.le_of_eq hend.2)⟩
  · rename_i hout
    have hpos := hholds.wellFormed.room_pos
    have hnone : 0 < link.stream.outstanding.length := length_pos_iff.mpr hout
    have hroom : (link.stream.outstanding.take (max 1 (min count link.frame.room))).length ≤ link.frame.room := by
      rw [length_take]
      omega
    have htaken : 0 < (link.stream.outstanding.take (max 1 (min count link.frame.room))).length := by
      rw [length_take]
      omega
    have hread := h.takeBytes hholds hroom (List.take_prefix _ _)
    exact ⟨hread.1, fun _ => by omega⟩

theorem Steady.readerStep (hturn : (MediaStep.reader turn).fails = false) : ReaderMoves link (link.readerStep lane turn).1 := by
  unfold MediaLink.readerStep
  split
  · exact ⟨⟨h.sender, h.receiver, h.writer, h.exit⟩, rfl, rfl, Nat.le_refl _, id⟩
  · unfold MediaLink.pollStep
    split
    · exact h.stays
    · rename_i hexit
      obtain ⟨hreas, ho⟩ := h.receiver hexit
      rw [ho, hreas]
      cases turn with
      | read count => exact (h.readStep hholds hexit count).1
      | cancelled | drop => exact h.stays
      | failed => exact nomatch hturn

end

/-! ### Steps that fail nothing -/

/-- What a step that fails nothing does to a steady lane. -/
structure Moves (link next : MediaLink) (call : MediaStep) : Prop where
  steady : Steady next
  finishing : link.queue.finishing = true → next.queue.finishing = true ∧ next.work ≤ link.work
  writer : (∀ count, call ≠ .writer (.proceed count)) → next.writer = link.writer
  ended : (∃ exit, link.writer = .ended exit) → next.writer = link.writer
  exit : link.exit ≠ none → next.exit ≠ none

theorem Steady.sends (h : Steady link) (hsends : SendsOnly link next) (call : MediaStep) : Moves link next call := by
  obtain ⟨_, _, rfl, hq⟩ := hsends
  refine ⟨⟨h.sender, h.receiver, h.writer, h.exit⟩, fun hfin => ?_, fun _ => rfl, fun _ => rfl, id⟩
  rw [hq hfin]
  exact ⟨hfin, Nat.le_refl _⟩

theorem Steady.step (h : Steady link) (hholds : Holds lane delivered rest link) (hc : call.fails = false)
    : Moves link (link.step lane call).1 call := by
  cases call with
  | trySend record => exact h.sends (sendsOnly_enqueue lane link _ record) _
  | send record => exact h.sends (sendsOnly_sendTurn lane link record) _
  | retry index => exact h.sends (sendsOnly_retry lane link index) _
  | abandon => exact h.sends ⟨link.queue, _, rfl, fun _ => rfl⟩ _
  | finish =>
    exact ⟨⟨h.sender, h.receiver, h.writer, h.exit⟩, fun _ => ⟨rfl, Nat.le_refl _⟩, fun _ => rfl, fun _ => rfl, id⟩
  | writer turn =>
    cases turn with
    | proceed count =>
      change Moves link (link.proceed lane count) _
      rcases h.proceed hholds count with hmv | ⟨hidle, -⟩
      · refine ⟨hmv.steady, fun hf => ⟨hmv.finishing.trans hf, hmv.work_lt.le⟩,
          fun hnot => absurd rfl (hnot count), ?_, fun hexit => by rwa [hmv.exit]⟩
        rintro ⟨exit, hended⟩
        unfold MediaLink.proceed
        rw [hended]
        exact hended
      · rw [hidle]
        exact ⟨h, fun hf => ⟨hf, Nat.le_refl _⟩, fun _ => rfl, fun _ => rfl, id⟩
    | cancelled =>
      change Moves link link.noticeCancelled _
      rw [h.noticeCancelled]
      exact ⟨h, fun hf => ⟨hf, Nat.le_refl _⟩, fun _ => rfl, fun _ => rfl, id⟩
    | failed => exact nomatch hc
  | reader =>
    have hmv := h.readerStep hholds hc
    exact ⟨hmv.steady, fun hf => ⟨hmv.queue ▸ hf, hmv.work⟩, fun _ => hmv.writer, fun _ => hmv.writer, hmv.exit⟩
  | _ => exact nomatch hc

structure Undisturbed (lane : MediaLane) (link : MediaLink) : Prop where
  steady : Steady link
  holds : ∃ delivered rest, Holds lane delivered rest link

theorem Undisturbed.moves (h : Undisturbed lane link) (hc : call.fails = false) :
    Moves link (link.step lane call).1 call := by
  obtain ⟨_, _, hholds⟩ := h.holds
  exact h.steady.step hholds hc

theorem Undisturbed.step (h : Undisturbed lane link) (hc : call.fails = false) :
    Undisturbed lane (link.step lane call).1 := by
  obtain ⟨_, _, hholds⟩ := h.holds
  obtain ⟨later, -, hn⟩ := hholds.step call
  exact ⟨(h.moves hc).steady, _, later, hn⟩

/-- **Progress.** The writer works off the queue and finishes the stream, and the reader reads it to its end. -/
def progress (lane : MediaLane) : Progress (mediaLane lane) where
  valid link := Undisturbed lane link ∧ link.queue.finishing = true
  allowed call := call.fails = false
  first call := ∃ count, call = .writer (.proceed count)
  second call := ∃ count, call = .reader (.read count)
  firstDone link := ∃ exit, link.writer = .ended exit
  done link := link.exit ≠ none
  measure := work
  keeps := by
    rintro link call ⟨h, hfinishing⟩ hcall
    exact ⟨h.step hcall, ((h.moves hcall).finishing hfinishing).1⟩
  keepsFirst := by
    rintro link call ⟨h, -⟩ hcall ⟨exit, hended⟩
    exact ⟨exit, ((h.moves hcall).ended ⟨exit, hended⟩).trans hended⟩
  only_first := by
    rintro link call ⟨h, -⟩ hcall hnot hrunning ⟨exit, hended⟩
    have hwriter := (h.moves hcall).writer fun count heq => hnot ⟨count, heq⟩
    exact hrunning ⟨exit, hwriter.symm.trans hended⟩
  keepsDone := by
    rintro link call ⟨h, -⟩ hcall hdone
    exact (h.moves hcall).exit hdone
  never_raises := by
    rintro link call ⟨h, hfinishing⟩ hcall
    exact ((h.moves hcall).finishing hfinishing).2
  first_lowers := by
    rintro link _ ⟨h, hfinishing⟩ - ⟨count, rfl⟩ hrunning
    obtain ⟨delivered, rest, hholds⟩ := h.holds
    rcases h.steady.proceed hholds count with hmoves | ⟨-, hidle⟩
    · exact hmoves.work_lt
    · rcases hidle with hopen | hended
      · exact nomatch hopen.symm.trans hfinishing
      · exact absurd hended hrunning
  second_lowers := by
    rintro link _ ⟨h, -⟩ - ⟨count, rfl⟩ ⟨exit, hended⟩ hnot
    obtain ⟨delivered, rest, hholds⟩ := h.holds
    have hexit : link.exit = none := not_not.mp hnot
    obtain ⟨hreason, hopen⟩ := h.steady.receiver hexit
    obtain ⟨hfinished, -⟩ := h.steady.finished (by rw [hended]; exact id)
    have hread := (h.steady.readStep hholds hexit count).2 (by rw [hfinished]; exact nofun)
    change (link.pollStep lane (.read count)).1.work < link.work
    unfold MediaLink.pollStep
    rw [hexit, hopen]
    exact hread

end MediaLink
end Arcen
