import Arcen.MediaLaneInvariant

/-! Every step of a media lane keeps what the lane holds: a record that is accepted comes behind the others, and a frame
that is handed out is the first of them. -/

namespace Arcen

open LaneStream List

namespace MediaLink

/-- What a step leads to, with its reply. -/
def Reaches (lane : MediaLane) (delivered rest : List (List UInt8)) (outcome : MediaLink × Option MediaReply) : Prop :=
  ∃ later, rest ++ acceptedOf outcome.2 = frameOf outcome.2 ++ later ∧
    Holds lane (delivered ++ frameOf outcome.2) later outcome.1

variable {lane : MediaLane} {delivered rest : List (List UInt8)} {link next : MediaLink}

/-- A step that neither accepts a record nor hands out a frame. -/
theorem Holds.reaches (h : Holds lane delivered rest next) (hacce : acceptedOf reply = []) (hfr : frameOf reply = [])
    : Reaches lane delivered rest (next, reply) := by
  refine ⟨rest, ?_, ?_⟩
  · rw [hacce, hfr, append_nil, nil_append]
  · rw [hfr, append_nil]
    exact h

variable {record : List UInt8} {offset : Nat} {slice : List UInt8} {ending : Option StreamEnd}

theorem Holds.reaches_accepted (h : Holds lane delivered (rest ++ [record]) next) :
    Reaches lane delivered rest (next, some (.sent record (.ok ()))) := by
  refine ⟨rest ++ [record], rfl, ?_⟩
  change Holds lane (delivered ++ []) (rest ++ [record]) next
  rw [append_nil]
  exact h

/-! ### The senders -/

section

variable (h : Holds lane delivered rest link)
include h

/-- The writer of a queue that still accepts records has not finished. -/
theorem Holds.not_finished (hrunn : link.queue.finishing = false) :
    link.stream.ending ≠ some .finished ∧ link.writer ≠ .exiting .finished := by
  refine ⟨fun hf => ?_, fun hexiti => ?_⟩
  · exact absurd (h.drained (.inl (h.finished hf))).1 (by simp [hrunn])
  · exact absurd (h.drained (.inr hexiti)).1 (by simp [hrunn])

theorem Holds.accept (ha : link.queue.Accepts lane.bounds lane.maxFrame link.sender record) :
    Holds lane delivered (rest ++ [record]) { link with queue := { link.queue with
      records := link.queue.records ++ [record], bytes := link.queue.bytes + record.length } } := by
  obtain ⟨hendi, _⟩ := h.not_finished ha.running
  have hsmall : ∀ other ∈ [record], other.length ≤ lane.maxFrame := forall_mem_singleton.mpr ha.small
  refine ⟨h.queue.enqueue ha, forall_mem_append.mpr ⟨h.small, hsmall⟩, forall_mem_append.mpr ⟨h.queued, hsmall⟩,
    h.wellFormed, h.writing, h.consumed, h.read, ?_, ?_, h.finished, ?_, h.ended, ?_⟩
  · rw [frameAll_append]
    exact h.front.trans (prefix_append _ _)
  · intro hint
    rw [frameAll_append, h.whole hint]
    simp
  · intro hd
    exact absurd (h.drained hd).1 (by simp [ha.running])
  · exact fun _ hf => absurd hf hendi

/-- One attempt to enqueue a record, whatever becomes of a refusal. -/
theorem Holds.enqueue (record : List UInt8) :
    (∃ error, link.queue.enqueue lane.bounds lane.maxFrame link.sender record = (link.queue, .error error)) ∨
      ∃ queue, link.queue.enqueue lane.bounds lane.maxFrame link.sender record = (queue, .ok ()) ∧
        Holds lane delivered (rest ++ [record]) { link with queue } := by
  rcases link.queue.enqueue_cases lane.bounds lane.maxFrame link.sender record with herror | ⟨ha, hok⟩
  · exact .inl herror
  · exact .inr ⟨_, hok, h.accept ha⟩

theorem Holds.trySend (record : List UInt8) : Reaches lane delivered rest (link.trySend lane record) := by
  unfold MediaLink.trySend
  rcases h.enqueue record with ⟨error, herror⟩ | ⟨queue, hok, hh⟩
  · rw [herror]
    exact h.reaches rfl rfl
  · rw [hok]
    exact hh.reaches_accepted

theorem Holds.sendTurn (record : List UInt8) : Reaches lane delivered rest (link.sendTurn lane record) := by
  unfold MediaLink.sendTurn
  rcases h.enqueue record with ⟨error, herror⟩ | ⟨queue, hok, hh⟩
  · rw [herror]
    cases error with
    | full => exact Holds.reaches { h with } rfl rfl
    | closed | oversize => exact h.reaches rfl rfl
  · rw [hok]
    exact hh.reaches_accepted

theorem Holds.retry (index : Nat) : Reaches lane delivered rest (link.retry lane index) := by
  unfold MediaLink.retry
  split
  · exact h.reaches rfl rfl
  · have hpend : Holds lane delivered rest { link with pending := link.pending.eraseIdx index } := { h with }
    exact hpend.sendTurn _

end

/-! ### The writer -/

variable (slices : List (List UInt8))

variable (written : Nat)

theorem remaining_startSlices : (startSlices slices written).remaining = slices.flatten := by
  induction slices with
  | nil => rfl
  | cons slice later ih =>
    unfold startSlices
    split
    · rename_i hemp
      rw [ih, hemp, flatten_cons, nil_append]
    · rw [flatten_cons]
      rfl

/-- A write is over or stands at the start of a slice that is not empty. -/
theorem startSlices_cases : startSlices slices written = .waiting ∨
    ∃ slice later, startSlices slices written = .writing slice 0 later written ∧ slice ≠ [] := by
  induction slices with
  | nil => exact .inl rfl
  | cons slice later ih =>
    unfold startSlices
    split
    · exact ih
    · rename_i hne
      exact .inr ⟨slice, later, rfl, hne⟩

theorem not_finished_startSlices :
    ¬((startSlices slices written).Finished ∨ startSlices slices written = .exiting .finished) := by
  rcases startSlices_cases slices written with h | ⟨slice, later, h, -⟩ <;> rw [h] <;> rintro (h | h) <;> exact nomatch h

theorem writing_startSlices {slices later : List (List UInt8)} {written written' : Nat}
    (h : startSlices slices written = .writing slice offset later written') : offset < slice.length := by
  rcases startSlices_cases slices written with hwait | ⟨first, others, hw, hne⟩
  · exact nomatch hwait.symm.trans h
  · cases hw.symm.trans h
    exact length_pos_iff.mpr hne

theorem live_startSlices : (startSlices slices written).Live := by
  rcases startSlices_cases slices written with h | ⟨slice, later, h, -⟩ <;> rw [h] <;> trivial

theorem lengthPrefix_append (lane : MediaLane) (h : record.length ≤ lane.maxFrame) :
    [lengthPrefix lane.role.framing record, record].flatten = Arcen.frame record := by
  have hlt : record.length < 2 ^ 32 := h.trans_lt lane.maxFrame_lt
  rw [lane.framing]
  simp [lengthPrefix, u32TryFrom_of_lt hlt, Arcen.frame]

theorem Holds.ending_ne (h : Holds lane delivered rest link) (hwr : ¬link.writer.Finished) :
    link.stream.ending ≠ some .finished := fun hf => hwr (h.finished hf)

theorem Holds.nextItem (h : Holds lane delivered rest link) (hwr : link.writer = .waiting) :
    Holds lane delivered rest (link.nextItem lane) := by
  have hendi : link.stream.ending ≠ some .finished := h.ending_ne (by rw [hwr]; exact id)
  have hwh : Intact link.stream.ending link.writer ↔ link.stream.ending = none := by
    rw [Intact, or_iff_right hendi, hwr]
    exact and_iff_left trivial
  unfold MediaLink.nextItem SendQueue.popFront
  cases hr : link.queue.records with
  | nil =>
    dsimp only
    split
    · rename_i hfini
      refine { h with
        writing := nofun
        whole := fun hint => ?_
        finished := fun hf => absurd hf hendi
        drained := fun _ => ⟨hfini, hr⟩ }
      rw [h.whole (hwh.mpr ((hint.resolve_left hendi).1)), hwr]
      rfl
    · exact h
  | cons record =>
    have hsmall := h.queued record (by rw [hr]; exact mem_cons_self)
    refine { h with
      queue := h.queue.popFront hr
      queued := fun other hmem => h.queued other (by rw [hr]; exact mem_cons_of_mem _ hmem)
      writing := fun slice offset later written hw => writing_startSlices hw
      whole := fun hint => ?_
      finished := fun hf => absurd hf hendi
      drained := fun hd => absurd hd (not_finished_startSlices _ _) }
    rw [h.whole (hwh.mpr ((hint.resolve_left hendi).1)), hwr, hr]
    rw [remaining_startSlices, lengthPrefix_append lane hsmall]
    rfl

/-- The stream takes at least a byte of a write, and no more than is left of the slice. -/
def taken (lane : MediaLane) (slice : List UInt8) (offset count : Nat) : Nat :=
  max 1 (min count (min slice.length (offset + lane.chunk) - offset))

theorem taken_range (lane : MediaLane) (h : offset < slice.length) (count : Nat) :
    1 ≤ taken lane slice offset count ∧ taken lane slice offset count ≤ slice.length - offset := by
  unfold taken
  omega

def afterWrite (slice : List UInt8) (offset : Nat) (later : List (List UInt8)) (written count : Nat) : MediaWriter :=
  if offset + count < slice.length then .writing slice (offset + count) later (written + count)
  else startSlices later (written + count)

theorem remaining_afterWrite (slice : List UInt8) (offset : Nat) (later : List (List UInt8)) (written count : Nat) :
    (afterWrite slice offset later written count).remaining = slice.drop (offset + count) ++ later.flatten := by
  unfold afterWrite
  split
  · rfl
  · rw [remaining_startSlices, drop_eq_nil_of_le (by omega), nil_append]

theorem writeSlice_eq (lane : MediaLane) (link : MediaLink) (slice : List UInt8) (offset : Nat)
    (later : List (List UInt8)) (written count : Nat) :
    link.writeSlice lane slice offset later written count = { link with
      stream := { link.stream with
        sent := link.stream.sent ++ (slice.drop offset).take (taken lane slice offset count) }
      writer := afterWrite slice offset later written (taken lane slice offset count) } := rfl

theorem Holds.writeSlice (h : Holds lane delivered rest link) {written : Nat}
    (hwr : link.writer = .writing slice offset later written) (hopen : link.stream.ending = none) (count : Nat) :
    Holds lane delivered rest (link.writeSlice lane slice offset later written count) := by
  have hoff := h.writing slice offset later written hwr
  rw [writeSlice_eq]
  obtain ⟨htaken, hleft⟩ := taken_range lane hoff count
  generalize taken lane slice offset count = taken at htaken hleft ⊢
  -- what is written moves from the writer to the stream
  have hsplit : slice.drop offset = (slice.drop offset).take taken ++ slice.drop (offset + taken) := by
    rw [← drop_drop, take_append_drop]
  have ho : (link.stream.sent ++ (slice.drop offset).take taken).drop link.stream.consumed =
      link.stream.outstanding ++ (slice.drop offset).take taken := drop_append_of_le_length h.consumed
  have hwh : frameAll rest = link.frame.bytes ++ ((link.stream.outstanding ++ (slice.drop offset).take taken) ++
      (slice.drop (offset + taken) ++ later.flatten ++ frameAll link.queue.records)) := by
    have hpre := h.whole (.inr ⟨hopen, by rw [hwr]; trivial⟩)
    rw [hwr] at hpre
    calc frameAll rest = link.frame.bytes ++ (link.stream.outstanding ++
          (((slice.drop offset).take taken ++ slice.drop (offset + taken)) ++ later.flatten ++
            frameAll link.queue.records)) := by rw [← hsplit]; exact hpre
      _ = _ := by simp only [append_assoc]
  refine { h with
    writing := ?_
    consumed := ?_
    read := ?_
    front := ?_
    whole := fun _ => ?_
    finished := fun hf => nomatch hopen.symm.trans hf
    drained := ?_ }
  · intro slice' offset' later' written' hw
    dsimp only [afterWrite] at hw
    split at hw
    · cases hw
      assumption
    · exact writing_startSlices hw
  · rw [length_append]
    exact h.consumed.trans (Nat.le_add_right _ _)
  · rw [take_append_of_le_length h.consumed]
    exact h.read
  · unfold outstanding
    rw [ho, hwh]
    exact ⟨_, append_assoc _ _ _⟩
  · unfold outstanding
    rw [ho, remaining_afterWrite]
    exact hwh
  · intro hd
    dsimp only [afterWrite] at hd
    split at hd
    · rcases hd with hd | hd <;> exact nomatch hd
    · exact absurd hd (not_finished_startSlices _ _)

theorem Holds.giveUp (h : Holds lane delivered rest link) (writer : MediaWriter) (sender : LaneControl)
    (ending : Option StreamEnd) (hl : ¬writer.Live) (hwr : ¬writer.Finished) (hendi : ending ≠ some .finished)
    (hended : link.stream.ending ≠ none → ending ≠ none) :
    Holds lane delivered rest { link with writer, sender, stream := { link.stream with ending } } := by
  refine { h with
    writing := ?_
    whole := ?_
    finished := fun hf => absurd hf hendi
    drained := ?_
    ended := fun hexit => hended (h.ended hexit)
    clean := fun _ hf => absurd hf hendi }
  · rintro slice offset later written rfl
    exact absurd trivial hl
  · rintro (hf | ⟨-, hstill⟩)
    · exact absurd hf hendi
    · exact absurd hstill hl
  · rintro (hf | rfl)
    · exact absurd hf hwr
    · exact absurd trivial hl

theorem or_ne_none : ending.or (some last) ≠ none := by
  cases ending <;> exact nofun

theorem or_ne_finished (h : ending ≠ some .finished) (hlast : last ≠ .finished)
    : ending.or (some last) ≠ some .finished := by
  cases ending with
  | none => exact fun heq => hlast (Option.some.inj heq)
  | some => exact h

theorem eq_none_of_or_finished (h : ending ≠ some .finished) (hor : ending.or (some .finished) = some .finished)
    : ending = none := by
  cases ending with
  | none => rfl
  | some => exact absurd hor h

section

variable (h : Holds lane delivered rest link)
include h

theorem Holds.failWrite (hwr : ¬link.writer.Finished) (written : Nat) (error : WriteError)
    : Holds lane delivered rest (link.failWrite written error) := by
  have hendi := h.ending_ne hwr
  unfold MediaLink.failWrite
  split
  · exact h.giveUp (.exiting .connectionLost) link.sender link.stream.ending id id hendi id
  · rename_i failure _
    split
    · exact h.giveUp (.exiting (.failed failure)) _ _ id id (or_ne_finished hendi nofun) fun _ => or_ne_none
    · exact h.giveUp (.exiting (.failed failure)) _ link.stream.ending id id hendi id

theorem Holds.endStream {exit : MediaExit} (hwr : link.writer = .exiting exit) :
    Holds lane delivered rest (link.endStream exit) := by
  have hendi : link.stream.ending ≠ some .finished := h.ending_ne (by rw [hwr]; exact id)
  unfold MediaLink.endStream
  cases exit with
  | finished =>
    have hdrai := h.drained (.inr hwr)
    refine { h with
      writing := nofun
      whole := ?_
      finished := fun _ => trivial
      drained := fun _ => hdrai
      ended := fun _ => or_ne_none
      clean := ?_ }
    · rintro (hf | ⟨-, hl⟩)
      · have hwh := h.whole (.inr ⟨eq_none_of_or_finished hendi hf, by rw [hwr]; trivial⟩)
        rw [hwr] at hwh
        exact hwh
      · exact hl.elim
    · exact fun hexit hf => absurd (eq_none_of_or_finished hendi hf) (h.ended hexit)
  | failed failure => exact h.giveUp (.closing (.failed failure)) link.sender link.stream.ending id id hendi id
  | cancelled code =>
    dsimp only
    split
    · exact h.giveUp (.closing .connectionLost) link.sender _ id id (or_ne_finished hendi nofun) fun _ => or_ne_none
    · exact h.giveUp (.closing (.cancelled code)) link.sender _ id id (or_ne_finished hendi nofun) fun _ => or_ne_none
  | connectionLost => exact h.giveUp (.closing .connectionLost) link.sender link.stream.ending id id hendi id

theorem Holds.close {exit : MediaExit} (hwr : link.writer = .closing exit) : Holds lane delivered rest { link with
      queue := link.queue.close, stream := link.stream.endWith .reset, writer := .ended exit } := by
  by_cases hf : link.stream.ending = some .finished
  · -- the queue was empty already
    have hexit : exit = .finished := by
      have hd := h.finished hf
      rw [hwr] at hd
      cases exit with
      | finished => rfl
      | _ => exact hd.elim
    subst hexit
    have hdrai := h.drained (.inl (h.finished hf))
    have hcl : link.queue.close.records = link.queue.records := hdrai.2.symm
    refine { h with
      queue := SendQueue.within_close _ _
      queued := nofun
      writing := nofun
      whole := fun _ => ?_
      finished := fun _ => trivial
      drained := fun _ => ⟨hdrai.1, rfl⟩
      ended := fun _ => or_ne_none
      clean := fun hexit _ => h.clean hexit hf }
    have hwh := h.whole (.inl hf)
    rw [hwr, ← hcl] at hwh
    exact hwh
  · have hendi : link.stream.ending.or (some .reset) ≠ some .finished := or_ne_finished hf nofun
    refine { h with
      queue := SendQueue.within_close _ _
      queued := nofun
      writing := nofun
      whole := ?_
      finished := fun hn => absurd hn hendi
      drained := ?_
      ended := fun _ => or_ne_none
      clean := fun _ hn => absurd hn hendi }
    · rintro (hn | ⟨-, hl⟩)
      · exact absurd hn hendi
      · exact hl.elim
    · rintro (hd | hd)
      · cases exit with
        | finished => exact ⟨(h.drained (.inl (by rw [hwr]; trivial))).1, rfl⟩
        | _ => exact hd.elim
      · exact nomatch hd

theorem Holds.proceed (count : Nat) : Holds lane delivered rest (link.proceed lane count) := by
  unfold MediaLink.proceed
  cases hwr : link.writer with
  | waiting => exact h.nextItem hwr
  | writing slice offset later written =>
    dsimp only
    split
    · exact h.failWrite (by rw [hwr]; exact id) written .closedStream
    · rename_i hopen
      exact h.writeSlice hwr (Option.not_isSome_iff_eq_none.mp hopen) count
  | exiting => exact h.endStream hwr
  | closing => exact h.close hwr
  | ended => exact h

theorem Holds.noticeCancelled : Holds lane delivered rest link.noticeCancelled := by
  have hgiveUp : ¬link.writer.Finished →
      Holds lane delivered rest { link with writer := .exiting (.cancelled link.sender.codeOrFailed) } := fun hnot =>
    h.giveUp (.exiting (.cancelled _)) link.sender link.stream.ending id id (h.ending_ne hnot) id
  unfold MediaLink.noticeCancelled
  cases hwr : link.writer with
  | waiting | writing =>
    dsimp only
    split
    · exact hgiveUp (by rw [hwr]; exact id)
    · exact h
  | _ => exact h

theorem Holds.writerStep (turn : WriterTurn) : Holds lane delivered rest (link.writerStep lane turn) := by
  unfold MediaLink.writerStep
  split
  · exact h.proceed _
  · exact h.noticeCancelled
  · split
    · rename_i hwr
      exact h.failWrite (by rw [hwr]; exact id) _ _
    · exact h

/-! ### The reader -/

/-- The reader stops, for any reason but the stream's end. -/
theorem Holds.stop (exit : MediaExit) (hexit : exit ≠ .failed .peerFinished) (receiver : LaneControl)
    (recvOpen draining : Bool) :
    Holds lane delivered rest { link with receiver, recvOpen, draining, exit := some exit } := { h with
    ended := fun hend => absurd (Option.some.inj hend) hexit
    clean := fun hend => absurd (Option.some.inj hend) hexit }

theorem Holds.settleError (hfail : ∀ midFrame, fail ≠ .finished midFrame)
    : Reaches lane delivered rest (link.settle (.error fail)) := by
  cases fail with
  | cancelled =>
    refine Holds.reaches (h.stop _ ?_ link.receiver false false) rfl rfl
    unfold LaneControl.cancelledExit
    split <;> exact nofun
  | finished midFrame => exact absurd rfl (hfail midFrame)
  | reset => exact Holds.reaches (h.stop (.failed .peerReset) nofun _ false false) rfl rfl
  | lost => exact Holds.reaches (h.stop .connectionLost nofun link.receiver link.recvOpen false) rfl rfl
  | oversize => exact Holds.reaches (h.stop (.failed .oversize) nofun _ false false) rfl rfl

/-- Nothing is left once a finished stream is read to its end. -/
theorem Holds.all_read (hf : link.stream.ending = some .finished) (ho : link.stream.outstanding = [])
    : rest = [] ∧ link.frame.bytes = [] := by
  have hwh := h.whole (.inl hf)
  have hd := h.finished hf
  have hrem : link.writer.remaining = [] := by
    cases hwr : link.writer with
    | writing =>
      rw [hwr] at hd
      exact hd.elim
    | _ => rfl
  rw [ho, hrem, (h.drained (.inl hd)).2, frameAll_nil, append_nil, append_nil, append_nil] at hwh
  obtain rfl := h.wellFormed.rest_eq_nil lane.maxFrame_lt h.small hwh
  exact ⟨rfl, hwh.symm⟩

/-- At the end of the stream the reader has either everything or part of a frame. -/
theorem Holds.streamEnd (hended : link.stream.ending ≠ none) (ho : link.stream.outstanding = []) :
    Reaches lane delivered rest (link.settle (.error (.finished link.frame.midFrame))) := by
  refine Holds.reaches ?_ rfl rfl
  cases hmid : link.frame.midFrame with
  | true => exact h.stop (.failed .partialFrame) nofun _ false false
  | false =>
    exact { h with
      ended := fun _ => hended
      clean := fun _ hf => (h.all_read hf ho).1 }

/-- A read that takes the front of what is outstanding. -/
theorem Holds.takeBytes (hexit : link.exit = none) (hroom : bytes.length ≤ link.frame.room)
    (hfrt : bytes <+: link.stream.outstanding) : Reaches lane delivered rest (link.takeBytes lane bytes) := by
  obtain ⟨left, hleft⟩ := hfrt
  have hcons : link.stream.consumed + bytes.length ≤ link.stream.sent.length := by
    have hlen := congrArg List.length hleft
    rw [length_append, outstanding, length_drop] at hlen
    have hpre := h.consumed
    omega
  have ho : link.stream.sent.drop (link.stream.consumed + bytes.length) = left := by
    rw [← drop_drop, ← outstanding, ← hleft, drop_left]
  have hread : link.stream.sent.take (link.stream.consumed + bytes.length) =
      frameAll delivered ++ (link.frame.bytes ++ bytes) := by
    rw [take_add, h.read, ← outstanding, ← hleft, take_left, append_assoc]
  obtain ⟨tail, htail⟩ := h.front
  have hs : frameAll rest = link.frame.bytes ++ (bytes ++ (left ++ tail)) := by
    rw [← htail, ← hleft]
    simp
  have hint : Intact link.stream.ending link.writer → tail = link.writer.remaining ++ frameAll link.queue.records := by
    intro hint
    have hwh := htail.trans (h.whole hint)
    rw [append_assoc] at hwh
    exact append_cancel_left (append_cancel_left hwh)
  unfold MediaLink.takeBytes
  rcases h.wellFormed.read lane.maxFrame_lt h.small hroom hs with
    ⟨next, hnext, hwellFormed, hby⟩ | ⟨record, later, hrec, rfl, hlat⟩
  · rw [hnext]
    refine Holds.reaches ?_ rfl rfl
    refine { h with
      wellFormed := hwellFormed
      consumed := hcons
      read := hread.trans (by rw [hby])
      front := ⟨tail, ?_⟩
      whole := fun hi => ?_ }
    · unfold outstanding
      rw [ho, hby, hs]
      simp
    · unfold outstanding
      rw [ho, hby, hs, hint hi]
      simp
  · rw [hrec]
    have hfr : Arcen.frame record = link.frame.bytes ++ bytes := by
      rw [frameAll_cons, hlat, ← append_assoc link.frame.bytes] at hs
      exact append_cancel_right hs
    refine ⟨later, append_nil _, ?_⟩
    refine { h with
      small := fun other hmem => h.small other (mem_cons_of_mem _ hmem)
      wellFormed := PartialFrame.wellFormed_new
      consumed := hcons
      read := ?_
      front := ⟨tail, ?_⟩
      whole := fun hi => ?_
      clean := fun hend => nomatch hexit.symm.trans hend }
    · refine hread.trans ?_
      rw [← hfr]
      change frameAll delivered ++ Arcen.frame record = frameAll (delivered ++ [record]) ++ []
      simp
    · change [] ++ link.stream.sent.drop (link.stream.consumed + bytes.length) ++ tail = frameAll later
      rw [ho, hlat, nil_append]
    · change frameAll later = [] ++ (link.stream.sent.drop (link.stream.consumed + bytes.length) ++ _)
      rw [ho, hlat, hint hi]
      rfl

theorem Holds.readStep (count : Nat) (hexit : link.exit = none) :
    Reaches lane delivered rest (link.readStep lane count) := by
  unfold MediaLink.readStep
  split
  · rename_i ho
    split
    · exact h.reaches rfl rfl
    · exact h.settleError nofun
    · rename_i hreset hended
      refine h.streamEnd ?_ ho
      rw [hended]
      exact nofun
  · generalize hby : link.stream.outstanding.take (max 1 (min count link.frame.room)) = bytes
    have hroom : bytes.length ≤ link.frame.room := by
      have hpos := h.wellFormed.room_pos
      rw [← hby, length_take]
      omega
    exact h.takeBytes hexit hroom ⟨_, by rw [← hby]; exact take_append_drop _ _⟩

theorem Holds.pollStep (turn : ReaderTurn) : Reaches lane delivered rest (link.pollStep lane turn) := by
  unfold MediaLink.pollStep
  split
  · exact h.reaches rfl rfl
  · rename_i hexit
    split
    · refine Holds.reaches (h.stop _ ?_ link.receiver false link.draining) rfl rfl
      unfold LaneControl.cancelledExit
      split <;> exact nofun
    · cases turn with
      | read count => exact h.readStep count hexit
      | cancelled =>
        dsimp only
        split
        · split
          · exact Holds.reaches { h with } rfl rfl
          · exact h.settleError nofun
        · exact h.reaches rfl rfl
      | failed lost => cases lost <;> exact h.settleError nofun
      | drop => exact h.reaches rfl rfl

theorem Holds.readerStep (turn : ReaderTurn) : Reaches lane delivered rest (link.readerStep lane turn) := by
  unfold MediaLink.readerStep
  split
  · exact Holds.reaches { h with } rfl rfl
  · exact h.pollStep turn

theorem Holds.truncate (left : Nat) :
    Holds lane delivered rest { link with stream := link.stream.truncate left } := by
  unfold LaneStream.truncate
  split
  · rename_i hopen
    refine { h with
      consumed := ?_
      read := ?_
      front := ?_
      whole := ?_
      finished := nofun
      ended := nofun
      clean := nofun }
    · rw [length_take]
      exact Nat.le_min.mpr ⟨Nat.le_add_right _ _, h.consumed⟩
    · rw [take_take, Nat.min_eq_left (Nat.le_add_right _ _)]
      exact h.read
    · refine List.IsPrefix.trans ?_ h.front
      unfold outstanding
      rw [prefix_append_right_inj, drop_take]
      exact List.take_prefix _ _
    · rintro (hf | ⟨hnone, -⟩)
      · exact nomatch hf
      · exact nomatch hnone
  · exact h

/-- **Steps.** Every step keeps what the lane holds. -/
theorem Holds.step (call : MediaStep) : Reaches lane delivered rest (link.step lane call) := by
  cases call with
  | trySend record => exact h.trySend record
  | send record => exact h.sendTurn record
  | retry index => exact h.retry index
  | abandon | cancelSender | cancelReceiver | closeSender
  | closeReceiver => exact Holds.reaches { h with } rfl rfl
  | finish =>
    exact Holds.reaches { h with
      queue := ⟨h.queue.records, h.queue.bytes, h.queue.single⟩
      drained := fun hd => ⟨rfl, (h.drained hd).2⟩ } rfl rfl
  | writer turn => exact (h.writerStep turn).reaches rfl rfl
  | reader turn => exact h.readerStep turn
  | truncate left => exact (h.truncate left).reaches rfl rfl

end

end MediaLink

/-- **Runs.** What was accepted is what was delivered and what is still held, in this order. -/
theorem mediaLane_holds (lane : MediaLane) (steps : List MediaStep) :
    ∃ rest, acceptedRecords ((mediaLane lane).log steps) = receivedFrames ((mediaLane lane).log steps) ++ rest ∧
      MediaLink.Holds lane (receivedFrames ((mediaLane lane).log steps)) rest ((mediaLane lane).exec steps) := by
  refine (mediaLane lane).log_invariant (P := fun log link => ∃ rest,
    acceptedRecords log = receivedFrames log ++ rest ∧ MediaLink.Holds lane (receivedFrames log) rest link)
    ⟨[], rfl, MediaLink.holds_new lane⟩ ?_ steps
  rintro log link call ⟨_, hacce, hh⟩
  obtain ⟨later, hlat, hnext⟩ := hh.step call
  have hfram : receivedFrames (log ++ [(call, (link.step lane call).2)]) =
      receivedFrames log ++ frameOf (link.step lane call).2 := by
    simp [receivedFrames]
  refine ⟨later, ?_, ?_⟩
  · calc acceptedRecords (log ++ [(call, (link.step lane call).2)])
        = acceptedRecords log ++ acceptedOf (link.step lane call).2 := by simp [acceptedRecords]
      _ = receivedFrames log ++ (frameOf (link.step lane call).2 ++ later) := by
        rw [hacce, append_assoc, hlat]
      _ = receivedFrames (log ++ [(call, (link.step lane call).2)]) ++ later := by rw [hfram, append_assoc]
  · exact hfram ▸ hnext

end Arcen
