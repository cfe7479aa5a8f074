import Arcen.MediaLaneFrames

/-! What a media lane holds. The records that were accepted and not yet delivered are, as a stream of frames, the partial
frame, what is outstanding, what the writer has still to write and what is queued, in this order; once the writer has
given up, the partial frame and what is outstanding are the front of that stream. -/

namespace Arcen

open List

structure SendQueue.Within (queue : SendQueue) (bounds : LaneQueueBounds) : Prop where
  records : queue.records.length ≤ bounds.maxRecords
  bytes : queue.bytes = (queue.records.map length).sum
  single : bounds.maxBytes < queue.bytes → queue.records.length = 1

/-- What the writer has taken from the queue and not written. -/
def MediaWriter.remaining : MediaWriter → List UInt8
  | .writing slice offset later _ => slice.drop offset ++ later.flatten
  | _ => []

def MediaWriter.Live : MediaWriter → Prop
  | .waiting | .writing .. | .exiting .finished => True
  | _ => False

def MediaWriter.Finished : MediaWriter → Prop
  | .closing .finished | .ended .finished => True
  | _ => False

/-- Everything accepted was or will be written. -/
def Intact (ending : Option StreamEnd) (writer : MediaWriter) : Prop :=
  ending = some .finished ∨ ending = none ∧ writer.Live

/-- The lane, with the records delivered and those still to come. -/
structure MediaLink.Holds (lane : MediaLane) (delivered rest : List (List UInt8)) (link : MediaLink) : Prop where
  queue : link.queue.Within lane.bounds
  small : ∀ record ∈ rest, record.length ≤ lane.maxFrame
  queued : ∀ record ∈ link.queue.records, record.length ≤ lane.maxFrame
  wellFormed : link.frame.WellFormed
  writing : ∀ slice offset later written, link.writer = .writing slice offset later written → offset < slice.length
  consumed : link.stream.consumed ≤ link.stream.sent.length
  read : link.stream.sent.take link.stream.consumed = frameAll delivered ++ link.frame.bytes
  front : link.frame.bytes ++ link.stream.outstanding <+: frameAll rest
  whole : Intact link.stream.ending link.writer → frameAll rest =
    link.frame.bytes ++ (link.stream.outstanding ++ (link.writer.remaining ++ frameAll link.queue.records))
  finished : link.stream.ending = some .finished → link.writer.Finished
  drained : link.writer.Finished ∨ link.writer = .exiting .finished →
    link.queue.finishing = true ∧ link.queue.records = []
  ended : link.exit = some (.failed .peerFinished) → link.stream.ending ≠ none
  clean : link.exit = some (.failed .peerFinished) → link.stream.ending = some .finished → rest = []

theorem MediaLink.holds_new (lane : MediaLane) : MediaLink.Holds lane [] [] .new where
  queue := ⟨Nat.zero_le _, rfl, fun h => absurd h (Nat.not_lt_zero _)⟩
  small := nofun
  queued := nofun
  wellFormed := PartialFrame.wellFormed_new
  writing := nofun
  consumed := Nat.le_refl _
  read := rfl
  front := nil_prefix
  whole := fun _ => rfl
  finished := nofun
  drained := by rintro (h | h) <;> exact nomatch h
  ended := nofun
  clean := nofun

/-! ### The queue -/

namespace SendQueue

variable {queue : SendQueue} {bounds : LaneQueueBounds}

structure Accepts (queue : SendQueue) (bounds : LaneQueueBounds) (maxFrame : Nat) (control : LaneControl)
    (record : List UInt8) : Prop where
  small : record.length ≤ maxFrame
  running : queue.finishing = false
  room : queue.records.length < bounds.maxRecords
  bytes : queue.records = [] ∨ queue.bytes + record.length ≤ bounds.maxBytes

theorem enqueue_cases (queue : SendQueue) (bounds : LaneQueueBounds) (maxFrame : Nat) (control : LaneControl)
    (record : List UInt8) : (∃ error, queue.enqueue bounds maxFrame control record = (queue, .error error)) ∨
      queue.Accepts bounds maxFrame control record ∧ queue.enqueue bounds maxFrame control record =
        ({ queue with records := queue.records ++ [record], bytes := queue.bytes + record.length }, .ok ()) := by
  unfold enqueue
  split_ifs with hmax hcl hfull
  · exact .inl ⟨_, rfl⟩
  · exact .inl ⟨_, rfl⟩
  · exact .inl ⟨_, rfl⟩
  · rw [not_or, not_and_or, not_not] at hfull
    simp only [Bool.or_eq_true, not_or, Bool.not_eq_true] at hcl
    exact .inr ⟨⟨Nat.not_lt.mp hmax, hcl.1.2, Nat.not_le.mp hfull.1, hfull.2.imp_right Nat.not_lt.mp⟩, rfl⟩

theorem Within.enqueue (h : queue.Within bounds) {control : LaneControl}
    (hacc : queue.Accepts bounds maxFrame control record) :
    Within { queue with records := queue.records ++ [record], bytes := queue.bytes + record.length } bounds where
  records := by
    rw [length_append]
    exact hacc.room
  bytes := by simp [h.bytes]
  single := by
    intro ho
    rcases hacc.bytes with hemp | hby
    · simp [hemp]
    · exact absurd hby (Nat.not_le.mpr ho)

theorem Within.popFront (h : queue.Within bounds) {records : List (List UInt8)}
    (hrecs : queue.records = record :: records) :
    Within { queue with records, bytes := queue.bytes - record.length } bounds := by
  have hlen := h.records
  have hby := h.bytes
  have hsing := h.single
  rw [hrecs] at hlen hby hsing
  simp only [length_cons, map_cons, sum_cons] at hlen hby hsing
  have hrest : queue.bytes - record.length = (records.map length).sum := by omega
  refine ⟨Nat.le_of_succ_le hlen, hrest, fun ho => ?_⟩
  change bounds.maxBytes < queue.bytes - record.length at ho
  -- a queue over its byte bound held one record, and none is left of it
  have hemp : records = [] := length_eq_zero_iff.mp (by omega)
  rw [hrest, hemp] at ho
  exact absurd ho (Nat.not_lt_zero _)

theorem within_close (queue : SendQueue) (bounds : LaneQueueBounds) : queue.close.Within bounds :=
  ⟨Nat.zero_le _, rfl, fun h => absurd h (Nat.not_lt_zero _)⟩

end SendQueue

end Arcen
