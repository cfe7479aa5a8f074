import Arcen.ClipboardReassembler

/-! Safety of clipboard reassembly under any interleaving of offers, chunks, failure notices and
timeouts. The log of a run names the offer accepted last and the payloads accepted since; an item in
flight is always the partial item of that offer, and completed sequences and abandoned ones stay behind
the counter. -/

namespace Arcen

open List
namespace ClipboardReassembler

inductive Effect (reassembler : ClipboardReassembler) :
    ReassemblerCall → ReassemblerReply → ClipboardReassembler → Prop
  | refusedOffer {offer : ClipboardDataMsg} {now : Instant} {error : ClipboardReassemblyError} :
      Effect reassembler (.beginAt offer now) (.began (.error error)) reassembler
  | acceptedOffer {offer : ClipboardDataMsg} {now : Instant} {next : ClipboardReassembler} {item : InFlight}
      (hnewer : reassembler.latestSequence < offer.sequence) (hlatest : next.latestSequence = offer.sequence)
      (hitem : next.inFlight = some item) (hstarts : item.Starts offer) (hbytes : item.bytes = []) :
      Effect reassembler (.beginAt offer now) (.began (.ok ())) next
  | refusedChunk {header : ClipboardChunkHeader} {payload : List UInt8} {now : Instant} {reserved : Bool}
      {error : ClipboardReassemblyError} (hlive : error ≠ .expired) :
      Effect reassembler (.pushAt header payload now reserved) (.pushed (.error error)) reassembler
  | expiredChunk {header : ClipboardChunkHeader} {payload : List UInt8} {now : Instant} {reserved : Bool} :
      Effect reassembler (.pushAt header payload now reserved) (.pushed (.error .expired)) reassembler.abort
  | acceptedChunk {header : ClipboardChunkHeader} {payload : List UInt8} {now : Instant} {reserved : Bool}
      {next : ClipboardReassembler} {item : InFlight}
      {hless : item.bytes.length + payload.length < item.totalSize} (hitem : reassembler.inFlight = some item)
      (hlatest : next.latestSequence = reassembler.latestSequence)
      (hnext : next.inFlight = some (item.extend payload now hless)) :
      Effect reassembler (.pushAt header payload now reserved) (.pushed (.ok none)) next
  | lastChunk {header : ClipboardChunkHeader} {payload : List UInt8} {now : Instant} {reserved : Bool}
      {item : InFlight} (hitem : reassembler.inFlight = some item)
      (hlen : item.bytes.length + payload.length = item.totalSize) :
      Effect reassembler (.pushAt header payload now reserved)
        (.pushed (.ok (some ⟨item.sequence, item.kind, item.bytes ++ payload, item.truncated⟩))) reassembler.abort
  | abandoned {sequence : UInt64} {discarded : Bool} {next : ClipboardReassembler}
      (hlatest : next.latestSequence = (reassembler.raise sequence).latestSequence)
      (hitem : ∀ item, next.inFlight = some item ↔ reassembler.inFlight = some item ∧ item.sequence ≠ sequence) :
      Effect reassembler (.abandon sequence) (.abandoned discarded) next
  | expired {now : Instant} : Effect reassembler (.expire now) (.expired true) reassembler.abort
  | live {now : Instant} : Effect reassembler (.expire now) (.expired false) reassembler
  | aborted : Effect reassembler .abort .aborted reassembler.abort

variable (asm : ClipboardReassembler)

theorem abandon_effect (sequence : UInt64) : Effect asm (.abandon sequence) (.abandoned (asm.abandon sequence).2)
      (asm.abandon sequence).1 := by
  rw [abandon, show (asm.raise sequence).inFlightSequence = asm.inFlight.map InFlight.sequence from rfl]
  split <;> rename_i hsame <;> refine .abandoned rfl fun item => ?_
  · change none = some item ↔ asm.inFlight = some item ∧ _
    cases hi : asm.inFlight <;> simp [hi] at hsame ⊢
    rintro rfl
    exact hsame
  · change asm.inFlight = some item ↔ _
    simp only [iff_self_and]
    rintro hi rfl
    exact hsame (by rw [hi, Option.map_some])

theorem step_effect (call : ReassemblerCall) : Effect asm call (asm.step call).2 (asm.step call).1 := by
  cases call with
  | beginAt offer now =>
    simp only [step, beginAt]
    split
    · exact .refusedOffer
    split
    · exact .refusedOffer
    rename_i hnew
    split
    · exact .refusedOffer
    exact .acceptedOffer (UInt64.not_le.mp hnew) rfl rfl ⟨rfl, rfl, rfl, rfl⟩ rfl
  | pushAt header payload now reserved =>
    simp only [step, pushAt]
    split
    · exact .refusedChunk (by decide)
    split
    · exact .expiredChunk
    split
    · exact .refusedChunk (by decide)
    rename_i item hi
    split
    · rename_i herror
      exact .refusedChunk (InFlight.accept_inv herror)
    · rename_i hnext
      obtain ⟨hl, rfl⟩ := InFlight.accept_inv hnext
      exact .acceptedChunk hi rfl rfl
    · rename_i hcompl
      obtain ⟨hlen, rfl⟩ := InFlight.accept_inv hcompl
      exact .lastChunk hi hlen
  | abandon seq => exact asm.abandon_effect seq
  | expire =>
    simp only [step, expire]
    split
    · exact .expired
    · exact .live
  | abort => exact .aborted

section Effects

variable {asm next : ClipboardReassembler} {call : ReassemblerCall} {reply : ReassemblerReply}

theorem le_raise (asm : ClipboardReassembler) (seq : UInt64) : asm.latestSequence ≤ (asm.raise seq).latestSequence ∧
      seq ≤ (asm.raise seq).latestSequence := by
  change _ ≤ ite _ _ _ ∧ _ ≤ ite _ _ _
  split
  · rename_i h
    exact ⟨UInt64.le_of_lt h, UInt64.le_refl _⟩
  · rename_i h
    exact ⟨UInt64.le_refl _, UInt64.not_lt.mp h⟩

/-- The counter never falls. -/
theorem Effect.latest_mono (h : Effect asm call reply next) : asm.latestSequence ≤ next.latestSequence := by
  cases h with
  | acceptedOffer hnewer hl => exact hl ▸ UInt64.le_of_lt hnewer
  | acceptedChunk _ hl => exact hl ▸ UInt64.le_refl _
  | abandoned hl => exact hl ▸ (le_raise asm _).1
  | _ => exact UInt64.le_refl _

theorem Effect.item_newer_or_same (h : Effect asm call reply next)
    (hi : next.inFlight = some item) :
    asm.latestSequence < item.sequence ∨ ∃ old, asm.inFlight = some old ∧ old.sequence = item.sequence := by
  cases h with
  | acceptedOffer hnewer _ hn hsts =>
    cases hn.symm.trans hi
    exact Or.inl (hsts.1 ▸ hnewer)
  | acceptedChunk ho _ hn =>
    cases hn.symm.trans hi
    exact Or.inr ⟨_, ho, rfl⟩
  | abandoned _ hiff => exact Or.inr ⟨item, ((hiff item).mp hi).1, rfl⟩
  | refusedOffer | refusedChunk | live => exact Or.inr ⟨item, hi, rfl⟩
  | expiredChunk | lastChunk | expired | aborted => cases hi

end Effects

/-! ### The log of a run -/

abbrev Entry := ReassemblerCall × ReassemblerReply

def noteOffer : Option ClipboardDataMsg → Entry → Option ClipboardDataMsg
  | _, (.beginAt offer _, .began (.ok ())) => some offer
  | last, _ => last

def notePayload : List UInt8 → Entry → List UInt8
  | _, (.beginAt _ _, .began (.ok ())) => []
  | bytes, (.pushAt _ payload _ _, .pushed (.ok _)) => bytes ++ payload
  | bytes, _ => bytes

variable (log : List Entry)

def acceptedOffer : Option ClipboardDataMsg := log.foldl noteOffer none

/-- The payloads accepted since the most recently accepted offer, in order. -/
def acceptedPayload : List UInt8 := log.foldl notePayload []

def completion : Entry → Option CompletedClipboardData
  | (_, .pushed (.ok completed)) => completed
  | _ => none

def completions : List CompletedClipboardData := log.filterMap completion

@[simp] theorem acceptedOffer_concat (entry : Entry) :
    acceptedOffer (log ++ [entry]) = noteOffer (acceptedOffer log) entry := by
  simp [acceptedOffer]

@[simp] theorem acceptedPayload_concat (entry : Entry) :
    acceptedPayload (log ++ [entry]) = notePayload (acceptedPayload log) entry := by
  simp [acceptedPayload]

def Tracks (reassembler : ClipboardReassembler) : Prop := ∀ item, reassembler.inFlight = some item →
    ∃ offer, acceptedOffer log = some offer ∧ item.Starts offer ∧ item.bytes = acceptedPayload log

variable {log : List Entry} {asm next : ClipboardReassembler} {call : ReassemblerCall}
  {reply : ReassemblerReply} {seq : UInt64}

theorem Tracks.step (h : Tracks log asm) (heff : Effect asm call reply next) :
    Tracks (log ++ [(call, reply)]) next := by
  intro item hi
  rw [acceptedOffer_concat, acceptedPayload_concat]
  cases heff with
  | acceptedOffer _ _ hn hsts hby =>
    cases hn.symm.trans hi
    exact ⟨_, rfl, hsts, hby⟩
  | acceptedChunk ho _ hn =>
    cases hn.symm.trans hi
    obtain ⟨offer, hoffer, hsts, hby⟩ := h _ ho
    exact ⟨offer, hoffer, hsts, congrArg (· ++ _) hby⟩
  | abandoned _ hiff => exact h item ((hiff item).mp hi).1
  | refusedOffer | refusedChunk | live => exact h item hi
  | expiredChunk | lastChunk | expired | aborted => cases hi

/-- A sequence the counter has reached, related by `R` to the item in flight. -/
def Behind (R : UInt64 → UInt64 → Prop) (sequence : UInt64) (reassembler : ClipboardReassembler) : Prop :=
  sequence ≤ reassembler.latestSequence ∧ ∀ item, reassembler.inFlight = some item → R sequence item.sequence

/-- A new item is newer than everything the counter has reached. -/
theorem Behind.step (hR : ∀ old new, old < new → R old new)
    (h : Behind R seq asm) (heff : Effect asm call reply next) : Behind R seq next := by
  refine ⟨UInt64.le_trans h.1 heff.latest_mono, fun item hi => ?_⟩
  rcases heff.item_newer_or_same hi with hnewer | ⟨old, ho, hs⟩
  · exact hR _ _ (UInt64.lt_of_le_of_lt h.1 hnewer)
  · exact hs ▸ h.2 old ho

variable {completed : CompletedClipboardData} {initial : ClipboardReassembler} {now : Instant}
  {error : ClipboardReassemblyError}

section

variable (heff : Effect asm call reply next) (h : completion (call, reply) = some completed)
include heff h

theorem Effect.completion_inFlight : ∃ item header payload now reserved, call = .pushAt header payload now reserved ∧
      asm.inFlight = some item ∧ item.bytes.length + payload.length = item.totalSize ∧
      completed = ⟨item.sequence, item.kind, item.bytes ++ payload, item.truncated⟩ ∧ next = asm.abort := by
  cases heff with
  | lastChunk hi hlen =>
    cases h
    exact ⟨_, _, _, _, _, rfl, hi, hlen, rfl, rfl⟩
  | _ => cases h

theorem Effect.completion_behind : Behind (· < ·) completed.sequence next := by
  obtain ⟨item, _, _, _, _, -, hi, -, rfl, rfl⟩ := heff.completion_inFlight h
  refine ⟨(asm.inFlight_fits item hi).2, fun other hoth => ?_⟩
  cases hoth
end

structure Ordered (earlier later : Entry) : Prop where
  abandoned : ∀ sequence completed, earlier.1 = .abandon sequence → completion later = some completed →
    completed.sequence ≠ sequence
  increasing : ∀ prior completed, completion earlier = some prior → completion later = some completed →
    prior.sequence < completed.sequence

/-- What the log of a run says about its state. -/
structure History (log : List Entry) (reassembler : ClipboardReassembler) : Prop where
  tracks : Tracks log reassembler
  abandoned : ∀ entry ∈ log, ∀ sequence, entry.1 = .abandon sequence →
    Behind (fun abandoned current => current ≠ abandoned) sequence reassembler
  completed : ∀ entry ∈ log, ∀ completed, completion entry = some completed →
    Behind (· < ·) completed.sequence reassembler
  ordered : log.Pairwise Ordered

theorem History.step (h : History log asm) (heff : Effect asm call reply next) :
    History (log ++ [(call, reply)]) next := by
  refine ⟨h.tracks.step heff, ?_, ?_, ?_⟩
  · intro entry hent seq hcall
    rcases mem_append.mp hent with ho | hnew
    · exact (h.abandoned entry ho seq hcall).step (fun old new hlt => (UInt64.ne_of_lt hlt).symm) heff
    · cases mem_singleton.mp hnew
      cases hcall
      cases heff with
      | abandoned hl hiff =>
        exact ⟨hl ▸ (le_raise asm seq).2, fun item hi => ((hiff item).mp hi).2⟩
  · intro entry hent completed hc
    rcases mem_append.mp hent with ho | hnew
    · exact (h.completed entry ho completed hc).step (fun _ _ => id) heff
    · cases mem_singleton.mp hnew
      exact heff.completion_behind hc
  · refine pairwise_append.mpr ⟨h.ordered, pairwise_singleton _ _, fun earlier hearly later hlater => ?_⟩
    cases mem_singleton.mp hlater
    constructor
    · intro seq completed hcall hc
      obtain ⟨item, _, _, _, _, -, hi, -, rfl, -⟩ := heff.completion_inFlight hc
      exact (h.abandoned earlier hearly seq hcall).2 item hi
    · intro prior completed hpr hc
      obtain ⟨item, _, _, _, _, -, hi, -, rfl, -⟩ := heff.completion_inFlight hc
      exact (h.completed earlier hearly prior hpr).2 item hi

theorem history_log (hemp : initial.inFlight = none) (calls : List ReassemblerCall) :
    History ((clipboardReassembler initial).log calls) ((clipboardReassembler initial).exec calls) := by
  refine (clipboardReassembler initial).log_invariant (P := History) ?_ ?_ calls
  · refine ⟨fun item hi => ?_, by simp, by simp, List.Pairwise.nil⟩
    change initial.inFlight = some item at hi
    rw [hemp] at hi
    cases hi
  · exact fun log asm call h => h.step (asm.step_effect call)

theorem inFlight_of_new {maximum : Nat} (h : new maximum = .ok initial) : initial.inFlight = none := by
  unfold new at h
  split at h
  · cases h
  · cases h
    rfl

/-- Completed sequences increase, as the entries that complete them follow each other. -/
theorem completions_increasing (h : log.Pairwise Ordered) :
    ((completions log).map CompletedClipboardData.sequence).Pairwise (· < ·) := by
  rw [pairwise_map, completions, pairwise_filterMap]
  refine h.imp ?_
  intro earlier later hord prior hpr completed hc
  exact hord.increasing prior completed hpr hc

theorem abandon_other (hi : asm.inFlight = some item) (hoth : item.sequence ≠ seq) :
    (asm.abandon seq).1.inFlight = some item := by
  have heff := asm.abandon_effect seq
  cases heff with
  | abandoned _ hiff => exact (hiff item).mpr ⟨hi, hoth⟩

theorem beginAt_refused {offer : ClipboardDataMsg} (h : asm.beginAt offer now = (next, .error error)) :
    next = asm := by
  have heff := asm.step_effect (.beginAt offer now)
  simp only [step, h] at heff
  cases heff
  rfl

theorem pushAt_refused
    (h : asm.pushAt header payload now reserved = (next, .error error)) (hlive : error ≠ .expired) : next = asm := by
  have heff := asm.step_effect (.pushAt header payload now reserved)
  simp only [step, h] at heff
  cases heff with
  | refusedChunk => rfl
  | expiredChunk => exact absurd rfl hlive

/-- **Reassembly safety.** Over every run of offers, chunks, failure notices, timeouts and aborts, at any
times: a completed item is the last accepted offer filled with the payloads accepted since; completed
sequences increase; an abandoned sequence never completes afterwards; a notice leaves an item of another
sequence alone; the buffer stays within the maximum and the announced size; and a refused call changes
nothing unless the item had expired. -/
theorem reassembly_safety {maximum : Nat} {initial : ClipboardReassembler} (hnew : new maximum = .ok initial)
    (calls : List ReassemblerCall) :
    let log := (clipboardReassembler initial).log calls
    let state := (clipboardReassembler initial).exec calls
    (∀ header payload now reserved completed, (state.pushAt header payload now reserved).2 = .ok (some completed) →
        ∃ offer, acceptedOffer log = some offer ∧ completed.sequence = offer.sequence ∧
          completed.kind = offer.kind ∧ completed.truncated = offer.truncated ∧
          completed.bytes.length = offer.sizeBytes.toNat ∧ completed.bytes = acceptedPayload log ++ payload) ∧
      ((completions log).map CompletedClipboardData.sequence).Pairwise (· < ·) ∧
      (∀ before after seq reply, log = before ++ (.abandon seq, reply) :: after →
        ∀ completed ∈ completions after, completed.sequence ≠ seq) ∧
      (∀ seq item, state.inFlight = some item → item.sequence ≠ seq → (state.abandon seq).1.inFlight = some item) ∧
      (∀ item, state.inFlight = some item → state.bufferedLen ≤ min state.maximum item.totalSize) ∧
      (∀ offer now next error, state.beginAt offer now = (next, .error error) → next = state) ∧
      (∀ header payload now reserved next error,
        state.pushAt header payload now reserved = (next, .error error) → error ≠ .expired → next = state) := by
  intro log state
  have hhist : History log state := history_log (inFlight_of_new hnew) calls
  refine ⟨?_, completions_increasing hhist.ordered, ?_, fun _ _ => abandon_other, ?_,
    fun _ _ _ _ => beginAt_refused, fun _ _ _ _ _ _ => pushAt_refused⟩
  · intro header payload now reserved completed hc
    have heff := state.step_effect (.pushAt header payload now reserved)
    have hrpl : completion (.pushAt header payload now reserved,
        (state.step (.pushAt header payload now reserved)).2) = some completed := by
      simp only [step, completion, hc]
    obtain ⟨item, _, _, _, _, hcall, hi, hlen, rfl, -⟩ := heff.completion_inFlight hrpl
    cases hcall
    obtain ⟨offer, hoffer, ⟨hs, hkind, hsize, htrun⟩, hby⟩ := hhist.tracks item hi
    refine ⟨offer, hoffer, hs, hkind, htrun, ?_, by rw [hby]⟩
    rw [length_append, hlen, hsize]
  · intro before after seq reply hlog completed hc
    obtain ⟨entry, hent, hentryCompleted⟩ := mem_filterMap.mp hc
    have hord := hhist.ordered
    rw [hlog, pairwise_append, pairwise_cons] at hord
    exact (hord.2.1.1 entry hent).abandoned seq completed rfl hentryCompleted
  · intro item hi
    have hsize := (state.inFlight_fits item hi).1
    have hbuff : state.bufferedLen = item.bytes.length := by rw [bufferedLen, hi, Option.elim_some]
    have hmore := item.bytes_lt
    rw [hbuff]
    omega

/-- A receiver of at most four bytes, and an offer of four with their first half. -/
def fourBytes : ClipboardReassembler := ⟨4, 0, none, by decide, by simp⟩

def halfSent : List ReassemblerCall :=
  [.beginAt (.new 1 .textUtf8 4 false) 0, .pushAt ⟨.textUtf8, 1, 4, 0⟩ [97, 98] 1 true]

theorem reassembly_safety_second_half :
    (((clipboardReassembler fourBytes).exec halfSent).pushAt ⟨.textUtf8, 1, 4, 2⟩ [99, 100] 2 true).2 =
        .ok (some ⟨1, .textUtf8, [97, 98, 99, 100], false⟩) ∧
      ∃ offer, acceptedOffer ((clipboardReassembler fourBytes).log halfSent) = some offer ∧
        1 = offer.sequence ∧ [97, 98, 99, 100] = acceptedPayload ((clipboardReassembler fourBytes).log halfSent) ++ [99, 100] := by
  have hc : (((clipboardReassembler fourBytes).exec halfSent).pushAt ⟨.textUtf8, 1, 4, 2⟩ [99, 100] 2 true).2 =
      .ok (some ⟨1, .textUtf8, [97, 98, 99, 100], false⟩) := by
    decide
  have hnew : new 4 = .ok fourBytes := rfl
  obtain ⟨offer, hoffer, hs, -, -, -, hby⟩ := (reassembly_safety hnew halfSent).1 _ _ _ _ _ hc
  exact ⟨hc, offer, hoffer, hs, hby⟩

end ClipboardReassembler
end Arcen
