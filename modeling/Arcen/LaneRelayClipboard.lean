import Arcen.LaneRelayVideo

/-! Abandoned clipboard transfers. The router and the writer of the bulk lane each remember one transfer that failed, and the
writer's report reaches the router later. A transfer that the backlog refused is forgotten as soon as another one fails. -/

namespace Arcen

open List

section Contiguous

variable {α : Type}

/-- Equal elements stand together. -/
def Contiguous (items : List α) : Prop := ∀ first second, first ≠ second → ¬[first, second, first].Sublist items

theorem Contiguous.sublist (h : Contiguous items) (hpart : part.Sublist items) : Contiguous part :=
  fun first second hne hsub => h first second hne (hsub.trans hpart)

/-- If no two neighbours are equal then no two elements are. -/
theorem Contiguous.nodup (h : Contiguous items) (hch : items.IsChain (· ≠ ·)) : items.Nodup := by
  induction items with
  | nil => exact nodup_nil
  | cons first items ih =>
    have htail := ih (h.sublist (sublist_cons_self _ _)) hch.of_cons
    refine nodup_cons.mpr ⟨fun hmem => ?_, htail⟩
    cases items with
    | nil => exact not_mem_nil hmem
    | cons second items =>
      have hne : first ≠ second := (isChain_cons_cons.mp hch).1
      have hlat : first ∈ items := (mem_cons.mp hmem).resolve_left hne
      exact h first second hne (((singleton_sublist.mpr hlat).cons_cons second).cons_cons first)

end Contiguous

def RelayStep.transfer (offer : String → Option UInt64) : RelayStep → Option UInt64
  | .routeBulk record => LaneRelay.clipboardTransferSequence offer record
  | _ => none

namespace RelayEntry

variable (offer : String → Option UInt64) (sequence : UInt64) (entry : RelayEntry)

def transfer : Option UInt64 := entry.1.transfer offer

/-- The transfer whose report is applied. -/
def reported : Option UInt64 :=
  match entry.2 with
  | .undelivered sequence _ => some sequence
  | _ => none

def RefusesTransfer : Prop := entry.transfer offer = some sequence ∧ ∃ noticed, entry.2 = .bulk .refused noticed

def AcceptsTransfer : Prop := entry.transfer offer = some sequence ∧ ∃ noticed, entry.2 = .bulk .queued noticed

/-- The transfer fails at the router: it has no room for a record, or the writer's report is applied. -/
def FailsTransfer : Prop := entry.RefusesTransfer offer sequence ∨ entry.reported = some sequence

/-- A record of the transfer is routed, or a report on it is applied. -/
def Concerns : Prop := entry.transfer offer = some sequence ∨ entry.reported = some sequence

/-- A notice for the transfer is queued for the Deck. -/
def Notices : Prop :=
  entry.transfer offer = some sequence ∧ entry.2 = .bulk .refused true ∨ entry.2 = .undelivered sequence true

end RelayEntry

/-- The transfers of the records routed, oldest first. -/
def routedTransfers (offer : String → Option UInt64) (log : List RelayEntry) : List UInt64 :=
  log.filterMap (RelayEntry.transfer offer)

/-- The transfers whose report was applied, oldest first. -/
def appliedReports (log : List RelayEntry) : List UInt64 := log.filterMap RelayEntry.reported

namespace LaneRelay

variable (relay : LaneRelay)

/-- The transfers whose report is on its way to the router. -/
def pendingReports : List UInt64 := relay.events.filterMap (fun event =>
    match event with
    | .clipboardUndelivered sequence => some sequence
    | _ => none) ++
    match relay.bulkWriter with
    | .reporting sequence => [sequence]
    | _ => []

def bulkLine : List UInt64 := (match relay.bulkWriter with
    | .sending record => record.clipboard.toList
    | _ => []) ++ relay.bulk.filterMap BulkRecord.clipboard

/-- The record that is being sent does not belong to the transfer that failed last. -/
def SendsOther : Prop := ∀ record sequence, relay.bulkWriter = .sending record → record.clipboard = some sequence →
    relay.undelivered ≠ some sequence

inductive ClipboardStep (offer : String → Option UInt64) (relay next : LaneRelay) (entry : RelayEntry) : Prop where
  | abandoned (sequence : UInt64) (htransfer : entry.transfer offer = some sequence)
      (hreply : entry.2 = .bulk .abandoned false) (hfailed : relay.failedClipboard = some sequence) (hnext : next = relay)
  | queued (sequence : UInt64) (htransfer : entry.transfer offer = some sequence)
      (hreply : entry.2 = .bulk .queued false) (hfailed : relay.failedClipboard ≠ some sequence)
      (hsame : next.failedClipboard = relay.failedClipboard) (hundelivered : next.undelivered = relay.undelivered)
      (hpending : next.pendingReports = relay.pendingReports) (hline : next.bulkLine = relay.bulkLine ++ [sequence])
  | refused (sequence : UInt64) (htransfer : entry.transfer offer = some sequence)
      (hreply : entry.2 = .bulk .refused true) (hfailed : relay.failedClipboard ≠ some sequence)
      (hnow : next.failedClipboard = some sequence) (hundelivered : next.undelivered = relay.undelivered)
      (hpending : next.pendingReports = relay.pendingReports) (hline : next.bulkLine = relay.bulkLine)
  | reported (sequence : UInt64) (noticed : Bool) (htransfer : entry.transfer offer = none)
      (hreply : entry.2 = .undelivered sequence noticed)
      (hnoticed : noticed = true ↔ relay.failedClipboard ≠ some sequence) (hnow : next.failedClipboard = some sequence)
      (hundelivered : next.undelivered = relay.undelivered)
      (hpending : relay.pendingReports = sequence :: next.pendingReports) (hline : next.bulkLine = relay.bulkLine)
  | fails (sequence : UInt64) (htransfer : entry.transfer offer = none) (hreply : entry.2 = .idle)
      (hother : relay.undelivered ≠ some sequence) (hundelivered : next.undelivered = some sequence)
      (hsame : next.failedClipboard = relay.failedClipboard)
      (hpending : next.pendingReports = relay.pendingReports ++ [sequence])
      (hline : relay.bulkLine = sequence :: next.bulkLine)
  | other (htransfer : entry.transfer offer = none) (hreported : entry.reported = none)
      (hsame : next.failedClipboard = relay.failedClipboard) (hundelivered : next.undelivered = relay.undelivered)
      (hpending : next.pendingReports = relay.pendingReports) (hline : next.bulkLine.Sublist relay.bulkLine)

variable {relay} {next : LaneRelay} {offer : String → Option UInt64} {entry : RelayEntry}

/-- A step that leaves the bulk lane alone. -/
theorem clipboardStep_other (hx : entry.transfer offer = none) (hrepo : entry.reported = none)
    (hf : next.failedClipboard = relay.failedClipboard) (hu : next.undelivered = relay.undelivered)
    (hp : next.pendingReports = relay.pendingReports) (hbulk : next.bulk = relay.bulk)
    (hwr : next.bulkWriter = relay.bulkWriter) : ClipboardStep offer relay next entry := by
  refine .other hx hrepo hf hu hp ?_
  rw [bulkLine, bulkLine, hbulk, hwr]

/-- An event of another kind changes no report on a transfer. -/
theorem pendingReports_events (relay : LaneRelay) {events : List TaskEvent} (heven : events = relay.events ∨
      ∃ event, events = relay.events ++ [event] ∧ ∀ s, event ≠ .clipboardUndelivered s) :
    { relay with events }.pendingReports = relay.pendingReports := by
  rcases heven with rfl | ⟨event, rfl, hev⟩
  · rfl
  · cases event with
    | clipboardUndelivered s => exact absurd rfl (hev s)
    | _ => simp [pendingReports]

theorem clipboardStep_routeBulk (relay : LaneRelay) (record : SessionRecord) :
    ClipboardStep offer relay (relay.routeBulk offer record).1 (.routeBulk record, (relay.routeBulk offer record).2) := by
  unfold routeBulk
  cases hc : clipboardTransferSequence offer record with
  | none =>
    split
    · refine .other hc rfl rfl rfl rfl ?_
      simp [bulkLine]
    · exact clipboardStep_other hc rfl rfl rfl rfl rfl rfl
  | some seq =>
    by_cases hf : relay.failedClipboard = some seq
    · rw [if_pos ⟨rfl, hf.symm⟩]
      exact .abandoned seq hc rfl hf rfl
    · rw [if_neg fun h => hf h.2.symm]
      split
      · refine .queued seq hc rfl hf rfl rfl rfl ?_
        simp [bulkLine]
      · simp only [clipboardFailed, if_neg hf]
        exact .refused seq hc rfl hf rfl rfl rfl rfl

theorem clipboardStep_nextEvent (relay : LaneRelay) :
    ClipboardStep offer relay relay.nextEvent.1 (.nextEvent, relay.nextEvent.2) := by
  unfold nextEvent
  split
  · exact clipboardStep_other rfl rfl rfl rfl rfl rfl rfl
  · rename_i event events _ heven
    cases event with
    | relay =>
      refine clipboardStep_other rfl rfl rfl rfl ?_ rfl rfl
      simp [apply, pendingReports, heven]
    | videoReopened =>
      refine clipboardStep_other rfl rfl rfl rfl ?_ rfl rfl
      simp [apply, oweKeyframeRequest, pendingReports, heven]
    | clipboardUndelivered seq =>
      have hp : relay.pendingReports = seq :: { relay with events }.pendingReports := by
        simp [pendingReports, heven]
      by_cases hf : relay.failedClipboard = some seq
      · simp only [apply, clipboardFailed, if_pos hf]
        exact .reported seq false rfl rfl (by simp [hf]) hf rfl hp rfl
      · simp only [apply, clipboardFailed, if_neg hf]
        exact .reported seq true rfl rfl (by simp [hf]) rfl rfl hp rfl
  · exact clipboardStep_other rfl rfl rfl rfl rfl rfl rfl

theorem filterMap_clipboard_cons (record : BulkRecord) (bulk : List BulkRecord) :
    (record :: bulk).filterMap BulkRecord.clipboard = record.clipboard.toList ++ bulk.filterMap BulkRecord.clipboard := by
  cases hc : record.clipboard <;> simp [hc]

theorem clipboardStep_bulkTurn (h : relay.SendsOther) (turn : BulkTurn) :
    ClipboardStep offer relay (relay.bulkTurn turn).1 (.bulkWriter turn, (relay.bulkTurn turn).2) := by
  unfold bulkTurn
  split
  · rename_i hwr
    split
    · exact clipboardStep_other rfl rfl rfl rfl rfl rfl rfl
    · rename_i record bulk hbulk
      split
      · refine .other rfl rfl rfl rfl rfl ?_
        simp [bulkLine, hbulk, filterMap_clipboard_cons]
      · refine .other rfl rfl rfl rfl (by simp [pendingReports, hwr]) ?_
        simp [bulkLine, hbulk, filterMap_clipboard_cons]
  · rename_i record hwr
    refine .other rfl rfl rfl rfl (by simp [pendingReports, hwr]) ?_
    simp [bulkLine]
  · rename_i record hwr
    split
    · rename_i hc
      refine .other rfl rfl rfl rfl (by simp [pendingReports, hwr]) ?_
      simp [bulkLine]
    · rename_i sequence hc
      refine .fails sequence rfl rfl (h record sequence hwr hc) rfl rfl ?_ ?_
      · simp [pendingReports, hwr]
      · simp [bulkLine, hwr, hc]
  · rename_i sequence hwr
    unfold report
    split
    · refine .other rfl rfl rfl rfl ?_ ?_
      · simp [pendingReports, hwr]
      · simp [bulkLine]
    · exact clipboardStep_other rfl rfl rfl rfl rfl rfl rfl
  · exact clipboardStep_other rfl rfl rfl rfl rfl rfl rfl

theorem clipboardStep_step (offer : String → Option UInt64) (h : relay.SendsOther) (call : RelayStep) :
    ClipboardStep offer relay (relay.step offer call).1 (call, (relay.step offer call).2) := by
  cases call with
  | wait => exact clipboardStep_other rfl rfl rfl rfl rfl rfl rfl
  | routeVideo frame =>
    obtain ⟨_, _, _, _, _, hrt⟩ := relay.routeVideo_eq frame
    rw [step, hrt]
    exact clipboardStep_other rfl rfl rfl rfl rfl rfl rfl
  | routeBulk record => exact clipboardStep_routeBulk relay record
  | nextEvent => exact clipboardStep_nextEvent relay
  | videoWriter turn =>
    obtain ⟨_, _, _, _, _, hturn, heven, hr⟩ := relay.videoTurn_eq turn
    rw [step, hturn]
    have hp := relay.pendingReports_events heven
    rcases hr with rfl | ⟨lane, rfl⟩ | ⟨lane, frame, rfl⟩ <;>
      exact clipboardStep_other rfl rfl rfl rfl hp rfl rfl
  | bulkWriter turn => exact clipboardStep_bulkTurn h turn
  | report =>
    obtain ⟨_, hrepor, heven⟩ := relay.report_other_eq
    rw [step, hrepor]
    refine clipboardStep_other rfl rfl rfl rfl (relay.pendingReports_events ?_) rfl rfl
    exact heven.imp_right fun ho => ⟨.relay .other, ho, by simp⟩

theorem SendsOther.bulkTurn (h : relay.SendsOther) (turn : BulkTurn) : (relay.bulkTurn turn).1.SendsOther := by
  unfold LaneRelay.bulkTurn
  split
  · rename_i hwr
    split
    · exact h
    · split
      · intro record seq hsend
        rw [show relay.bulkWriter = .receiving from hwr] at hsend
        cases hsend
      · rename_i hnot
        rintro _ _ ⟨⟩ hc hu
        exact hnot ⟨by rw [hc]; rfl, hc.trans hu.symm⟩
  · exact nofun
  · split
    · exact nofun
    · exact nofun
  · unfold report
    split
    · exact nofun
    · exact h
  · exact h

/-- What is being sent stays of another transfer. -/
theorem SendsOther.step (h : relay.SendsOther) (offer : String → Option UInt64) (call : RelayStep) :
    (relay.step offer call).1.SendsOther := by
  cases call with
  | wait => exact h
  | routeVideo frame =>
    obtain ⟨_, _, _, _, _, hrt⟩ := relay.routeVideo_eq frame
    rw [LaneRelay.step, hrt]
    exact h
  | routeBulk record =>
    obtain ⟨_, _, _, _, _, hrt⟩ := routeBulk_eq offer relay record
    rw [LaneRelay.step, hrt]
    exact h
  | nextEvent =>
    obtain ⟨_, _, _, _, _, hev, -, -⟩ := relay.nextEvent_eq
    rw [LaneRelay.step, hev]
    exact h
  | videoWriter turn =>
    obtain ⟨_, _, _, _, _, hturn, -, -⟩ := relay.videoTurn_eq turn
    rw [LaneRelay.step, hturn]
    exact h
  | bulkWriter turn => exact h.bulkTurn turn
  | report =>
    obtain ⟨_, hrepor, -⟩ := relay.report_other_eq
    rw [LaneRelay.step, hrepor]
    exact h

/-! ### Reports over a run -/

variable {log : List RelayEntry}

/-- What a log says about the writer's reports. -/
structure Reported (offer : String → Option UInt64) (log : List RelayEntry) (relay : LaneRelay) : Prop where
  line : (appliedReports log ++ relay.pendingReports ++ relay.bulkLine).Sublist (routedTransfers offer log)
  chain : (appliedReports log ++ relay.pendingReports).IsChain (· ≠ ·)
  last : (appliedReports log ++ relay.pendingReports).getLast? = relay.undelivered

theorem reported_new : Reported offer [] .new := ⟨.slnil, .nil, rfl⟩

theorem Reported.nodup (h : Reported offer log relay) (hcont : Contiguous (routedTransfers offer log)) :
    (appliedReports log ++ relay.pendingReports).Nodup :=
  (hcont.sublist ((sublist_append_left _ _).trans h.line)).nodup h.chain

theorem routedTransfers_concat (offer : String → Option UInt64) (log : List RelayEntry) (entry : RelayEntry) :
    routedTransfers offer (log ++ [entry]) = routedTransfers offer log ++ (entry.transfer offer).toList :=
  filterMap_concat _ log entry

theorem appliedReports_concat (log : List RelayEntry) (entry : RelayEntry) :
    appliedReports (log ++ [entry]) = appliedReports log ++ entry.reported.toList := filterMap_concat _ log entry

theorem Reported.keeps (h : Reported offer log relay) (hrepo : entry.reported = none)
    (hu : next.undelivered = relay.undelivered) (hp : next.pendingReports = relay.pendingReports)
    (hl : next.bulkLine.Sublist (relay.bulkLine ++ (entry.transfer offer).toList)) :
    Reported offer (log ++ [entry]) next := by
  have hrep : appliedReports (log ++ [entry]) = appliedReports log := by
    rw [appliedReports_concat, hrepo, Option.toList_none, append_nil]
  refine ⟨?_, ?_, ?_⟩
  · rw [hrep, hp, routedTransfers_concat]
    refine ((List.Sublist.refl _).append hl).trans ?_
    rw [← append_assoc]
    exact h.line.append (.refl _)
  · rw [hrep, hp]
    exact h.chain
  · rw [hrep, hp, hu]
    exact h.last

theorem Reported.step (h : Reported offer log relay) (hs : ClipboardStep offer relay next entry) :
    Reported offer (log ++ [entry]) next := by
  cases hs with
  | abandoned _ _ hr _ hnext =>
    refine h.keeps (by rw [RelayEntry.reported, hr]) (by rw [hnext]) (by rw [hnext]) ?_
    rw [hnext]
    exact sublist_append_left _ _
  | queued _ hx hr _ _ hu hp hl =>
    refine h.keeps (by rw [RelayEntry.reported, hr]) hu hp ?_
    rw [hl, hx, Option.toList_some]
  | refused _ _ hr _ _ hu hp hl =>
    refine h.keeps (by rw [RelayEntry.reported, hr]) hu hp ?_
    rw [hl]
    exact sublist_append_left _ _
  | reported seq noticed hx hr hnotd hnow hu hp hl =>
    have hrep : appliedReports (log ++ [entry]) ++ next.pendingReports =
        appliedReports log ++ relay.pendingReports := by
      rw [appliedReports_concat, RelayEntry.reported, hr, hp, append_assoc]
      rfl
    have hrt : routedTransfers offer (log ++ [entry]) = routedTransfers offer log := by
      rw [routedTransfers_concat, hx, Option.toList_none, append_nil]
    refine ⟨?_, ?_, ?_⟩
    · rw [hrep, hrt, hl]
      exact h.line
    · rw [hrep]
      exact h.chain
    · rw [hrep, hu]
      exact h.last
  | fails seq hx hr ho hu hsame hp hl =>
    have hrep : appliedReports (log ++ [entry]) ++ next.pendingReports =
        (appliedReports log ++ relay.pendingReports) ++ [seq] := by
      rw [appliedReports_concat, RelayEntry.reported, hr, hp, Option.toList_none, append_nil, append_assoc]
    have hrt : routedTransfers offer (log ++ [entry]) = routedTransfers offer log := by
      rw [routedTransfers_concat, hx, Option.toList_none, append_nil]
    refine ⟨?_, ?_, ?_⟩
    · rw [hrep, hrt, append_assoc, singleton_append, ← hl]
      exact h.line
    · rw [hrep]
      refine isChain_append.mpr ⟨h.chain, .singleton _, ?_⟩
      rw [h.last]
      rintro _ hlast _ ⟨⟩ rfl
      exact ho hlast
    · rw [hrep, hu, getLast?_append]
      rfl
  | other _ hrepo _ hu hp hl =>
    exact h.keeps hrepo hu hp (hl.trans (sublist_append_left _ _))

/-! ### Notices over a run -/

open RelayEntry

/-- The router has forgotten that the transfer failed, because another one failed later. -/
def Forgotten (offer : String → Option UInt64) (sequence : UInt64) (log : List RelayEntry) : Prop :=
  ∃ first second other, [first, second].Sublist log ∧ first.RefusesTransfer offer sequence ∧ other ≠ sequence ∧
    second.FailsTransfer offer other

/-- A report on the transfer was applied, and a record of another one was routed after its own. -/
def Passed (offer : String → Option UInt64) (sequence : UInt64) (log : List RelayEntry) : Prop :=
  sequence ∈ appliedReports log ∧ ∃ other ≠ sequence, [sequence, other].Sublist (routedTransfers offer log)

/-- What a log says about the transfer that the router remembers. -/
structure Remembers (offer : String → Option UInt64) (log : List RelayEntry) (relay : LaneRelay) : Prop where
  noticed : ∀ sequence, (∃ entry ∈ log, entry.Notices offer sequence) →
    relay.failedClipboard = some sequence ∨ Forgotten offer sequence log ∨ Passed offer sequence log
  failed : ∀ sequence, relay.failedClipboard = some sequence →
    (∃ entry ∈ log, entry.RefusesTransfer offer sequence) ∨ sequence ∈ appliedReports log

theorem remembers_new : Remembers offer [] .new := ⟨by simp, nofun⟩

variable {sequence : UInt64}

theorem Forgotten.concat (h : Forgotten offer sequence log) (entry : RelayEntry) :
    Forgotten offer sequence (log ++ [entry]) := by
  obtain ⟨first, second, other, hsub, hrest⟩ := h
  exact ⟨first, second, other, hsub.trans (sublist_append_left _ _), hrest⟩

theorem Passed.concat (h : Passed offer sequence log) (entry : RelayEntry) :
    Passed offer sequence (log ++ [entry]) := by
  obtain ⟨hmem, other, ho, hsub⟩ := h
  rw [Passed, appliedReports_concat, routedTransfers_concat]
  exact ⟨mem_append_left _ hmem, other, ho, hsub.trans (sublist_append_left _ _)⟩

section

variable (h : Remembers offer log relay)
include h

/-- The router remembers what it did before, and nothing is noticed. -/
theorem Remembers.keeps (hsame : next.failedClipboard = relay.failedClipboard)
    (hn : ∀ seq, ¬entry.Notices offer seq) : Remembers offer (log ++ [entry]) next := by
  constructor
  · intro seq hnotd
    rw [exists_mem_concat, or_iff_left (hn seq)] at hnotd
    rw [hsame]
    exact (h.noticed seq hnotd).imp_right (.imp (.concat · entry) (.concat · entry))
  · intro seq hf
    rw [exists_mem_concat, appliedReports_concat]
    exact (h.failed seq (hsame ▸ hf)).imp .inl (mem_append_left _)

theorem Remembers.fails (hpre : Reported offer log relay)
    (haft : Reported offer (log ++ [entry]) next) (hfls : entry.FailsTransfer offer sequence)
    (hnow : next.failedClipboard = some sequence) (hn : ∀ other, entry.Notices offer other → other = sequence) :
    Remembers offer (log ++ [entry]) next := by
  constructor
  · intro other hnotd
    by_cases ho : other = sequence
    · exact .inl (ho ▸ hnow)
    · rw [exists_mem_concat, or_iff_left (mt (hn other) ho)] at hnotd
      refine .inr ?_
      rcases h.noticed other hnotd with hf | hforg | hpas
      · rcases h.failed other hf with ⟨first, hmem, hrefu⟩ | hmem
        · have hsub : [first, entry].Sublist (log ++ [entry]) := (singleton_sublist.mpr hmem).append (.refl [entry])
          exact .inl ⟨first, entry, sequence, hsub, hrefu, Ne.symm ho, hfls⟩
        · refine .inr ⟨?_, sequence, Ne.symm ho, ?_⟩
          · rw [appliedReports_concat]
            exact mem_append_left _ hmem
          · rcases hfls with ⟨hx, -⟩ | hrepo
            · have hrt : other ∈ routedTransfers offer log :=
                hpre.line.mem (mem_append_left _ (mem_append_left _ hmem))
              rw [routedTransfers_concat, hx]
              exact (singleton_sublist.mpr hrt).append (.refl [sequence])
            · have happl : [other, sequence].Sublist (appliedReports (log ++ [entry])) := by
                rw [appliedReports_concat, hrepo]
                exact (singleton_sublist.mpr hmem).append (.refl [sequence])
              exact happl.trans ((sublist_append_left _ _).trans ((sublist_append_left _ _).trans haft.line))
      · exact .inl (hforg.concat entry)
      · exact .inr (hpas.concat entry)
  · intro other hf
    rw [hnow] at hf
    cases hf
    rw [exists_mem_concat, appliedReports_concat]
    rcases hfls with hrefu | hrepo
    · exact .inl (.inr hrefu)
    · rw [hrepo]
      exact .inr (mem_append_right _ (mem_singleton_self _))

theorem Remembers.step (hpre : Reported offer log relay)
    (hs : ClipboardStep offer relay next entry) : Remembers offer (log ++ [entry]) next := by
  have haft := hpre.step hs
  cases hs with
  | abandoned _ _ hr _ hnext =>
    refine h.keeps (by rw [hnext]) fun other hn => ?_
    simp [Notices, hr] at hn
  | queued _ _ hr _ hsame
  | fails _ _ hr _ _ hsame =>
    refine h.keeps hsame fun other hn => ?_
    simp [Notices, hr] at hn
  | refused _ hx hr _ hnow =>
    refine h.fails hpre haft (.inl ⟨hx, true, hr⟩) hnow fun other hn => ?_
    simp [Notices, hr, hx] at hn
    exact hn.symm
  | reported _ _ hx hr _ hnow =>
    refine h.fails hpre haft (.inr (by rw [RelayEntry.reported, hr])) hnow fun other hn => ?_
    simp [Notices, hr] at hn
    exact hn.1.symm
  | other hx hrepo hsame =>
    refine h.keeps hsame fun other hn => ?_
    rcases hn with ⟨hsome, -⟩ | hr
    · rw [hx] at hsome
      cases hsome
    · rw [RelayEntry.reported, hr] at hrepo
      cases hrepo

end

/-- A transfer is not abandoned and then taken up again. -/
def StaysAbandoned (offer : String → Option UInt64) (before : List RelayEntry) (entry : RelayEntry) : Prop :=
  ∀ sequence, entry.Notices offer sequence ∨ entry.AcceptsTransfer offer sequence →
    ∀ earlier ∈ before, ¬earlier.Notices offer sequence

/-- A notice is queued, or a record accepted, for a transfer that the router does not remember. -/
theorem ClipboardStep.takes_up_iff (hs : ClipboardStep offer relay next entry) (sequence : UInt64) :
    entry.Notices offer sequence ∨ entry.AcceptsTransfer offer sequence ↔
      entry.Concerns offer sequence ∧ relay.failedClipboard ≠ some sequence := by
  cases hs with
  | abandoned _ hx hr hf =>
    simp [Notices, AcceptsTransfer, Concerns, RelayEntry.reported, hr, hx, hf]
  | queued _ hx hr hf =>
    simp only [Notices, AcceptsTransfer, Concerns, RelayEntry.reported, hr, hx, Option.some.injEq]
    constructor
    · rintro ((⟨-, href⟩ | hr) | ⟨rfl, -⟩)
      · cases href
      · cases hr
      · exact ⟨.inl rfl, hf⟩
    · rintro ⟨rfl | hnone, -⟩
      · exact .inr ⟨rfl, false, rfl⟩
      · cases hnone
  | refused _ hx hr hf =>
    simp only [Notices, AcceptsTransfer, Concerns, RelayEntry.reported, hr, hx, Option.some.injEq]
    constructor
    · rintro ((⟨rfl, -⟩ | hr) | ⟨-, _, hqueu⟩)
      · exact ⟨.inl rfl, hf⟩
      · cases hr
      · cases hqueu
    · rintro ⟨rfl | hnone, -⟩
      · exact .inl (.inl ⟨rfl, trivial⟩)
      · cases hnone
  | reported reported _ hx hr hnotd =>
    simp only [Notices, AcceptsTransfer, Concerns, RelayEntry.reported, hr, hx, Option.some.injEq]
    constructor
    · rintro ((⟨hnone, -⟩ | hr) | ⟨hnone, -⟩)
      · cases hnone
      · cases hr
        exact ⟨.inr rfl, hnotd.mp rfl⟩
      · cases hnone
    · rintro ⟨hnone | rfl, hf⟩
      · cases hnone
      · exact .inl (.inr (by rw [hnotd.mpr hf]))
  | fails _ hx hr =>
    simp [Notices, AcceptsTransfer, Concerns, RelayEntry.reported, hr, hx]
  | other hx hrepo =>
    have hr : entry.2 ≠ .undelivered sequence true := by
      intro hr
      rw [RelayEntry.reported, hr] at hrepo
      cases hrepo
    simp [Notices, AcceptsTransfer, Concerns, hx, hrepo, hr]

/-- A transfer is taken up again only after another one made the router forget it. -/
theorem Remembers.forgotten (h : Remembers offer log relay) (hpre : Reported offer log relay)
    (hs : ClipboardStep offer relay next entry) (hcont : Contiguous (routedTransfers offer (log ++ [entry])))
    (hent : entry.Notices offer sequence ∨ entry.AcceptsTransfer offer sequence)
    (hnotd : ∃ earlier ∈ log, earlier.Notices offer sequence) :
    Forgotten offer sequence log ∧ entry.Concerns offer sequence := by
  obtain ⟨hconc, hf⟩ := (hs.takes_up_iff sequence).mp hent
  refine ⟨?_, hconc⟩
  rcases (h.noticed sequence hnotd).resolve_left hf with hforg | ⟨hmem, other, ho, hsub⟩
  · exact hforg
  · rcases hconc with hx | hrepo
    · -- a record of the transfer after one of another
      refine absurd ?_ (hcont sequence other (Ne.symm ho))
      rw [routedTransfers_concat, hx]
      exact hsub.append (.refl [sequence])
    · -- a second report on the transfer
      have hnd := ((hpre.step hs).nodup hcont).sublist (sublist_append_left _ _)
      rw [appliedReports_concat, hrepo] at hnd
      exact (disjoint_of_nodup_append hnd hmem (mem_singleton_self _)).elim

/-- The router remembers the transfer that failed last. -/
theorem ClipboardStep.failed_next (hs : ClipboardStep offer relay next entry) :
    (∃ seq, entry.FailsTransfer offer seq ∧ next.failedClipboard = some seq) ∨
      (∀ seq, ¬entry.FailsTransfer offer seq) ∧ next.failedClipboard = relay.failedClipboard := by
  cases hs with
  | abandoned _ _ hr _ hnext =>
    exact .inr ⟨by simp [FailsTransfer, RefusesTransfer, RelayEntry.reported, hr], by rw [hnext]⟩
  | queued _ _ hr _ hsame
  | fails _ _ hr _ _ hsame =>
    exact .inr ⟨by simp [FailsTransfer, RefusesTransfer, RelayEntry.reported, hr], hsame⟩
  | refused seq hx hr _ hnow =>
    exact .inl ⟨seq, .inl ⟨hx, true, hr⟩, hnow⟩
  | reported seq _ _ hr _ hnow =>
    exact .inl ⟨seq, .inr (by rw [RelayEntry.reported, hr]), hnow⟩
  | other hx hrepo hsame =>
    exact .inr ⟨by simp [FailsTransfer, RefusesTransfer, hx, hrepo], hsame⟩

theorem FailsTransfer.unique (hfst : entry.FailsTransfer offer first)
    (hsnd : entry.FailsTransfer offer second) : first = second := by
  rcases hfst with ⟨hfst, _, hr⟩ | hfst <;> rcases hsnd with ⟨hsnd, _, hr'⟩ | hsnd
  · exact Option.some.inj (hfst.symm.trans hsnd)
  · simp [RelayEntry.reported, hr] at hsnd
  · simp [RelayEntry.reported, hr'] at hfst
  · exact Option.some.inj (hfst.symm.trans hsnd)

/-- While no transfer was taken up again, the router does not remember one that it was made to forget. -/
structure Lapsed (offer : String → Option UInt64) (log : List RelayEntry) (relay : LaneRelay) : Prop where
  refused : ∀ entry ∈ log, ∀ sequence, entry.RefusesTransfer offer sequence → entry.Notices offer sequence
  forgotten : Throughout (StaysAbandoned offer) log → ∀ sequence, Forgotten offer sequence log →
    relay.failedClipboard ≠ some sequence

theorem lapsed_new : Lapsed offer [] .new := ⟨nofun, fun _ _ _ => nofun⟩

theorem Forgotten.noticed (h : Forgotten offer sequence log) (hlaps : Lapsed offer log relay) :
    ∃ earlier ∈ log, earlier.Notices offer sequence := by
  obtain ⟨first, _, _, hsub, hrefu, -⟩ := h
  have hmem : first ∈ log := hsub.mem mem_cons_self
  exact ⟨first, hmem, hlaps.refused first hmem sequence hrefu⟩

/-- A transfer is forgotten now if another one fails now. -/
theorem Forgotten.of_concat (h : Forgotten offer seq (log ++ [entry])) :
    Forgotten offer seq log ∨ ∃ other ≠ seq, entry.FailsTransfer offer other := by
  obtain ⟨first, second, other, hsub, hrefu, ho, hfls⟩ := h
  obtain ⟨_, back, hsplit, hfrt, hback⟩ := sublist_append_iff.mp hsub
  cases back with
  | nil =>
    rw [append_nil] at hsplit
    exact .inl ⟨first, second, other, hsplit ▸ hfrt, hrefu, ho, hfls⟩
  | cons last back =>
    have hlast : last :: back = [entry] := hback.eq_of_length_le (by simp)
    rw [hlast] at hsplit
    obtain rfl : second = entry := by
      have hends := congrArg getLast? hsplit
      simpa using hends
    exact .inr ⟨other, ho, hfls⟩

theorem Lapsed.step (h : Lapsed offer log relay) (hs : ClipboardStep offer relay next entry) :
    Lapsed offer (log ++ [entry]) next := by
  constructor
  · rw [forall_mem_append, forall_mem_singleton]
    refine ⟨h.refused, ?_⟩
    rintro sequence ⟨hx, noticed, hr⟩
    refine .inl ⟨hx, ?_⟩
    cases hs with
    | refused _ _ href => exact href
    | other hnone | fails _ hnone | reported _ _ hnone => simp [hx] at hnone
    | abandoned _ _ ho | queued _ _ ho => simp [hr] at ho
  · intro hstays sequence hforg
    obtain ⟨hpre, hent⟩ := hstays.of_concat
    rcases hforg.of_concat with hold | ⟨other, ho, hfls⟩
    · have hf := h.forgotten hpre sequence hold
      rcases hs.failed_next with ⟨now, hnow, hnext⟩ | ⟨-, hsame⟩
      · -- the router would have taken the transfer up again
        rw [hnext]
        rintro ⟨⟩
        have hconc : entry.Concerns offer sequence := hnow.imp_left And.left
        obtain ⟨earlier, hmem, hn⟩ := hold.noticed h
        exact hent sequence ((hs.takes_up_iff sequence).mpr ⟨hconc, hf⟩) earlier hmem hn
      · rwa [hsame]
    · rcases hs.failed_next with ⟨now, hnow, hnext⟩ | ⟨hnot, -⟩
      · rw [hnext, FailsTransfer.unique hnow hfls]
        exact fun hsome => ho (Option.some.inj hsome)
      · exact absurd hfls (hnot other)

/-- Everything that a log says about clipboard transfers. -/
structure Follows (offer : String → Option UInt64) (log : List RelayEntry) (relay : LaneRelay) : Prop where
  sends : relay.SendsOther
  reported : Reported offer log relay
  remembers : Remembers offer log relay
  lapsed : Lapsed offer log relay

theorem follows_run (offer : String → Option UInt64) (steps : List RelayStep) :
    Follows offer ((laneRelay offer).log steps) ((laneRelay offer).exec steps) := by
  refine (laneRelay offer).log_invariant ⟨nofun, reported_new, remembers_new, lapsed_new⟩ ?_ steps
  intro log relay call h
  have hs := clipboardStep_step offer h.sends call
  exact ⟨h.sends.step offer call, h.reported.step hs, h.remembers.step h.reported hs, h.lapsed.step hs⟩

/-- Where a log splits, the state there follows what came before, and the entry is a step from it. -/
theorem follows_split {before after : List RelayEntry}
    (hsplit : (laneRelay offer).log steps = before ++ entry :: after) :
    ∃ relay next, Follows offer before relay ∧ ClipboardStep offer relay next entry := by
  obtain ⟨-, hpre, hent⟩ := (laneRelay offer).log_split hsplit
  have hfol := follows_run offer (before.map Prod.fst)
  rw [hpre] at hfol
  obtain ⟨call, _⟩ := entry
  dsimp only at hent
  subst hent
  exact ⟨_, _, hfol, clipboardStep_step offer hfol.sends call⟩

end LaneRelay

def clipboardRecord (sequence : UInt64) : SessionRecord :=
  .binary (ClipboardChunkHeader.layout ⟨.textUtf8, sequence, 2, 0⟩ [65])

/-- The writer fails to deliver a record of transfer 1 and reports it; the backlog fills up and refuses the next record of
transfer 1 and one of transfer 2; and the caller takes both notices. -/
def reportedLate : List RelayStep :=
  [.routeBulk (clipboardRecord 1), .bulkWriter .receive, .bulkWriter .failed, .bulkWriter .report] ++
    replicate 64 (.routeBulk (.ping [])) ++
    [.routeBulk (clipboardRecord 1), .routeBulk (clipboardRecord 2), .nextEvent, .nextEvent]

end Arcen
