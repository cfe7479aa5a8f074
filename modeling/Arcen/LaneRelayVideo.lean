import Arcen.History
import Arcen.LaneRelay

/-! The prediction chains on the video backlog of a relay. A frame that is not a keyframe follows, on the backlog, the frame
of its monitor that was routed just before it; keyframe requests for dropped and held frames keep their spacing. -/

namespace Arcen

open VideoResync

abbrev RelayEntry := RelayStep × RelayReply

namespace RelayEntry

variable (monitor : UInt16)

def Routes (entry : RelayEntry) : Prop :=
  ∃ frame header, entry.1 = .routeVideo frame ∧ decodeVideoHeader frame = .ok header ∧ header.monitorId = monitor

/-- A frame of the monitor is put on the backlog. -/
def Queues (entry : RelayEntry) : Prop := Routes monitor entry ∧ ∃ requested, entry.2 = .video .queued requested

variable (entry : RelayEntry)

def Refuses : Prop := ∃ requested, entry.2 = .video .refused requested

def HoldsBack : Prop := ∃ requested, entry.2 = .video .held requested

/-- The event of a replaced video lane is applied. -/
def Restarts : Prop := entry.2 = .restarted

/-- Nothing happens to the chain of the monitor. -/
def Quiet (entry : RelayEntry) : Prop := ¬Routes monitor entry ∧ ¬Refuses entry ∧ ¬Restarts entry

/-- A dropped or held frame causes a keyframe request. -/
def RequestsForFrame (entry : RelayEntry) : Prop := ∃ routing, entry.2 = .video routing true

def Requests (entry : RelayEntry) : Prop := RequestsForFrame entry ∨ Restarts entry

/-- If the entry puts a frame on the backlog that is not a keyframe, then the frame is the first routed for its monitor, or
the one routed for its monitor before it was put there too, with nothing refused and no restart in between. -/
def ExtendsChain (before : List RelayEntry) (entry : RelayEntry) : Prop :=
  ∀ frame header, decodeVideoHeader frame = .ok header → header.isKeyframe = false →
    (∃ requested, entry = (.routeVideo frame, .video .queued requested)) →
    (∀ earlier ∈ before, ¬Routes header.monitorId earlier) ∨
      Since (Queues header.monitorId) (Quiet header.monitorId) before

def waited (entry : RelayEntry) : Duration :=
  match entry.1 with
  | .wait elapsed => elapsed
  | _ => 0

end RelayEntry

variable (log : List RelayEntry)

def elapsedTime : Duration := (log.map RelayEntry.waited).sum

theorem elapsedTime_concat (entry : RelayEntry) : elapsedTime (log ++ [entry]) = elapsedTime log + entry.waited := by
  simp [elapsedTime]

namespace LaneRelay

open RelayEntry

/-! ### What a step does to the chains -/

/-- A step, as far as the chains and the clock go. -/
inductive ChainStep (now : Nat) (resync : VideoResync) : RelayStep → RelayReply → Nat → VideoResync → Prop where
  | waits (elapsed : Duration) : ChainStep now resync (.wait elapsed) .idle (now + elapsed) resync
  | malformed (frame : List UInt8) (error : VideoHeaderError) (hframe : decodeVideoHeader frame = .error error) :
      ChainStep now resync (.routeVideo frame) (.video .malformed false) now resync
  | held (frame : List UInt8) (header : VideoHeader) (hframe : decodeVideoHeader frame = .ok header)
      (hwaiting : header.monitorId ∈ resync.waiting) (held : VideoResync)
      (hheld : held = { resync with seen := insert header.monitorId resync.seen }) :
      ChainStep now resync (.routeVideo frame) (.video .held (held.requestDue now).2) now (held.requestDue now).1
  | refused (frame : List UInt8) (header : VideoHeader) (hframe : decodeVideoHeader frame = .ok header)
      (broken : VideoResync) (hseen : broken.seen = insert header.monitorId resync.seen)
      (hwaiting : broken.seen ⊆ broken.waiting) (hlast : broken.lastRequest = resync.lastRequest) :
      ChainStep now resync (.routeVideo frame) (.video .refused (broken.requestDue now).2) now (broken.requestDue now).1
  | queued (frame : List UInt8) (header : VideoHeader) (hframe : decodeVideoHeader frame = .ok header)
      (hadmitted : header.isKeyframe = true ∨ header.monitorId ∉ resync.waiting) (next : VideoResync)
      (hseen : next.seen = insert header.monitorId resync.seen)
      (hwaiting : ∀ monitor ≠ header.monitorId, monitor ∈ resync.waiting → monitor ∈ next.waiting)
      (hlast : next.lastRequest = resync.lastRequest) :
      ChainStep now resync (.routeVideo frame) (.video .queued false) now next
  | restarted (call : RelayStep) (hcall : ∀ frame, call ≠ .routeVideo frame) (hwait : ∀ elapsed, call ≠ .wait elapsed) :
      ChainStep now resync call .restarted now (resync.restart now)
  | other (call : RelayStep) (reply : RelayReply) (hcall : ∀ frame, call ≠ .routeVideo frame)
      (hwait : ∀ elapsed, call ≠ .wait elapsed) (hvideo : ∀ routing requested, reply ≠ .video routing requested)
      (hrestart : reply ≠ .restarted) : ChainStep now resync call reply now resync

variable {relay : LaneRelay}

theorem settleResync_eq (relay : LaneRelay) (result : VideoResync × Bool) (routing : VideoRouting) :
    ∃ owed, relay.settleResync result routing = ({ relay with resync := result.1, owed }, .video routing result.2) := by
  unfold settleResync
  split
  · exact ⟨_, rfl⟩
  · exact ⟨_, rfl⟩

theorem clipboardFailed_eq (relay : LaneRelay) (seq : UInt64) (reason : ClipboardTransferFailure) :
    ∃ failedClipboard owed noticed,
      relay.clipboardFailed seq reason = ({ relay with failedClipboard, owed }, noticed) := by
  unfold clipboardFailed
  split
  · exact ⟨_, _, _, rfl⟩
  · exact ⟨_, _, _, rfl⟩

theorem routeBulk_eq (offer : String → Option UInt64) (relay : LaneRelay) (record : SessionRecord) :
    ∃ bulk failedClipboard owed routing noticed,
      relay.routeBulk offer record = ({ relay with bulk, failedClipboard, owed }, .bulk routing noticed) := by
  unfold routeBulk
  dsimp only
  split
  · exact ⟨_, _, _, _, _, rfl⟩
  · split
    · exact ⟨_, _, _, _, _, rfl⟩
    · split
      · exact ⟨_, _, _, _, _, rfl⟩
      · rename_i seq _
        obtain ⟨failed, owed, noticed, hfail⟩ := relay.clipboardFailed_eq seq .bulkLaneFull
        rw [hfail]
        exact ⟨_, _, _, _, _, rfl⟩

section

variable (relay : LaneRelay)

theorem bulkTurn_eq (turn : BulkTurn) : ∃ bulk bulkWriter undelivered events,
    relay.bulkTurn turn = ({ relay with bulk, bulkWriter, undelivered, events }, .idle) := by
  unfold bulkTurn report
  repeat' split
  all_goals exact ⟨_, _, _, _, rfl⟩

theorem videoTurn_eq (turn : VideoTurn) : ∃ video videoWriter lanes events reply,
    relay.videoTurn turn = ({ relay with video, videoWriter, lanes, events }, reply) ∧
      (events = relay.events ∨ ∃ event, events = relay.events ++ [event] ∧ ∀ s, event ≠ .clipboardUndelivered s) ∧
      (reply = .idle ∨ (∃ lane, reply = .opened lane) ∨ ∃ lane frame, reply = .placed lane frame) := by
  unfold videoTurn report
  split
  · split <;> exact ⟨_, _, _, _, _, rfl, .inl rfl, .inl rfl⟩
  · exact ⟨_, _, _, _, _, rfl, .inl rfl, .inr (.inl ⟨_, rfl⟩)⟩
  · exact ⟨_, _, _, _, _, rfl, .inl rfl, .inr (.inr ⟨_, _, rfl⟩)⟩
  · exact ⟨_, _, _, _, _, rfl, .inl rfl, .inl rfl⟩
  · exact ⟨_, _, _, _, _, rfl, .inl rfl, .inr (.inl ⟨_, rfl⟩)⟩
  · exact ⟨_, _, _, _, _, rfl, .inl rfl, .inl rfl⟩
  · exact ⟨_, _, _, _, _, rfl, .inl rfl, .inl rfl⟩
  · exact ⟨_, _, _, _, _, rfl, .inl rfl, .inl rfl⟩
  · split
    · exact ⟨_, _, _, _, _, rfl, .inr ⟨_, rfl, nofun⟩, .inl rfl⟩
    · exact ⟨_, _, _, _, _, rfl, .inl rfl, .inl rfl⟩
  · split
    · exact ⟨_, _, _, _, _, rfl, .inr ⟨_, rfl, nofun⟩, .inl rfl⟩
    · exact ⟨_, _, _, _, _, rfl, .inl rfl, .inl rfl⟩
  · exact ⟨_, _, _, _, _, rfl, .inl rfl, .inl rfl⟩

theorem routeVideo_eq (frame : List UInt8) : ∃ resync video owed routing requested,
    relay.routeVideo frame = ({ relay with resync, video, owed }, .video routing requested) := by
  have hset : ∀ result routing, ∃ resync video owed routing' requested,
      relay.settleResync result routing = ({ relay with resync, video, owed }, .video routing' requested) := by
    intro result routing
    obtain ⟨owed, hset⟩ := relay.settleResync_eq result routing
    exact ⟨_, _, _, _, _, hset⟩
  unfold routeVideo
  split
  · exact ⟨_, _, _, _, _, rfl⟩
  · split
    · exact hset _ _
    · split
      · exact ⟨_, _, _, _, _, rfl⟩
      · exact hset _ _

theorem apply_undelivered_eq (seq : UInt64) : ∃ failedClipboard owed noticed,
    relay.apply (.clipboardUndelivered seq) = ({ relay with failedClipboard, owed }, .undelivered seq noticed) := by
  obtain ⟨failed, owed, noticed, hfail⟩ := relay.clipboardFailed_eq seq .bulkLaneUnavailable
  refine ⟨failed, owed, noticed, ?_⟩
  simp only [apply, hfail]

theorem nextEvent_eq : ∃ resync failedClipboard owed events reply,
    relay.nextEvent = ({ relay with resync, failedClipboard, owed, events }, reply) ∧
      (∀ lane, reply ≠ .opened lane) ∧ ∀ lane frame, reply ≠ .placed lane frame := by
  unfold nextEvent
  split
  · exact ⟨_, _, _, _, _, rfl, nofun, nofun⟩
  · rename_i event events _ _
    cases event with
    | relay | videoReopened => exact ⟨_, _, _, _, _, rfl, nofun, nofun⟩
    | clipboardUndelivered seq =>
      obtain ⟨_, _, _, happly⟩ := apply_undelivered_eq { relay with events } seq
      exact ⟨_, _, _, _, _, happly, nofun, nofun⟩
  · exact ⟨_, _, _, _, _, rfl, nofun, nofun⟩

theorem report_other_eq : ∃ events, relay.report (.relay .other) id = { relay with events } ∧
    (events = relay.events ∨ events = relay.events ++ [.relay .other]) := by
  unfold report
  split
  · exact ⟨_, rfl, .inr rfl⟩
  · exact ⟨_, rfl, .inl rfl⟩

theorem chainStep_routeVideo (frame : List UInt8) :
    ChainStep relay.now relay.resync (.routeVideo frame) (relay.routeVideo frame).2 (relay.routeVideo frame).1.now
      (relay.routeVideo frame).1.resync := by
  unfold routeVideo
  cases hfr : decodeVideoHeader frame with
  | error error => exact .malformed frame error hfr
  | ok header =>
    unfold admits
    dsimp only
    cases hkf : header.isKeyframe with
    | true =>
      simp only [if_true]
      split
      · refine .queued frame header hfr (.inl hkf) _ rfl (fun mon hne hmem => ?_) rfl
        exact Finset.mem_erase.mpr ⟨hne, hmem⟩
      · obtain ⟨owed, hset⟩ := relay.settleResync_eq (broke _ header.monitorId relay.now) .refused
        rw [hset]
        refine .refused frame header hfr _ ?_ Finset.subset_union_right rfl
        exact Finset.insert_idem _ _
    | false =>
      by_cases hw : header.monitorId ∈ relay.resync.waiting
      · simp only [Bool.false_eq_true, if_false, hw, not_true_eq_false, decide_false]
        obtain ⟨owed, hset⟩ := relay.settleResync_eq (requestDue _ relay.now) .held
        rw [hset]
        exact .held frame header hfr hw _ rfl
      · simp only [Bool.false_eq_true, if_false, hw, not_false_eq_true, decide_true]
        split
        · exact .queued frame header hfr (.inr hw) _ rfl (fun _ _ hmem => hmem) rfl
        · obtain ⟨owed, hset⟩ := relay.settleResync_eq (broke _ header.monitorId relay.now) .refused
          rw [hset]
          refine .refused frame header hfr _ ?_ Finset.subset_union_right rfl
          exact Finset.insert_idem _ _

end

theorem chainStep_other {next : LaneRelay} (hn : next.now = relay.now) (hresy : next.resync = relay.resync)
    (hc : ∀ frame, call ≠ .routeVideo frame) (hwait : ∀ elapsed, call ≠ .wait elapsed)
    (hv : ∀ routing requested, reply ≠ .video routing requested) (hrest : reply ≠ .restarted) :
    ChainStep relay.now relay.resync call reply next.now next.resync := by
  rw [hn, hresy]
  exact .other call reply hc hwait hv hrest

theorem chainStep_apply (relay : LaneRelay) (event : TaskEvent) :
    ChainStep relay.now relay.resync .nextEvent (relay.apply event).2 (relay.apply event).1.now
      (relay.apply event).1.resync := by
  cases event with
  | relay => exact chainStep_other rfl rfl nofun nofun nofun nofun
  | videoReopened => exact .restarted _ nofun nofun
  | clipboardUndelivered seq =>
    obtain ⟨_, _, _, happly⟩ := relay.apply_undelivered_eq seq
    rw [happly]
    exact chainStep_other rfl rfl nofun nofun nofun nofun

theorem chainStep_step (offer : String → Option UInt64) (relay : LaneRelay) (call : RelayStep) :
    ChainStep relay.now relay.resync call (relay.step offer call).2 (relay.step offer call).1.now
      (relay.step offer call).1.resync := by
  cases call with
  | wait elapsed => exact .waits elapsed
  | routeVideo frame => exact chainStep_routeVideo relay frame
  | routeBulk record =>
    obtain ⟨_, _, _, _, _, hrt⟩ := routeBulk_eq offer relay record
    rw [step, hrt]
    exact chainStep_other rfl rfl nofun nofun nofun nofun
  | nextEvent =>
    change ChainStep relay.now relay.resync .nextEvent relay.nextEvent.2 relay.nextEvent.1.now relay.nextEvent.1.resync
    unfold nextEvent
    split
    · exact chainStep_other rfl rfl nofun nofun nofun nofun
    · rename_i event events _ _
      exact chainStep_apply { relay with events } event
    · exact chainStep_other rfl rfl nofun nofun nofun nofun
  | videoWriter turn =>
    obtain ⟨_, _, _, _, reply, hturn, -, hr⟩ := relay.videoTurn_eq turn
    rw [step, hturn]
    rcases hr with rfl | ⟨lane, rfl⟩ | ⟨lane, frame, rfl⟩ <;> exact chainStep_other rfl rfl nofun nofun nofun nofun
  | bulkWriter turn =>
    obtain ⟨_, _, _, _, hturn⟩ := relay.bulkTurn_eq turn
    rw [step, hturn]
    exact chainStep_other rfl rfl nofun nofun nofun nofun
  | report =>
    obtain ⟨_, hrepo, -⟩ := relay.report_other_eq
    rw [step, hrepo]
    exact chainStep_other rfl rfl nofun nofun nofun nofun

/-! ### The chains over a run -/

theorem quiet_of_ne (hrout : ¬Routes mon (call, reply)) (href : ∀ requested, reply ≠ .video .refused requested)
    (hresta : reply ≠ .restarted) : Quiet mon (call, reply) :=
  ⟨hrout, fun ⟨requested, hr⟩ => href requested hr, hresta⟩

variable {frame : List UInt8} {header : VideoHeader}

theorem routes_iff (hfr : decodeVideoHeader frame = .ok header) (mon : UInt16) (reply : RelayReply)
    : Routes mon (.routeVideo frame, reply) ↔ mon = header.monitorId := by
  constructor
  · rintro ⟨routed, found, hrt, hf, rfl⟩
    cases hrt
    rw [hfr] at hf
    cases hf
    rfl
  · rintro rfl
    exact ⟨frame, header, rfl, hfr, rfl⟩

theorem not_routes_of_ne (hc : ∀ frame, call ≠ .routeVideo frame) (mon : UInt16) : ¬Routes mon (call, reply) := by
  rintro ⟨frame, header, hfr, -, -⟩
  exact hc frame hfr

structure Chained (log : List RelayEntry) (resync : VideoResync) : Prop where
  seen : ∀ monitor, monitor ∈ resync.seen ↔ ∃ entry ∈ log, Routes monitor entry
  chained : ∀ monitor ∈ resync.seen, monitor ∉ resync.waiting → Since (Queues monitor) (Quiet monitor) log

variable {log : List RelayEntry} {now : Nat} {resync next : VideoResync} {entry : RelayEntry}

theorem chained_new : Chained [] VideoResync.new := ⟨by simp [VideoResync.new], by simp [VideoResync.new]⟩

theorem Chained.routes (h : Chained log resync) (hfr : decodeVideoHeader frame = .ok header)
    (hseen : next.seen = insert header.monitorId resync.seen) (hsnc : ∀ mon ∈ next.seen, mon ∉ next.waiting →
      Since (Queues mon) (Quiet mon) (log ++ [(.routeVideo frame, reply)])) :
    Chained (log ++ [(.routeVideo frame, reply)]) next := by
  refine ⟨fun mon => ?_, hsnc⟩
  rw [hseen, Finset.mem_insert, h.seen, exists_mem_concat, routes_iff hfr]
  exact or_comm

theorem Chained.keeps (h : Chained log resync) (hent : ∀ mon, ¬Routes mon entry) (hseen : next.seen = resync.seen)
    (hsnc : ∀ mon ∈ next.seen, mon ∉ next.waiting → Since (Queues mon) (Quiet mon) (log ++ [entry])) :
    Chained (log ++ [entry]) next := by
  refine ⟨fun mon => ?_, hsnc⟩
  rw [hseen, h.seen, exists_mem_concat, or_iff_left (hent mon)]

theorem Chained.idle (h : Chained log resync) (hq : ∀ mon, Quiet mon entry) : Chained (log ++ [entry]) resync :=
  h.keeps (fun mon => (hq mon).1) rfl fun mon hmem hw => (h.chained mon hmem hw).step (hq mon)

theorem requestDue_keeps (resync : VideoResync) (now : Nat) :
    (resync.requestDue now).1.seen = resync.seen ∧ (resync.requestDue now).1.waiting = resync.waiting := by
  unfold requestDue
  dsimp only
  split <;> exact ⟨rfl, rfl⟩

theorem Chained.step (h : Chained log resync) (hs : ChainStep now resync call reply later next)
    : Chained (log ++ [(call, reply)]) next := by
  cases hs with
  | waits => exact h.idle fun mon => quiet_of_ne (not_routes_of_ne (by nofun) mon) nofun nofun
  | malformed frame _ hfr =>
    have hrout : ∀ mon, ¬Routes mon (.routeVideo frame, .video .malformed false) := by
      rintro mon ⟨routed, header, hrt, hhdr, -⟩
      cases hrt
      rw [hfr] at hhdr
      cases hhdr
    exact h.idle fun mon => quiet_of_ne (hrout mon) nofun nofun
  | held _ header hfr hwaits held hh =>
    have hseen : held.seen = insert header.monitorId resync.seen := by rw [hh]
    refine h.routes hfr ((requestDue_keeps _ _).1.trans hseen) fun mon hmem hw => ?_
    rw [(requestDue_keeps _ _).1, hseen, Finset.mem_insert] at hmem
    rw [(requestDue_keeps _ _).2, hh] at hw
    have hoth : mon ≠ header.monitorId := by
      rintro rfl
      exact hw hwaits
    refine (h.chained mon (hmem.resolve_left hoth) hw).step (quiet_of_ne ?_ nofun nofun)
    rwa [routes_iff hfr]
  | refused _ _ hfr _ hseen hwaits =>
    refine h.routes hfr ((requestDue_keeps _ _).1.trans hseen) fun mon hmem hw => ?_
    rw [(requestDue_keeps _ _).1] at hmem
    rw [(requestDue_keeps _ _).2] at hw
    exact absurd (hwaits hmem) hw
  | queued _ header hfr _ _ hseen hwaits =>
    refine h.routes hfr hseen fun mon hmem hw => ?_
    by_cases hmon : mon = header.monitorId
    · exact .now log ⟨(routes_iff hfr _ _).mpr hmon, false, rfl⟩
    · rw [hseen, Finset.mem_insert] at hmem
      have hnot := mt (hwaits mon hmon) hw
      refine (h.chained mon (hmem.resolve_left hmon) hnot).step (quiet_of_ne ?_ nofun nofun)
      rwa [routes_iff hfr]
  | restarted _ hc =>
    refine h.keeps (not_routes_of_ne hc) rfl fun mon hmem hw => ?_
    exact absurd (Finset.mem_union_right _ hmem) hw
  | other _ _ hc _ hv hrest =>
    exact h.idle fun mon => quiet_of_ne (not_routes_of_ne hc mon) (fun _ => hv _ _) hrest

/-! ### The clock of the requests -/

theorem requestDue_cases (resync : VideoResync) (now : Nat) :
    resync.requestDue now = ({ resync with lastRequest := some now }, true) ∧
        (∀ last, resync.lastRequest = some last → keyframeRequestSpacing ≤ now - last) ∨
      resync.requestDue now = (resync, false) ∧
        ∃ last, resync.lastRequest = some last ∧ ¬keyframeRequestSpacing ≤ now - last := by
  unfold requestDue
  cases hl : resync.lastRequest with
  | none => exact .inl ⟨rfl, nofun⟩
  | some last =>
    by_cases hd : keyframeRequestSpacing ≤ now - last
    · refine .inl ⟨by simp [hd], ?_⟩
      rintro _ ⟨⟩
      exact hd
    · exact .inr ⟨by simp [hd], last, rfl, hd⟩

structure Paced (log : List RelayEntry) (now : Nat) (resync : VideoResync) : Prop where
  newest : ∀ before entry after, log = before ++ entry :: after → Requests entry →
    ∃ last, resync.lastRequest = some last ∧ now ≤ last + elapsedTime after
  last : ∀ last, resync.lastRequest = some last →
    ∃ before entry after, log = before ++ entry :: after ∧ Requests entry ∧ now = last + elapsedTime after

theorem paced_new : Paced [] 0 VideoResync.new := ⟨by simp, nofun⟩

theorem Paced.keeps (h : Paced log now resync) (hent : ¬Requests entry) (hl : next.lastRequest = resync.lastRequest)
    (hlat : later = now + entry.waited) : Paced (log ++ [entry]) later next := by
  subst hlat
  constructor
  · intro before first after hsplit hreqs
    rcases concat_eq_append_cons hsplit with ⟨-, rfl, -⟩ | ⟨rest, rfl, hlog⟩
    · exact absurd hreqs hent
    · obtain ⟨last, hsome, hn⟩ := h.newest before first rest hlog hreqs
      refine ⟨last, hl.trans hsome, ?_⟩
      rw [elapsedTime_concat, ← Nat.add_assoc]
      exact Nat.add_le_add_right hn _
  · intro last hsome
    obtain ⟨before, first, after, rfl, hreqs, hn⟩ := h.last last (hl.symm.trans hsome)
    refine ⟨before, first, after ++ [entry], by simp, hreqs, ?_⟩
    rw [elapsedTime_concat, hn, Nat.add_assoc]

theorem paced_requests (hent : Requests entry) (hl : next.lastRequest = some now) :
    Paced (log ++ [entry]) now next := by
  constructor
  · intro before first after hsplit hreqs
    exact ⟨now, hl, Nat.le_add_right _ _⟩
  · intro last hsome
    rw [hl] at hsome
    cases hsome
    exact ⟨log, entry, [], rfl, hent, rfl⟩

/-- A frame that is held or refused. -/
theorem Paced.requestDue (h : Paced log now resync) (hl : next.lastRequest = resync.lastRequest) (frame : List UInt8)
    (routing : VideoRouting) :
    Paced (log ++ [(.routeVideo frame, .video routing (next.requestDue now).2)]) now (next.requestDue now).1 := by
  rcases requestDue_cases next now with ⟨hd, -⟩ | ⟨hd, -⟩ <;> rw [hd]
  · exact paced_requests (.inl ⟨routing, rfl⟩) rfl
  · exact h.keeps nofun hl rfl

theorem Paced.step (h : Paced log now resync) (hs : ChainStep now resync call reply later next)
    : Paced (log ++ [(call, reply)]) later next := by
  cases hs with
  | waits | malformed => exact h.keeps nofun rfl rfl
  | held frame _ _ _ held hh => exact h.requestDue (by rw [hh]) frame .held
  | refused frame _ _ _ _ _ hl => exact h.requestDue hl frame .refused
  | queued _ _ _ _ _ _ _ hl => exact h.keeps nofun hl rfl
  | restarted => exact paced_requests (.inr rfl) rfl
  | other call reply _ hwait hv hrest =>
    have hwaite : waited (call, reply) = 0 := by
      cases call with
      | wait elapsed => exact absurd rfl (hwait elapsed)
      | _ => rfl
    refine h.keeps ?_ rfl (by rw [hwaite, Nat.add_zero])
    rintro (⟨routing, hr⟩ | hr)
    · exact hv routing true hr
    · exact hrest hr

/-! ### What the next entry keeps -/

variable {call : RelayStep} {reply : RelayReply} {later : Nat}

theorem Chained.extends (h : Chained log resync) (hs : ChainStep now resync call reply later next) :
    ExtendsChain log (call, reply) := by
  rintro frame header hfr hkf ⟨requested, hqueu⟩
  cases hqueu
  cases hs with
  | queued _ _ hf hadm =>
    rw [hfr] at hf
    cases hf
    have hw : header.monitorId ∉ resync.waiting := hadm.resolve_left (by simp [hkf])
    by_cases hmem : header.monitorId ∈ resync.seen
    · exact .inr (h.chained _ hmem hw)
    · refine .inl fun earlier hearly hrout => ?_
      exact hmem ((h.seen _).mpr ⟨earlier, hearly, hrout⟩)
  | other _ _ hc => exact absurd rfl (hc frame)

theorem ChainStep.due (hs : ChainStep now resync call reply later next) (hreqs : RequestsForFrame (call, reply))
    (hl : resync.lastRequest = some last) : keyframeRequestSpacing ≤ now - last := by
  obtain ⟨routing, hr⟩ := hreqs
  have hd : ∀ broken : VideoResync, broken.lastRequest = resync.lastRequest → (broken.requestDue now).2 = true →
      keyframeRequestSpacing ≤ now - last := by
    intro broken hbrok ht
    rcases requestDue_cases broken now with ⟨-, hd⟩ | ⟨hnot, -⟩
    · exact hd last (hbrok.trans hl)
    · rw [hnot] at ht
      cases ht
  cases hs with
  | held _ _ _ _ held hh =>
    injection hr with _ ht
    exact hd held (by rw [hh]) ht
  | refused _ _ _ broken _ _ hbrok =>
    injection hr with _ ht
    exact hd broken hbrok ht
  | other _ _ _ _ hv => exact absurd hr (hv _ _)
  | _ => cases hr

theorem Paced.asks_again (h : Paced log now resync) (hs : ChainStep now resync call reply later next)
    (hh : HoldsBack (call, reply)) (hold : ∀ earlier first between, log = earlier ++ first :: between →
      Requests first → keyframeRequestSpacing ≤ elapsedTime between) : RequestsForFrame (call, reply) := by
  obtain ⟨requested, hr⟩ := hh
  cases hs with
  | held _ _ _ _ held hh =>
    rcases requestDue_cases held now with ⟨hd, -⟩ | ⟨-, last, hl, hnot⟩
    · exact ⟨.held, by rw [hd]⟩
    · rw [hh] at hl
      obtain ⟨earlier, first, between, hsplit, hfst, hn⟩ := h.last last hl
      refine absurd (hold earlier first between hsplit hfst) ?_
      rwa [hn, Nat.add_sub_cancel_left] at hnot
  | other _ _ _ _ hv => exact absurd hr (hv _ _)
  | _ => cases hr

end LaneRelay

end Arcen
