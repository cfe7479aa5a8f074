import Arcen.LaneRelayVideo

/-! What goes on a replacement video lane. The frame that the writer held when the lane failed and the frames of the backlog
go on the replacement as they are; only frames routed after the relay heard of the replacement start with keyframes. -/

namespace Arcen

open RelayEntry List

namespace RelayEntry

/-- The frame that is put on the backlog. -/
def accepted : RelayEntry → Option (List UInt8)
  | (.routeVideo frame, .video .queued _) => some frame
  | _ => none

def placed : RelayEntry → Option (VideoLane × List UInt8)
  | (_, .placed lane frame) => some (lane, frame)
  | _ => none

def Opens (lane : VideoLane) (entry : RelayEntry) : Prop := entry.2 = .opened lane

end RelayEntry

def acceptedFrames (log : List RelayEntry) : List (List UInt8) := log.filterMap accepted

/-- The frames queued on lanes, oldest first. -/
def placedFrames (log : List RelayEntry) : List (VideoLane × List UInt8) := log.filterMap placed

theorem acceptedFrames_concat (log : List RelayEntry) (entry : RelayEntry) :
    acceptedFrames (log ++ [entry]) = acceptedFrames log ++ entry.accepted.toList := filterMap_concat _ log entry

theorem placedFrames_concat (log : List RelayEntry) (entry : RelayEntry) :
    placedFrames (log ++ [entry]) = placedFrames log ++ entry.placed.toList := filterMap_concat _ log entry

theorem acceptedFrames_idle {entry : RelayEntry} (h : entry.accepted = none) (log : List RelayEntry) :
    acceptedFrames (log ++ [entry]) = acceptedFrames log := by
  rw [acceptedFrames_concat, h, Option.toList_none, append_nil]

theorem placedFrames_idle {entry : RelayEntry} (h : entry.placed = none) (log : List RelayEntry) :
    placedFrames (log ++ [entry]) = placedFrames log := by
  rw [placedFrames_concat, h, Option.toList_none, append_nil]

theorem acceptedFrames_split {entry : RelayEntry} {frame : List UInt8} (h : entry.accepted = some frame)
    (before after : List RelayEntry) :
    acceptedFrames (before ++ entry :: after) = acceptedFrames before ++ frame :: acceptedFrames after := by
  rw [acceptedFrames, filterMap_append, filterMap_cons_some h]
  rfl

def IsOfMonitor (monitor : UInt16) (frame : List UInt8) : Prop :=
  ∃ header, decodeVideoHeader frame = .ok header ∧ header.monitorId = monitor

def NoneOnLane (log : List RelayEntry) (lane : VideoLane) (monitor : UInt16) : Prop :=
  ∀ frame, (lane, frame) ∈ placedFrames log → ¬IsOfMonitor monitor frame

namespace LaneRelay

open RelayEntry

/-- The writer still takes frames from the backlog. -/
def alive (relay : LaneRelay) : Bool :=
  match relay.videoWriter with
  | .ending | .ended => false
  | _ => true

def lane (relay : LaneRelay) : Option VideoLane :=
  match relay.videoWriter with
  | .receiving lane => lane
  | .sending lane _ _ | .reporting lane => some lane
  | _ => none

/-- The frames on their way: the one in the writer's hand and the backlog. -/
def line (relay : LaneRelay) : List (List UInt8) :=
  match relay.videoWriter with
  | .opening frame | .sending _ frame _ | .recovering frame => frame :: relay.video
  | _ => relay.video

/-- A step, as far as the frames on their way and the lanes go. -/
inductive LineStep (relay next : LaneRelay) : RelayStep → RelayReply → Prop where
  | accepts (frame : List UInt8) (requested : Bool) (hline : next.line = relay.line ++ [frame])
      (hlane : next.lane = relay.lane) (hlanes : next.lanes = relay.lanes) (halive : next.alive = relay.alive) :
      LineStep relay next (.routeVideo frame) (.video .queued requested)
  | opens (call : RelayStep) (lane : VideoLane) (hnumber : lane.number = relay.lanes)
      (hlanes : next.lanes = relay.lanes + 1) (hlane : next.lane = some lane) (hline : next.line = relay.line)
      (hsome : relay.line ≠ []) (halive : relay.alive = true) : LineStep relay next call (.opened lane)
  | places (call : RelayStep) (lane : VideoLane) (frame : List UInt8) (hline : relay.line = frame :: next.line)
      (hcurrent : relay.lane = some lane) (hlane : next.lane = some lane) (hlanes : next.lanes = relay.lanes)
      (halive : relay.alive = true) : LineStep relay next call (.placed lane frame)
  | other (call : RelayStep) (reply : RelayReply) (haccepted : accepted (call, reply) = none)
      (hplaced : placed (call, reply) = none) (hopens : ∀ lane, reply ≠ .opened lane)
      (hlanes : next.lanes = relay.lanes) (hlane : next.lane = relay.lane ∨ next.lane = none)
      (hline : next.alive = true → relay.alive = true ∧ next.line = relay.line) : LineStep relay next call reply

/-- A step that leaves the video backlog and its writer alone. -/
theorem lineStep_other {relay next : LaneRelay} (hacc : accepted (call, reply) = none)
    (hp : placed (call, reply) = none) (ho : ∀ lane, reply ≠ .opened lane) (hls : next.lanes = relay.lanes)
    (hvideo : next.video = relay.video) (hwr : next.videoWriter = relay.videoWriter)
    : LineStep relay next call reply := by
  refine .other call reply hacc hp ho hls (.inl ?_) fun ha => ⟨?_, ?_⟩
  · rw [lane, lane, hwr]
  · rwa [alive, hwr] at ha
  · rw [line, line, hvideo, hwr]

theorem lineStep_routeVideo (relay : LaneRelay) (frame : List UInt8) :
    LineStep relay (relay.routeVideo frame).1 (.routeVideo frame) (relay.routeVideo frame).2 := by
  have hset : ∀ result routing, routing ≠ .queued →
      LineStep relay (relay.settleResync result routing).1 (.routeVideo frame) (relay.settleResync result routing).2 := by
    intro result routing hrout
    obtain ⟨_, hset⟩ := relay.settleResync_eq result routing
    rw [hset]
    refine lineStep_other ?_ rfl nofun rfl rfl rfl
    cases routing with
    | queued => exact absurd rfl hrout
    | _ => rfl
  unfold routeVideo
  split
  · exact lineStep_other rfl rfl nofun rfl rfl rfl
  · split
    · exact hset _ _ nofun
    · split
      · refine .accepts frame false ?_ rfl rfl rfl
        unfold line
        cases hwr : relay.videoWriter <;> rfl
      · exact hset _ _ nofun

theorem lineStep_videoTurn (relay : LaneRelay) (turn : VideoTurn) :
    LineStep relay (relay.videoTurn turn).1 (.videoWriter turn) (relay.videoTurn turn).2 := by
  unfold videoTurn
  split
  · -- a frame moves from the backlog to the writer's hand
    rename_i lane hwr
    split
    · exact lineStep_other rfl rfl nofun rfl rfl rfl
    · rename_i frame video hvideo
      refine .other _ _ rfl rfl nofun rfl (.inl ?_) fun _ => ?_
      · cases lane <;> simp [LaneRelay.lane, hwr]
      · cases lane <;> simp [alive, line, hwr, hvideo]
  · rename_i frame replacement hwr
    exact .opens _ _ rfl rfl rfl (by simp [openLane, line, hwr]) (by simp [line, hwr]) (by simp [alive, hwr])
  · rename_i lane frame outcome hwr
    have haft : afterSend lane outcome = .reporting lane ∨ afterSend lane outcome = .receiving (some lane) := by
      unfold afterSend
      split
      · exact .inl rfl
      · exact .inr rfl
    refine .places _ lane frame ?_ (by simp [LaneRelay.lane, hwr]) ?_ rfl (by simp [alive, hwr])
    · rcases haft with haft | haft <;> simp [line, hwr, haft]
    · rcases haft with haft | haft <;> simp [LaneRelay.lane, haft]
  · rename_i frame outcome hwr
    refine .other _ _ rfl rfl nofun rfl (.inr rfl) fun _ => ?_
    simp [alive, line, hwr]
  · rename_i frame hwr
    exact .opens _ _ rfl rfl rfl (by simp [openLane, line, hwr]) (by simp [line, hwr]) (by simp [alive, hwr])
  · exact .other _ _ rfl rfl nofun rfl (.inr rfl) nofun
  · exact .other _ _ rfl rfl nofun rfl (.inr rfl) nofun
  · exact .other _ _ rfl rfl nofun rfl (.inr rfl) nofun
  · rename_i lane hwr
    unfold report
    split
    · refine .other _ _ rfl rfl nofun rfl (.inl ?_) fun _ => ?_
      · simp [LaneRelay.lane, hwr]
      · simp [alive, line, hwr]
    · exact lineStep_other rfl rfl nofun rfl rfl rfl
  · unfold report
    split
    · exact .other _ _ rfl rfl nofun rfl (.inr rfl) nofun
    · exact lineStep_other rfl rfl nofun rfl rfl rfl
  · exact lineStep_other rfl rfl nofun rfl rfl rfl

theorem lineStep_step (offer : String → Option UInt64) (relay : LaneRelay) (call : RelayStep) :
    LineStep relay (relay.step offer call).1 call (relay.step offer call).2 := by
  cases call with
  | wait => exact lineStep_other rfl rfl (by simp [step]) rfl rfl rfl
  | routeVideo frame => exact lineStep_routeVideo relay frame
  | routeBulk record =>
    obtain ⟨_, _, _, _, _, hrt⟩ := routeBulk_eq offer relay record
    rw [step, hrt]
    exact lineStep_other rfl rfl (by simp) rfl rfl rfl
  | nextEvent =>
    obtain ⟨_, _, _, _, reply, hev, ho, hp⟩ := relay.nextEvent_eq
    rw [step, hev]
    refine lineStep_other rfl ?_ ho rfl rfl rfl
    cases reply with
    | placed lane frame => exact absurd rfl (hp lane frame)
    | _ => rfl
  | videoWriter turn => exact lineStep_videoTurn relay turn
  | bulkWriter turn =>
    obtain ⟨_, _, _, _, hturn⟩ := relay.bulkTurn_eq turn
    rw [step, hturn]
    exact lineStep_other rfl rfl (by simp) rfl rfl rfl
  | report =>
    obtain ⟨_, hrepo, -⟩ := relay.report_other_eq
    rw [step, hrepo]
    exact lineStep_other rfl rfl (by simp) rfl rfl rfl

/-! ### The frames on their way over a run -/

/-- What a log says about the frames on their way and the lanes. -/
structure Lined (log : List RelayEntry) (relay : LaneRelay) : Prop where
  placed : (placedFrames log).map Prod.snd <+: acceptedFrames log
  line : relay.alive = true → acceptedFrames log = (placedFrames log).map Prod.snd ++ relay.line
  numbers : ∀ entry ∈ log, ∀ lane, Opens lane entry → lane.number < relay.lanes
  current : ∀ before entry after lane, log = before ++ entry :: after → Opens lane entry → relay.lane = some lane →
    ∀ placed ∈ placedFrames after, placed.1 = lane
  ahead : ∀ before entry after lane, log = before ++ entry :: after → Opens lane entry →
    (placedFrames before).length < (acceptedFrames before).length

theorem lined_new : Lined [] .new := ⟨prefix_rfl, fun _ => rfl, by simp, by simp, by simp⟩

variable {log : List RelayEntry} {relay next : LaneRelay} {call : RelayStep} {reply : RelayReply} {entry : RelayEntry}

theorem Lined.keeps (h : Lined log relay) (ho : ∀ lane, ¬Opens lane entry) (hls : next.lanes = relay.lanes)
    (hl : next.lane = relay.lane ∨ next.lane = none) (hc : ∀ placed ∈ entry.placed, relay.lane = some placed.1)
    (hp : (placedFrames (log ++ [entry])).map Prod.snd <+: acceptedFrames (log ++ [entry]))
    (hline : next.alive = true →
      acceptedFrames (log ++ [entry]) = (placedFrames (log ++ [entry])).map Prod.snd ++ next.line) :
    Lined (log ++ [entry]) next := by
  refine ⟨hp, hline, ?_, ?_, ?_⟩
  · rw [hls, forall_mem_append, forall_mem_singleton]
    exact ⟨h.numbers, fun lane hl => absurd hl (ho lane)⟩
  · intro before first after lane hs hf hnext
    rcases concat_eq_append_cons hs with ⟨-, rfl, -⟩ | ⟨rest, rfl, hlog⟩
    · exact absurd hf (ho lane)
    · have hrelay : relay.lane = some lane := by
        rcases hl with hl | hl
        · exact hl.symm.trans hnext
        · rw [hl] at hnext
          cases hnext
      rw [placedFrames_concat, forall_mem_append]
      refine ⟨h.current before first rest lane hlog hf hrelay, fun placed hmem => ?_⟩
      exact Option.some.inj ((hc placed (Option.mem_toList.mp hmem)).symm.trans hrelay)
  · intro before first after lane hs hf
    rcases concat_eq_append_cons hs with ⟨-, rfl, -⟩ | ⟨rest, -, hlog⟩
    · exact absurd hf (ho lane)
    · exact h.ahead before first rest lane hlog hf

variable {lane : VideoLane} {frame : List UInt8}

theorem Lined.opens (h : Lined log relay) (hnum : lane.number = relay.lanes) (hls : next.lanes = relay.lanes + 1)
    (hl : next.lane = some lane) (hline : next.line = relay.line) (hsome : relay.line ≠ []) (ha : relay.alive = true)
    (call : RelayStep) : Lined (log ++ [(call, .opened lane)]) next := by
  have hacc : accepted (call, .opened lane) = none := by cases call <;> rfl
  refine ⟨?_, fun _ => ?_, ?_, ?_, ?_⟩
  · rw [acceptedFrames_idle hacc, placedFrames_idle rfl]
    exact h.placed
  · rw [acceptedFrames_idle hacc, placedFrames_idle rfl, hline]
    exact h.line ha
  · rw [hls, forall_mem_append, forall_mem_singleton]
    refine ⟨fun earlier hearly opened hopen => Nat.lt_succ_of_lt (h.numbers earlier hearly opened hopen), ?_⟩
    rintro _ ⟨⟩
    exact hnum ▸ Nat.lt_succ_self _
  · intro before first after cur hs hf hnext
    rcases concat_eq_append_cons hs with ⟨-, -, rfl⟩ | ⟨rest, -, rfl⟩
    · exact nofun
    · -- an older lane has a smaller number
      have hlt := h.numbers first (by simp) cur hf
      rw [hl] at hnext
      cases hnext
      exact absurd hnum (Nat.ne_of_lt hlt)
  · intro before first after cur hs hf
    rcases concat_eq_append_cons hs with ⟨rfl, -, -⟩ | ⟨rest, -, hlog⟩
    · rw [h.line ha, length_append, length_map]
      exact Nat.lt_add_of_pos_right (length_pos_iff.mpr hsome)
    · exact h.ahead before first rest cur hlog hf

theorem Lined.step (h : Lined log relay) (hstep : LineStep relay next call reply) :
    Lined (log ++ [(call, reply)]) next := by
  cases hstep with
  | accepts frame requested hline hl hls ha =>
    have hacc : acceptedFrames (log ++ [(.routeVideo frame, .video .queued requested)]) =
        acceptedFrames log ++ [frame] := acceptedFrames_concat _ _
    refine h.keeps nofun hls (.inl hl) nofun ?_ fun hnext => ?_
    · rw [hacc, placedFrames_idle rfl]
      exact h.placed.trans (prefix_append _ _)
    · rw [hacc, placedFrames_idle rfl, hline, h.line (ha ▸ hnext), append_assoc]
  | opens call _ hnum hls hl hline hsome ha =>
    exact h.opens hnum hls hl hline hsome ha call
  | places call lane frame hline hc hl hls ha =>
    have hacc : acceptedFrames (log ++ [(call, .placed lane frame)]) =
        (placedFrames log).map Prod.snd ++ frame :: next.line := by
      rw [acceptedFrames_idle (by cases call <;> rfl), ← hline, ← h.line ha]
    have hp : (placedFrames (log ++ [(call, .placed lane frame)])).map Prod.snd =
        (placedFrames log).map Prod.snd ++ [frame] := by
      rw [placedFrames_concat, map_append]
      rfl
    refine h.keeps nofun hls (.inl (hl.trans hc.symm)) ?_ ?_ fun _ => ?_
    · rintro _ ⟨⟩
      exact hc
    · rw [hacc, hp]
      exact ⟨next.line, append_assoc _ _ _⟩
    · rw [hacc, hp, append_assoc]
      rfl
  | other call reply hacc hp ho hls hl hline =>
    refine h.keeps ho hls hl (by simp [hp]) ?_ fun hnext => ?_
    · rw [acceptedFrames_idle hacc, placedFrames_idle hp]
      exact h.placed
    · rw [acceptedFrames_idle hacc, placedFrames_idle hp, (hline hnext).2]
      exact h.line (hline hnext).1

theorem eq_of_accepted (h : entry.accepted = some frame) :
    ∃ requested, entry = (.routeVideo frame, .video .queued requested) := by
  unfold accepted at h
  split at h
  · cases h
    exact ⟨_, rfl⟩
  · cases h

theorem Queues.accepted (h : Queues mon entry) : ∃ frame, entry.accepted = some frame ∧ IsOfMonitor mon frame := by
  obtain ⟨⟨frame, header, hcall, hfr, hmon⟩, _, hrpl⟩ := h
  obtain ⟨_, _⟩ := entry
  cases hcall
  cases hrpl
  exact ⟨frame, rfl, header, hfr, hmon⟩

theorem Lined.on_lane (h : Lined log relay) (hl : relay.lane = some lane) {opening between after : List RelayEntry}
    (hopen : Opens lane opened) (hlog : log = opening ++ opened :: (between ++ entry :: after))
    (hent : entry.accepted = some frame)
    (hp : (acceptedFrames (opening ++ opened :: between)).length < (placedFrames log).length) : (lane, frame)
    ∈ placedFrames log := by
  have hahd := h.ahead opening opened _ lane hlog hopen
  have hc := h.current opening opened _ lane hlog hopen hl
  have hacc : acceptedFrames log =
      acceptedFrames (opening ++ opened :: between) ++ frame :: acceptedFrames after := by
    rw [hlog, ← cons_append, ← append_assoc]
    exact acceptedFrames_split hent _ _
  have hs : placedFrames log = placedFrames (opening ++ [opened]) ++ placedFrames (between ++ entry :: after) := by
    rw [hlog, append_cons]
    exact filterMap_append
  have hn : opened.placed = none := by
    obtain ⟨_, _⟩ := opened
    cases hopen
    rfl
  have hlen : (placedFrames opening).length ≤ (acceptedFrames (opening ++ opened :: between)).length := by
    refine hahd.le.trans ?_
    rw [acceptedFrames, acceptedFrames, filterMap_append, length_append]
    exact Nat.le_add_right _ _
  -- the frame has the same place among the accepted and the placed frames
  obtain ⟨_, hrest⟩ := h.placed
  have hidx : (acceptedFrames log)[(acceptedFrames (opening ++ opened :: between)).length]? = some frame := by
    rw [hacc, getElem?_append_right (Nat.le_refl _), Nat.sub_self, getElem?_cons_zero]
  rw [← hrest, getElem?_append_left (by rwa [length_map]), hs, placedFrames_idle hn, map_append,
    getElem?_append_right (by rwa [length_map])] at hidx
  obtain ⟨⟨found, _⟩, hmem, rfl⟩ := mem_map.mp (mem_of_getElem? hidx)
  obtain rfl : found = lane := hc _ hmem
  rw [hs]
  exact mem_append_right _ hmem

end LaneRelay

open RelayEntry in
/-- The frame that the writer places next was put on the backlog after the relay had applied the event of a replaced lane
since the lane was opened, and not as the first of its monitor. -/
def Resynchronised (log : List RelayEntry) (lane : VideoLane) (monitor : UInt16) : Prop :=
  ∃ opening opened later accepting rest, log = opening ++ opened :: (later ++ accepting :: rest) ∧
    Opens lane opened ∧ (∃ restart ∈ later, Restarts restart) ∧
    accepting.accepted ≠ none ∧ (acceptedFrames (opening ++ opened :: later)).length = (placedFrames log).length ∧
    ∃ earlier ∈ opening ++ opened :: later, Routes monitor earlier

namespace LaneRelay

open RelayEntry

/-- A frame that the relay resynchronised before is a keyframe, or follows one of its monitor on the lane. -/
theorem Lined.resynchronised (h : Lined log relay) (hchai : Throughout ExtendsChain log) {next : LaneRelay}
    {lane : VideoLane} {frame : List UInt8} (hstep : LineStep relay next call (.placed lane frame))
    (hfr : decodeVideoHeader frame = .ok header)
    (hr : Resynchronised log lane header.monitorId) (hn : NoneOnLane log lane header.monitorId) :
    header.isKeyframe = true := by
  by_contra hkf
  rw [Bool.not_eq_true] at hkf
  obtain ⟨opening, opened, later, accepting, rest, hlog, hopen, ⟨restart, hmem, hresta⟩, hacce, hidx, hearly⟩ := hr
  obtain ⟨hl, hline⟩ : relay.lane = some lane ∧ acceptedFrames log =
      (placedFrames log).map Prod.snd ++ frame :: next.line := by
    cases hstep with
    | places _ _ _ hline hc _ _ ha => exact ⟨hc, hline ▸ h.line ha⟩
    | other _ _ _ hp => cases hp
  -- the frame to place is the one that was accepted after the restart
  obtain ⟨found, hfnd⟩ := Option.ne_none_iff_exists'.mp hacce
  have hs : log = (opening ++ opened :: later) ++ accepting :: rest := by
    rw [hlog, append_assoc, cons_append]
  have hacc : acceptedFrames log = acceptedFrames (opening ++ opened :: later) ++ found :: acceptedFrames rest := by
    rw [hs]
    exact acceptedFrames_split hfnd _ _
  obtain ⟨-, hsame⟩ := append_inj (hacc.symm.trans hline) (by rw [hidx, length_map])
  obtain ⟨rfl, -⟩ := cons_eq_cons.mp hsame
  rcases hchai _ _ _ hs found header hfr hkf (eq_of_accepted hfnd) with hf | hsnc
  · obtain ⟨earlier, hmem, hroute⟩ := hearly
    exact hf earlier hmem hroute
  · rw [append_cons] at hsnc
    obtain ⟨_, _, _, rfl, hqueu, -⟩ := hsnc.of_append hmem fun hquiet => hquiet.2.2 hresta
    obtain ⟨previous, hprev, hmon⟩ := Queues.accepted hqueu
    refine hn previous (h.on_lane hl hopen (by rw [hlog, append_assoc, cons_append]) hprev ?_) hmon
    rw [← hidx, ← cons_append, ← append_assoc, acceptedFrames_split hprev, length_append]
    exact Nat.lt_add_of_pos_right (Nat.succ_pos _)

end LaneRelay

/-- A keyframe is queued on the first lane, and the lane is replaced while the next frame is sent. -/
def replacedWhileSending : List RelayStep :=
  [.routeVideo [3, 1, 0, 1, 0, 0, 0, 0, 0, 0], .routeVideo [3, 1, 0, 0, 0, 0, 0, 0, 0, 0],
    .videoWriter .receive, .videoWriter (.opened false), .videoWriter .sent,
    .videoWriter .receive, .videoWriter .closed, .videoWriter .recovered]

end Arcen
