import Arcen.CaptureDamage

/-! Runs of the capture worker: what the producer reported is on the map a submission is made with, provided the
worker leased the frame that carries it; and the verdict on the map is that of the leased frames. -/

namespace Arcen

open CaptureMailbox List

variable {T : Type} {grid : BlockGrid} {index : Nat}

abbrev WorkerEntry (T : Type) := WorkerCall T × WorkerReply T

namespace WorkerEntry

def Submits (entry : WorkerEntry T) : Prop := entry.1 = .markSubmitted

def Pushes (token : T) (surface : ValidatedCaptureSurface) (entry : WorkerEntry T) : Prop :=
  entry.1 = .mailbox (.push token surface)

def Leases (frame : QueuedCapture T) (entry : WorkerEntry T) : Prop :=
  ∃ released, entry.2 = .mailbox (.taken (.leased frame released))

/-- The entry reports damage of the block: a pushed frame, a buffer carried over, or one of the frames drained. -/
def Reports (grid : BlockGrid) (index : Nat) (before : List (WorkerEntry T)) (entry : WorkerEntry T) : Prop :=
  (∃ token surface, entry.Pushes token surface ∧ surface.damage.Touches grid index) ∨
  (∃ damage, entry.1 = .mailbox (.carryDamage damage) ∧ damage.Touches grid index) ∨
  ∃ tokens, entry.2 = .mailbox (.drained tokens) ∧ ∃ token ∈ tokens, ∃ push ∈ before, ∃ surface,
    push.Pushes token surface ∧ surface.damage.Touches grid index

end WorkerEntry

open WorkerEntry

def DamageReported (grid : BlockGrid) (index : Nat) (log : List (WorkerEntry T)) : Prop :=
  ∃ before entry after, log = before ++ entry :: after ∧ entry.Reports grid index before ∧
    ∀ later ∈ after, ¬later.Submits

def DamageReportedBy (grid : BlockGrid) (index : Nat) (token : T) (log : List (WorkerEntry T)) : Prop :=
  ∃ before entry after, log = before ++ entry :: after ∧ entry.Reports grid index before ∧
    (∀ later ∈ after, ¬later.Submits) ∧ ∃ push ∈ entry :: after, ∃ surface, push.Pushes token surface

variable (frame : QueuedCapture T)

def LastLeased (log : List (WorkerEntry T)) : Prop :=
  Since (Leases frame) (fun later => ∀ other, ¬later.Leases other) log

def ObservedSince (log : List (WorkerEntry T)) : Prop := Since (Leases frame) (fun later => ¬later.Submits) log

section Concat

variable {log : List (WorkerEntry T)} {entry : WorkerEntry T} {token : T}

theorem DamageReportedBy.reported (h : DamageReportedBy grid index token log) : DamageReported grid index log := by
  obtain ⟨before, entry, after, hlog, hrepo, ha, -⟩ := h
  exact ⟨before, entry, after, hlog, hrepo, ha⟩

theorem DamageReported.of_concat (h : DamageReported grid index (log ++ [entry])) :
    entry.Reports grid index log ∨ ¬entry.Submits ∧ DamageReported grid index log := by
  obtain ⟨before, first, _, hs, hrepo, ha⟩ := h
  rcases concat_eq_append_cons hs with ⟨rfl, rfl, -⟩ | ⟨rest, rfl, hlog⟩
  · exact .inl hrepo
  · refine .inr ⟨ha _ (by simp), before, first, rest, hlog, hrepo, fun later hlat => ?_⟩
    exact ha later (mem_append_left _ hlat)

theorem DamageReportedBy.of_concat (h : DamageReportedBy grid index token (log ++ [entry])) :
    (∃ surf, entry.Pushes token surf) ∨ ¬entry.Submits ∧ DamageReportedBy grid index token log := by
  obtain ⟨before, first, _, hs, hrepo, ha, push, hp, hpushes⟩ := h
  rcases concat_eq_append_cons hs with ⟨-, rfl, rfl⟩ | ⟨rest, rfl, hlog⟩
  · exact .inl (mem_singleton.mp hp ▸ hpushes)
  · rw [← cons_append, mem_append, mem_singleton] at hp
    rcases hp with hp | rfl
    · refine .inr ⟨ha _ (by simp), before, first, rest, hlog, hrepo, fun later hlat => ?_, push, hp, hpushes⟩
      exact ha later (mem_append_left _ hlat)
    · exact .inl hpushes

theorem DamageReportedBy.earlier (h : DamageReportedBy grid index token (log ++ [entry]))
    (hpushes : ∀ surf, ¬entry.Pushes token surf) : DamageReportedBy grid index token log := by
  rcases h.of_concat with ⟨surf, hp⟩ | ⟨-, hpre⟩
  · exact absurd hp (hpushes surf)
  · exact hpre

theorem LastLeased.of_concat {frame : QueuedCapture T} (h : LastLeased frame (log ++ [entry]))
    (hent : ∀ other, ¬entry.Leases other) : LastLeased frame log := (h.earlier (hent frame)).2

end Concat

/-! ### No report is lost -/

def CaptureWorker.Queues (grid : BlockGrid) (index : Nat) (worker : CaptureWorker T) : Prop :=
  QueueTouches grid index worker.leases.mailbox.queue ∨ worker.damage.pending.Marks index

structure DamageKept (grid : BlockGrid) (index : Nat) (log : List (WorkerEntry T)) (worker : CaptureWorker T) : Prop where
  capacity : 1 ≤ worker.leases.mailbox.capacity
  geometry : worker.damage.pending.damage.grid = grid
  waiting : DamageReported grid index log →
    worker.leases.mailbox.closed = true ∨ worker.leases.mailbox.Carries grid index ∨ worker.Queues grid index
  queued : ∀ token ∈ worker.leases.queuedTokens, (∃ push ∈ log, ∃ surface, push.Pushes token surface) ∧
    (DamageReportedBy grid index token log → worker.Queues grid index)
  own : ∀ token ∈ worker.leases.queuedTokens, ∀ push ∈ log, ∀ surface, push.Pushes token surface →
    surface.damage.Touches grid index → QueueTouches grid index worker.leases.mailbox.queue
  leased : ∀ frame, LastLeased frame log → (∃ push ∈ log, ∃ surface, push.Pushes frame.token surface) ∧
    (DamageReportedBy grid index frame.token log → worker.damage.pending.Marks index)

/-- The same after one more call. -/
abbrev DamageKeptBy (grid : BlockGrid) (index : Nat) (log : List (WorkerEntry T)) (worker : CaptureWorker T)
    (call : WorkerCall T) : Prop := DamageKept grid index (log ++ [(call, (worker.step call).2)]) (worker.step call).1

namespace DamageKept

variable {log : List (WorkerEntry T)} {worker : CaptureWorker T} {entry : WorkerEntry T} {next : CaptureWorker T}

variable {token other : T} {surf : ValidatedCaptureSurface} {reply : WorkerReply T}

theorem pushes_iff :
    Pushes other surf (.mailbox (.push token given), reply) ↔ token = other ∧ given = surf := by
  simp [Pushes]

/-- A new token is none of those pushed before. -/
theorem not_pushes (hf : ∀ push ∈ log, ∀ surf, ¬push.Pushes token surf) (other : T)
    (hoth : ∃ push ∈ log, ∃ surf, push.Pushes other surf) (given : ValidatedCaptureSurface) :
    ¬Pushes other given (.mailbox (.push token surf), reply) := by
  rintro ⟨rfl, -⟩
  obtain ⟨push, hmem, surf, hp⟩ := hoth
  exact hf push hmem surf hp

/-- A pushed frame that is not pushed again keeps what its reports led to. -/
theorem pushed_concat (h : (∃ push ∈ log, ∃ surface, push.Pushes token surface) ∧
      (DamageReportedBy grid index token log → was))
    (he : (∃ push ∈ log, ∃ surface, push.Pushes token surface) → ∀ surface, ¬entry.Pushes token surface)
    (himp : was → now) : (∃ push ∈ log ++ [entry], ∃ surface, push.Pushes token surface) ∧
      (DamageReportedBy grid index token (log ++ [entry]) → now) :=
  ⟨exists_mem_concat.mpr (.inl h.1), fun hr => himp (h.2 (hr.earlier (he h.1)))⟩

section

variable (h : DamageKept grid index log worker)
include h

section

variable (he : ∀ token, (∃ push ∈ log, ∃ surface, push.Pushes token surface) → ∀ surface, ¬entry.Pushes token surface)
include he

theorem own_concat : ∀ token ∈ worker.leases.queuedTokens, ∀ push ∈ log ++ [entry], ∀ surf, push.Pushes token surf →
    surf.damage.Touches grid index → QueueTouches grid index worker.leases.mailbox.queue := by
  intro token htok push hmem surf hp ht
  rcases mem_append.mp hmem with hmem | hmem
  · exact h.own token htok push hmem surf hp ht
  · exact absurd (mem_singleton.mp hmem ▸ hp) (he token (h.queued token htok).1 surf)

/-- A step that leaves the queue and the damage, and neither leases nor pushes a queued token again. -/
theorem keep (hleas : ∀ frame, ¬entry.Leases frame) (hq : next.leases.mailbox.queue = worker.leases.mailbox.queue)
    (hcap : next.leases.mailbox.capacity = worker.leases.mailbox.capacity) (hdama : next.damage = worker.damage)
    (hwait : DamageReported grid index (log ++ [entry]) →
      next.leases.mailbox.closed = true ∨ next.leases.mailbox.Carries grid index ∨ worker.Queues grid index) :
    DamageKept grid index (log ++ [entry]) next := by
  have hqueu : next.Queues grid index ↔ worker.Queues grid index := by
    rw [CaptureWorker.Queues, CaptureWorker.Queues, hq, hdama]
  have htoks : next.leases.queuedTokens = worker.leases.queuedTokens := by
    rw [CaptureLeases.queuedTokens, hq, CaptureLeases.queuedTokens]
  refine ⟨hcap ▸ h.capacity, hdama ▸ h.geometry, fun hr => (hwait hr).imp_right (.imp_right hqueu.mpr), ?_, ?_, ?_⟩
  · rw [htoks]
    exact fun token htok => pushed_concat (h.queued token htok) (he token) hqueu.mpr
  · rw [htoks, hq]
    exact h.own_concat he
  · exact fun frame hl => pushed_concat (h.leased frame (hl.of_concat hleas)) (he _) (hdama ▸ id)

end

/-- A step that touches no damage and no queued frame, and neither pushes nor leases. -/
theorem idle (hpushes : ∀ token surface, ¬entry.Pushes token surface)
    (hleas : ∀ frame, ¬entry.Leases frame) (hrepo : ¬entry.Reports grid index log)
    (hmail : next.leases.mailbox.queue = worker.leases.mailbox.queue ∧
      next.leases.mailbox.carried = worker.leases.mailbox.carried ∧
      next.leases.mailbox.capacity = worker.leases.mailbox.capacity ∧
      (worker.leases.mailbox.closed = true → next.leases.mailbox.closed = true))
    (hdama : next.damage = worker.damage) : DamageKept grid index (log ++ [entry]) next := by
  obtain ⟨hq, hcar, hcap, hc⟩ := hmail
  refine h.keep (fun token _ => hpushes token) hleas hq hcap hdama fun hr => ?_
  rw [CaptureMailbox.Carries, hcar]
  exact (h.waiting (hr.of_concat.resolve_left hrepo).2).imp_left hc

theorem push (token : T) (surface : ValidatedCaptureSurface)
    (hf : ∀ push ∈ log, ∀ surface, ¬push.Pushes token surface) :
    DamageKeptBy grid index log worker (.mailbox (.push token surface)) := by
  rw [DamageKeptBy, CaptureWorker.step, CaptureLeases.step]
  cases hc : worker.leases.mailbox.closed with
  | true =>
    rw [push_closed hc]
    exact h.keep (not_pushes hf) (by simp [Leases]) rfl rfl rfl fun _ => .inl hc
  | false =>
    obtain ⟨queue, release, hp, htoks, -⟩ := push_open hc token surface
    have ht : QueueTouches grid index worker.leases.mailbox.queue ∨
        worker.leases.mailbox.Carries grid index ∨ surface.damage.Touches grid index →
        QueueTouches grid index queue := by
      intro ho
      have := push_open_touches hc h.capacity token ho
      rwa [hp] at this
    have hmem : ∀ other ∈ queue.map (·.token), other ∈ worker.leases.queuedTokens ∨ other = token := by
      intro other hoth
      have : other ∈ worker.leases.mailbox.queue.map (·.token) ++ [token] := htoks ▸ mem_append_right _ hoth
      simpa [CaptureLeases.queuedTokens] using this
    rw [hp]
    -- every report so far is now in the queue or on the map
    have hall : DamageReported grid index (log ++ [(.mailbox (.push token surface),
        .mailbox (.pushed (!false) release))]) →
        QueueTouches grid index queue ∨ worker.damage.pending.Marks index := by
      intro hr
      rcases hr.of_concat with (⟨other, given, hg, hnew⟩ | ⟨damage, hcarry, -⟩ | ⟨tokens, hd, -⟩) |
        ⟨-, ho⟩
      · rw [pushes_iff] at hg
        exact .inl (ht (.inr (.inr (hg.2 ▸ hnew))))
      · cases hcarry
      · cases hd
      · rcases h.waiting ho with hcl | hcarr | hq | hm
        · rw [hc] at hcl
          cases hcl
        · exact .inl (ht (.inr (.inl hcarr)))
        · exact .inl (ht (.inl hq))
        · exact .inr hm
    refine ⟨h.capacity, h.geometry, fun hr => .inr (.inr (hall hr)), ?_, ?_, ?_⟩
    · intro other hoth
      refine ⟨?_, fun hby => hall hby.reported⟩
      rcases hmem other hoth with ho | rfl
      · exact exists_mem_concat.mpr (.inl (h.queued other ho).1)
      · exact exists_mem_concat.mpr (.inr ⟨surface, rfl⟩)
    · intro other hoth push hpushm given hg hgivenTouches
      refine ht ?_
      rcases mem_append.mp hpushm with hearly | hnow
      · rcases hmem other hoth with ho | rfl
        · exact .inl (h.own other ho push hearly given hg hgivenTouches)
        · exact absurd hg (hf push hearly given)
      · rw [mem_singleton.mp hnow, pushes_iff] at hg
        exact .inr (.inr (hg.2 ▸ hgivenTouches))
    · exact fun frame hl => pushed_concat (h.leased frame (hl.of_concat (by simp [Leases]))) (not_pushes hf _) id

theorem takeLatest : DamageKeptBy grid index log worker (.mailbox .takeLatest) := by
  rw [DamageKeptBy, CaptureWorker.step, CaptureLeases.step]
  by_cases hq : worker.leases.mailbox.queue = []
  · rw [takeLatest_empty hq]
    cases worker.leases.mailbox.closed with
    | true | false =>
      exact h.idle (by simp [Pushes]) (by simp [Leases]) (by simp [Reports, Pushes]) ⟨rfl, rfl, rfl, id⟩ rfl
  · obtain ⟨frame, released, htake, htok, ht⟩ := takeLatest_touches hq
    obtain ⟨-, -, hgrid, hm⟩ := worker.damage.observe_eq frame.damage
    rw [h.geometry] at hgrid hm
    rw [htake]
    have hall : worker.Queues grid index → (worker.damage.observe frame.damage).1.pending.Marks index := by
      rintro (hq | ho)
      · exact hm index (.inr (ht grid index hq))
      · exact hm index (.inl ho)
    refine ⟨h.capacity, hgrid, ?_, by simp [CaptureLeases.queuedTokens], by simp [CaptureLeases.queuedTokens], ?_⟩
    · intro hr
      rcases h.waiting (hr.of_concat.resolve_left (by simp [Reports, Pushes])).2 with hc | hcarr | hqueu
      · exact .inl hc
      · exact .inr (.inl hcarr)
      · exact .inr (.inr (.inr (hall hqueu)))
    · intro other hl
      rcases since_concat.mp hl with ⟨released', hrpl⟩ | ⟨hn, -⟩
      · cases hrpl
        exact pushed_concat (h.queued frame.token htok) (by simp [Pushes]) hall
      · exact absurd ⟨released, rfl⟩ (hn frame)

theorem drain : DamageKeptBy grid index log worker (.mailbox .drain) := by
  refine ⟨h.capacity, h.geometry, ?_, nofun, nofun, ?_⟩
  · intro hr
    rcases hr.of_concat with
      (⟨token, surface, hp, -⟩ | ⟨damage, hcarry, -⟩ | ⟨tokens, hd, token, htok, push, hmem, surface, hp, ht⟩) |
      ⟨-, ho⟩
    · cases hp
    · cases hcarry
    · cases hd
      exact .inr (.inl (drain_carries (.inr (h.own token htok push hmem surface hp ht))))
    · rcases h.waiting ho with hc | hcarr | hq | hm
      · exact .inl hc
      · exact .inr (.inl (drain_carries (.inl hcarr)))
      · exact .inr (.inl (drain_carries (.inr hq)))
      · exact .inr (.inr (.inr hm))
  · exact fun frame hl => pushed_concat (h.leased frame (hl.of_concat nofun)) (fun _ => nofun) id

theorem carryDamage (damage : DamageEvidence) :
    DamageKeptBy grid index log worker (.mailbox (.carryDamage damage)) := by
  refine h.keep (fun _ _ => nofun) nofun rfl rfl rfl fun hr => ?_
  rcases hr.of_concat with (⟨token, surface, hp, -⟩ | ⟨given, hcarry, ht⟩ | ⟨tokens, hd, -⟩) | ⟨-, ho⟩
  · cases hp
  · cases hcarry
    exact .inr (.inl (carryDamage_carries (.inr ht)))
  · cases hd
  · rcases h.waiting ho with hc | hcarr | hqueu
    · exact .inl hc
    · exact .inr (.inl (carryDamage_carries (.inl hcarr)))
    · exact .inr (.inr hqueu)

/-- A submission takes every report before it. -/
theorem markSubmitted : DamageKeptBy grid index log worker .markSubmitted := by
  have hn : ¬DamageReported grid index (log ++ [(.markSubmitted, (worker.step .markSubmitted).2)]) :=
    fun hr => (hr.of_concat.resolve_left nofun).1 rfl
  refine ⟨h.capacity, h.geometry, fun hr => absurd hr hn, ?_, ?_, ?_⟩
  · intro token htok
    exact ⟨exists_mem_concat.mpr (.inl (h.queued token htok).1), fun hby => absurd hby.reported hn⟩
  · exact h.own_concat fun _ _ => nofun
  · intro frame hl
    exact ⟨exists_mem_concat.mpr (.inl (h.leased frame (hl.of_concat nofun)).1), fun hby => absurd hby.reported hn⟩

end

theorem init (grid : BlockGrid) (index cap : Nat) : DamageKept grid index [] (captureWorker T grid cap).init where
  capacity := Nat.le_max_right _ _
  geometry := rfl
  waiting := by
    rintro ⟨before, entry, after, hs, -⟩
    simp at hs
  queued := nofun
  own := nofun
  leased := by
    rintro _ ⟨_, _, _, hs, -⟩
    simp at hs

theorem step (h : DamageKept grid index log worker) (call : WorkerCall T)
    (hf : ∀ token surf, call = .mailbox (.push token surf) → ∀ push ∈ log, ∀ surf, ¬push.Pushes token surf) :
    DamageKeptBy grid index log worker call := by
  rcases call with (⟨token, surf⟩ | _ | lease | damage | _ | _) | _
  · exact h.push token surf (hf token surf rfl)
  · exact h.takeLatest
  · rw [DamageKeptBy, CaptureWorker.step, CaptureLeases.step, CaptureLeases.dropLease]
    cases worker.leases.leases[lease]? with
    | none | some =>
      exact h.idle (by simp [Pushes]) (by simp [Leases]) (by simp [Reports, Pushes]) ⟨rfl, rfl, rfl, id⟩ rfl
  · exact h.carryDamage damage
  · exact h.drain
  · rw [DamageKeptBy, CaptureWorker.step, CaptureLeases.step]
    exact h.idle (by simp [Pushes]) (by simp [Leases]) (by simp [Reports, Pushes]) ⟨rfl, rfl, rfl, fun _ => rfl⟩ rfl
  · exact h.markSubmitted

end DamageKept

def WorkerCall.mailbox? : WorkerCall T → Option (MailboxCall T)
  | .mailbox call => some call
  | .markSubmitted => none

def workerPushes (calls : List (WorkerCall T)) : List T := pushedTokens (calls.filterMap WorkerCall.mailbox?)

theorem workerPushes_append (first second : List (WorkerCall T)) :
    workerPushes (first ++ second) = workerPushes first ++ workerPushes second := by
  rw [workerPushes, filterMap_append, pushedTokens, filterMap_append]
  rfl

/-- **Nothing reported is lost**, in every run that pushes no token twice. -/
theorem damageKept_run (grid : BlockGrid) (index cap : Nat) (calls : List (WorkerCall T))
    (hnd : (workerPushes calls).Nodup) :
    DamageKept grid index ((captureWorker T grid cap).log calls) ((captureWorker T grid cap).exec calls) := by
  have hrun := (captureWorker T grid cap).log_invariant
    (P := fun log worker => (workerPushes (log.map Prod.fst)).Nodup → DamageKept grid index log worker)
    (fun _ => .init grid index cap) ?_ calls
  · rw [Machine.map_fst_log] at hrun
    exact hrun hnd
  · intro log worker call ih hnd
    rw [map_append, workerPushes_append] at hnd
    refine (ih hnd.of_append_left).step call fun token surf hcall push hmem given hpushes => ?_
    have hearly : token ∈ workerPushes (log.map Prod.fst) := mem_filterMap.mpr ⟨.push token given, mem_filterMap.mpr
        ⟨push.1, mem_map_of_mem hmem, by rw [hpushes, WorkerCall.mailbox?]⟩, rfl⟩
    refine disjoint_of_nodup_append hnd hearly ?_
    rw [hcall]
    exact mem_singleton_self token

/-! ### Authority -/

/-- Something is pending when a frame was observed, and the verdict is that of the observed frames. -/
structure Judged (log : List (WorkerEntry T)) (damage : PendingCaptureDamage) : Prop where
  pending : damage.isPending = true ↔ ∃ frame, ObservedSince frame log
  authoritative : damage.isPending = true →
    (damage.authoritative = true ↔ ∀ frame, ObservedSince frame log → frame.damage.isRegions = true)

theorem Judged.isAuthoritative {log : List (WorkerEntry T)} {damage : PendingCaptureDamage} (h : Judged log damage) :
    damage.isAuthoritative = true ↔
      damage.isPending = true ∧ ∀ frame, ObservedSince frame log → frame.damage.isRegions = true := by
  rw [PendingCaptureDamage.isAuthoritative, Bool.and_eq_true, and_comm]
  exact and_congr_right h.authoritative

section Judged

variable {log : List (WorkerEntry T)} {damage : PendingCaptureDamage} {entry : WorkerEntry T}

theorem Judged.idle (h : Judged log damage) (hleas : ∀ frame, ¬entry.Leases frame) (hsubm : ¬entry.Submits) :
    Judged (log ++ [entry]) damage := by
  have hobse : ∀ frame, ObservedSince frame (log ++ [entry]) ↔ ObservedSince frame log := by
    intro frame
    rw [ObservedSince, since_concat, or_iff_right (hleas frame), and_iff_right hsubm, ObservedSince]
  exact ⟨by simp only [hobse, h.pending], fun hpend => by simp only [hobse, h.authoritative hpend]⟩

theorem Judged.observe (h : Judged log damage) {frame : QueuedCapture T} (hleas : entry.Leases frame)
    (hsubm : ¬entry.Submits) : Judged (log ++ [entry]) (damage.observe frame.damage).1 := by
  have hobse : ∀ other, ObservedSince other (log ++ [entry]) ↔ other = frame ∨ ObservedSince other log := by
    intro other
    rw [ObservedSince, since_concat, and_iff_right hsubm]
    refine or_congr_left ⟨?_, ?_⟩
    · rintro ⟨released, hoth⟩
      obtain ⟨_, hrpl⟩ := hleas
      rw [hrpl] at hoth
      cases hoth
      rfl
    · rintro rfl
      exact hleas
  have hpend := (damage.observe_eq frame.damage).2.1
  refine ⟨⟨fun _ => ⟨frame, (hobse frame).mpr (.inl rfl)⟩, fun _ => hpend⟩, fun _ => ?_⟩
  simp only [hobse, forall_eq_or_imp]
  rw [PendingCaptureDamage.observe, Bool.and_eq_true, Bool.or_eq_true, Bool.not_eq_true']
  refine and_congr_right fun _ => ?_
  cases hw : damage.isPending with
  | true =>
    rw [← h.authoritative hw]
    exact or_iff_left (Bool.not_eq_false _ ▸ hw)
  | false =>
    -- nothing was observed before
    refine iff_of_true (.inr hw) fun other hoth => ?_
    rw [h.pending.mpr ⟨other, hoth⟩] at hw
    cases hw

theorem Judged.markSubmitted (hsubm : entry.Submits) (hleas : ∀ frame, ¬entry.Leases frame) :
    Judged (log ++ [entry]) damage.markSubmitted := by
  have hn : ∀ frame, ¬ObservedSince frame (log ++ [entry]) := fun frame hobse => (hobse.earlier (hleas frame)).1 hsubm
  exact ⟨iff_of_false Bool.false_ne_true fun ⟨frame, hfr⟩ => hn frame hfr, fun h => absurd h Bool.false_ne_true⟩

end Judged

theorem judged_run (grid : BlockGrid) (cap : Nat) (calls : List (WorkerCall T)) :
    Judged ((captureWorker T grid cap).log calls) ((captureWorker T grid cap).exec calls).damage := by
  refine (captureWorker T grid cap).log_invariant (P := fun log worker => Judged log worker.damage) ?_ ?_ calls
  · have hn : ∀ frame : QueuedCapture T, ¬ObservedSince frame [] := by
      rintro frame ⟨_, _, _, hs, -⟩
      simp at hs
    exact ⟨iff_of_false Bool.false_ne_true fun ⟨frame, hfr⟩ => hn frame hfr, fun h => absurd h Bool.false_ne_true⟩
  · intro log worker call h
    cases call with
    | markSubmitted => exact .markSubmitted rfl nofun
    | mailbox call =>
      change Judged (log ++ [(.mailbox call, .mailbox (worker.leases.step call).2)])
        (CaptureWorker.observeLease worker.damage (worker.leases.step call).2)
      match (worker.leases.step call).2 with
      | .taken (.leased frame released) => exact h.observe ⟨released, rfl⟩ nofun
      | .taken .noFrame | .taken .closed | .pushed _ _ | .dropped _ | .drained _ | .done => exact h.idle nofun nofun

/-! ### Submissions -/

def numberWorkerPushes : Nat → List (WorkerCall T) → List (WorkerCall (Nat × T))
  | _, [] => []
  | number, .mailbox call :: calls =>
    .mailbox (call.numbered number) :: numberWorkerPushes (number + call.pushed?.toList.length) calls
  | number, .markSubmitted :: calls => .markSubmitted :: numberWorkerPushes number calls

theorem mailbox?_numberWorkerPushes (number : Nat) (calls : List (WorkerCall T)) :
    (numberWorkerPushes number calls).filterMap WorkerCall.mailbox? =
      numberPushes number (calls.filterMap WorkerCall.mailbox?) := by
  induction calls generalizing number with
  | nil => rfl
  | cons call calls ih =>
    cases call with
    | markSubmitted => exact ih number
    | mailbox call => exact congrArg (call.numbered number :: ·) (ih _)

/-- **No reported change is lost.** In every run, with the pushes numbered from zero: the map a submission is made with
marks every block that a report since the previous submission touches, if the report was made no later than the push
of the last leased frame. At every moment the map is authoritative exactly when something is pending and every frame
observed since the last submission came with a region list. -/
theorem submission_marks_reported_damage (grid : BlockGrid) (capacity : Nat) (calls : List (WorkerCall T)) :
    let worker := captureWorker (Nat × T) grid capacity
    let log := worker.log (numberWorkerPushes 0 calls)
    let damage := (worker.exec (numberWorkerPushes 0 calls)).damage
    (∀ before map authoritative after, log = before ++ (.markSubmitted, .submitted map authoritative) :: after →
      ∀ index frame, LastLeased frame before → DamageReportedBy grid index frame.token before → map.isDirty index = true) ∧
    (damage.isAuthoritative = true ↔
      damage.isPending = true ∧ ∀ frame, ObservedSince frame log → frame.damage.isRegions = true) ∧
    (damage.isPending = true ↔ ∃ frame, ObservedSince frame log) := by
  intro worker log damage
  have hjudg : Judged log damage := judged_run grid capacity (numberWorkerPushes 0 calls)
  refine ⟨?_, hjudg.isAuthoritative, hjudg.pending⟩
  intro before map authoritative after hs index frame hl hr
  obtain ⟨hcs, hpre, hrpl⟩ := worker.log_split hs
  have hnd : (workerPushes (numberWorkerPushes 0 calls)).Nodup := by
    rw [workerPushes, mailbox?_numberWorkerPushes]
    exact nodup_numberPushes _
  have hkept := damageKept_run grid index capacity (before.map Prod.fst) (by
    rw [hcs, workerPushes_append] at hnd
    exact hnd.of_append_left)
  have hm := (hkept.leased frame (hpre.symm ▸ hl)).2 (hpre.symm ▸ hr)
  cases hrpl
  exact hm.2

end Arcen
