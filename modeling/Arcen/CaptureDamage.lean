import Arcen.CaptureMailboxRuns

/-! Damage on its way from the producer to a submitted picture (`shared/media/src/video/capture_lease.rs`). The worker
observes the damage of every frame it leases, and now and then submits a picture. What a report touches stays in the
damage that waits in the mailbox, in a queued frame, or on the pending map, until a submission takes it. -/

namespace Arcen

open ExternalDamage List

def DamageEvidence.isRegions : DamageEvidence → Bool
  | .regions _ => true
  | .unknown | .full => false

/-- The blocks a report touches: those of its rectangles, or every block. -/
def DamageEvidence.Touches (grid : BlockGrid) (index : Nat) : DamageEvidence → Prop
  | .regions rects => ∃ rect ∈ rects, grid.Touches rect index
  | .unknown | .full => index < grid.blockCount

/-! ### The pending map -/

theorem PendingExternalDamage.observe_grid (self : PendingExternalDamage) (map : DamageMap) :
    (self.observe map).1.damage.grid = self.damage.grid := by
  have hbase : (if self.pending then self.damage else self.damage.reset).grid = self.damage.grid := by
    split_ifs <;> rfl
  rw [observe, mergeFrom]
  by_cases hgrid : map.grid = (if self.pending then self.damage else self.damage.reset).grid
  · rw [if_neg (not_not.mpr hgrid)]
    exact hbase
  · rw [if_pos hgrid]
    exact hbase

/-- Damage of frames observed but not yet submitted; both accumulators have one geometry. -/
structure PendingCaptureDamage where
  pending : PendingExternalDamage
  scratch : ExternalDamage
  authoritative : Bool
  aligned : scratch.grid = pending.damage.grid

namespace PendingCaptureDamage

def new (grid : BlockGrid) : PendingCaptureDamage := ⟨.new grid, .new grid, false, rfl⟩

variable (scratch : ExternalDamage)

def markReport : DamageEvidence → ExternalDamage
  | .regions rects => rects.foldl .markRect scratch.reset
  | .unknown | .full => scratch.reset.markFullFrame

theorem markReport_grid (damage : DamageEvidence) : (markReport scratch damage).grid = scratch.grid := by
  cases damage with
  | unknown | full => exact markRect_grid _ _
  | regions => exact foldl_markRect_grid _ _

def observe (self : PendingCaptureDamage) (damage : DamageEvidence) : PendingCaptureDamage × Except KeelError Unit :=
  let authoritative := damage.isRegions && (self.authoritative || !self.pending.pending)
  let scratch := markReport self.scratch damage
  ({ pending := (self.pending.observe scratch.damageMap).1
     scratch
     authoritative
     aligned := by rw [markReport_grid, self.pending.observe_grid, self.aligned] },
    (self.pending.observe scratch.damageMap).2)

def markSubmitted (self : PendingCaptureDamage) : PendingCaptureDamage :=
  { self with pending := self.pending.markSubmitted }

def damageMap (self : PendingCaptureDamage) : DamageMap := self.pending.damageMap

variable (self : PendingCaptureDamage)

def isPending : Bool := self.pending.pending

def isAuthoritative : Bool := self.authoritative && self.pending.pending

variable {self : PendingCaptureDamage} {damage : DamageEvidence} {index : Nat}

theorem isDirty_markReport {scratch : ExternalDamage} (h : damage.Touches scratch.grid index) :
    (markReport scratch damage).damageMap.isDirty index = true := by
  cases damage with
  | unknown | full => exact isDirty_markFullFrame h
  | regions rects => exact (isDirty_foldl_markRect rects _).mpr (.inr h)

/-- An observation never fails, keeps what is marked and marks what it touches. -/
theorem observe_eq (self : PendingCaptureDamage) (damage : DamageEvidence) :
    (self.observe damage).2 = .ok () ∧ (self.observe damage).1.isPending = true ∧
      (self.observe damage).1.pending.damage.grid = self.pending.damage.grid ∧
      ∀ index, self.pending.Marks index ∨ damage.Touches self.pending.damage.grid index →
        (self.observe damage).1.pending.Marks index := by
  have hgrid : (markReport self.scratch damage).damageMap.grid = self.pending.damage.grid :=
    (markReport_grid _ _).trans self.aligned
  obtain ⟨_, hobse, hmerg, hdirty⟩ := PendingExternalDamage.observe_of_grid hgrid
  simp only [observe, isPending, hobse, true_and]
  refine ⟨hmerg, fun index h => ⟨rfl, (hdirty index).mpr (h.imp_right fun ht => ?_)⟩⟩
  exact isDirty_markReport (self.aligned ▸ ht)

end PendingCaptureDamage

/-! ### The worker -/

structure CaptureWorker (T : Type) where
  leases : CaptureLeases T
  damage : PendingCaptureDamage

/-- A call on the mailbox, or a submission of the pending picture. -/
inductive WorkerCall (T : Type) where
  | mailbox (call : MailboxCall T)
  | markSubmitted

/-- The mailbox's reply, or the map and the verdict the submission is made with. -/
inductive WorkerReply (T : Type) where
  | mailbox (reply : MailboxReply T)
  | submitted (map : DamageMap) (authoritative : Bool)

namespace CaptureWorker

variable {T : Type}

/-- The worker observes what it leases before it does anything else. -/
def observeLease (damage : PendingCaptureDamage) : MailboxReply T → PendingCaptureDamage
  | .taken (.leased frame _) => (damage.observe frame.damage).1
  | _ => damage

def step (worker : CaptureWorker T) : WorkerCall T → CaptureWorker T × WorkerReply T
  | .mailbox call =>
    let (leases, reply) := worker.leases.step call
    (⟨leases, observeLease worker.damage reply⟩, .mailbox reply)
  | .markSubmitted =>
    ({ worker with damage := worker.damage.markSubmitted },
      .submitted worker.damage.damageMap worker.damage.isAuthoritative)

end CaptureWorker

def captureWorker (T : Type) (grid : BlockGrid) (capacity : Nat) :
    Machine (CaptureWorker T) (WorkerCall T) (WorkerReply T) where
  init := ⟨⟨.new capacity, []⟩, .new grid⟩
  step := CaptureWorker.step

/-! ### Damage inside the mailbox -/

section Mailbox

variable {T : Type} {grid : BlockGrid} {index : Nat} {mailbox : CaptureMailbox T}

namespace DamageEvidence

theorem Touches.lt {damage : DamageEvidence} (h : damage.Touches grid index) : index < grid.blockCount := by
  cases damage with
  | unknown | full => exact h
  | regions =>
    obtain ⟨_, -, ht⟩ := h
    exact ht.lt

/-- A union touches what either report touches, also where it is too long to be kept as a list. -/
theorem Touches.union {older newer : DamageEvidence} (h : older.Touches grid index ∨ newer.Touches grid index) :
    (older.union newer).Touches grid index := by
  have hlt : index < grid.blockCount := h.elim Touches.lt Touches.lt
  match older, newer with
  | .regions older, .regions newer =>
    rw [DamageEvidence.union]
    split_ifs
    · exact hlt
    · rcases h with ⟨rect, hmem, ht⟩ | ⟨rect, hmem, ht⟩
      · exact ⟨rect, mem_append_left _ hmem, ht⟩
      · exact ⟨rect, mem_append_right _ hmem, ht⟩
  | .full, .regions _ | .full, .full | .full, .unknown
  | .unknown, .regions _ | .unknown, .full | .unknown, .unknown
  | .regions _, .full | .regions _, .unknown => exact hlt

end DamageEvidence

def CaptureMailbox.Carries (grid : BlockGrid) (index : Nat) (mailbox : CaptureMailbox T) : Prop :=
  ∃ damage, mailbox.carried = some damage ∧ damage.Touches grid index

def QueueTouches (grid : BlockGrid) (index : Nat) (queue : List (QueuedCapture T)) : Prop :=
  ∃ frame ∈ queue, frame.damage.Touches grid index

theorem touches_carryInto
    (h : (∃ older, carried = some older ∧ older.Touches grid index) ∨ damage.Touches grid index) :
    (carryInto carried damage).Touches grid index := by
  cases carried with
  | none =>
    rcases h with ⟨older, hnone, -⟩ | h
    · cases hnone
    · exact h
  | some =>
    refine DamageEvidence.Touches.union (h.imp_left ?_)
    rintro ⟨_, hsome, ht⟩
    exact Option.some.inj hsome ▸ ht

theorem touches_foldl_supersede {newest : QueuedCapture T}
    (h : newest.damage.Touches grid index ∨ QueueTouches grid index older) :
    (older.foldl .supersede newest).damage.Touches grid index := by
  induction older generalizing newest with
  | nil =>
    rcases h with h | ⟨frame, hmem, -⟩
    · exact h
    · cases hmem
  | cons frame older ih =>
    refine ih ?_
    rcases h with h | ⟨other, hmem, ht⟩
    · exact .inl (.union (.inr h))
    · rcases mem_cons.mp hmem with rfl | hmem
      · exact .inl (.union (.inl ht))
      · exact .inr ⟨other, hmem, ht⟩

theorem touches_dropOldest (hc : 1 ≤ cap) (h : QueueTouches grid index (oldest :: newer)) :
    QueueTouches grid index (dropOldest cap oldest newer).1 := by
  induction newer generalizing oldest with
  | nil =>
    rw [dropOldest, if_neg (Nat.not_lt.mpr hc)]
    exact h
  | cons next newer ih =>
    rw [dropOldest]
    split_ifs
    · refine ih ?_
      obtain ⟨frame, hmem, ht⟩ := h
      rcases mem_cons.mp hmem with rfl | hmem
      · exact ⟨next.supersede frame, mem_cons_self, .union (.inl ht)⟩
      · rcases mem_cons.mp hmem with rfl | hmem
        · exact ⟨frame.supersede oldest, mem_cons_self, .union (.inr ht)⟩
        · exact ⟨frame, mem_cons_of_mem _ hmem, ht⟩
    · exact h

theorem touches_dropToCapacity (hc : 1 ≤ cap)
    (h : QueueTouches grid index queue) : QueueTouches grid index (dropToCapacity cap queue).1 := by
  cases queue with
  | nil => exact h
  | cons => exact touches_dropOldest hc h

namespace CaptureMailbox

/-- The frame of a push into an open mailbox takes over the damage that waits, and no damage of the queue is lost. -/
theorem push_open_touches (hopen : mailbox.closed = false) (hc : 1 ≤ mailbox.capacity) (token : T)
    (h : QueueTouches grid index mailbox.queue ∨ mailbox.Carries grid index ∨ surface.damage.Touches grid index) :
    QueueTouches grid index (mailbox.push token surface).1.queue := by
  rw [push, if_neg (Bool.eq_false_iff.mp hopen)]
  refine touches_dropToCapacity hc ?_
  rcases h with ⟨frame, hmem, ht⟩ | hnew
  · exact ⟨frame, mem_append_left _ hmem, ht⟩
  · exact ⟨_, mem_append_right _ (mem_singleton_self _), touches_carryInto hnew⟩

/-- The leased frame comes with the damage of the whole queue. -/
theorem takeLatest_touches (hq : mailbox.queue ≠ []) : ∃ frame released, mailbox.takeLatest =
        ({ mailbox with queue := [], outstanding := mailbox.outstanding - released.length }, .leased frame released) ∧
      frame.token ∈ mailbox.queue.map (·.token) ∧
      ∀ grid index, QueueTouches grid index mailbox.queue → frame.damage.Touches grid index := by
  obtain ⟨older, newest, hq⟩ := (eq_nil_or_concat' mailbox.queue).resolve_left hq
  refine ⟨older.reverse.foldl .supersede newest, older.reverse.map (·.token), ?_, ?_, ?_⟩
  · rw [takeLatest, hq, reverse_append, reverse_singleton, singleton_append, length_map]
  · rw [foldl_supersede_token, hq, map_append]
    exact mem_append_right _ (mem_singleton_self _)
  · rintro _ _ ⟨frame, hmem, ht⟩
    refine touches_foldl_supersede ?_
    rw [hq, mem_append, mem_singleton] at hmem
    rcases hmem with hmem | rfl
    · exact .inr ⟨frame, mem_reverse.mpr hmem, ht⟩
    · exact .inl ht

theorem carryDamage_carries (h : mailbox.Carries grid index ∨ damage.Touches grid index) :
    (mailbox.carryDamage damage).Carries grid index := ⟨_, rfl, touches_carryInto h⟩

theorem touches_foldl_carryInto {queue : List (QueuedCapture T)} (drained : Option DamageEvidence)
    (h : (∃ damage, drained = some damage ∧ damage.Touches grid index) ∨ QueueTouches grid index queue) :
    ∃ damage, queue.foldl (fun drained frame => some (carryInto drained frame.damage)) drained = some damage ∧
      damage.Touches grid index := by
  induction queue generalizing drained with
  | nil =>
    rcases h with h | ⟨frame, hmem, -⟩
    · exact h
    · cases hmem
  | cons frame queue ih =>
    refine ih _ ?_
    rcases h with h | ⟨other, hmem, ht⟩
    · exact .inl ⟨_, rfl, touches_carryInto (.inl h)⟩
    · rcases mem_cons.mp hmem with rfl | hmem
      · exact .inl ⟨_, rfl, touches_carryInto (.inr ht)⟩
      · exact .inr ⟨other, hmem, ht⟩

theorem drain_carries (h : mailbox.Carries grid index ∨ QueueTouches grid index mailbox.queue) :
    mailbox.drain.1.Carries grid index := by
  unfold drain Carries
  rcases h with ⟨carried, hcar, ht⟩ | hq
  · cases mailbox.queue.foldl (fun drained frame => some (carryInto drained frame.damage)) none with
    | none => exact ⟨carried, hcar, ht⟩
    | some => exact ⟨_, rfl, touches_carryInto (.inl ⟨carried, hcar, ht⟩)⟩
  · obtain ⟨_, hdrai, ht⟩ := touches_foldl_carryInto none (.inr hq)
    rw [hdrai]
    exact ⟨_, rfl, touches_carryInto (.inr ht)⟩

end CaptureMailbox
end Mailbox
end Arcen
