import Arcen.PredictionQueue

/-! No broken prediction chain leaves the video queue. Items are stamped with the call that brought them and with the
push before it; the stamps ride along, since the queue never looks into an item. What was handed out last together
with what waits is a chain at every moment: each delta follows the item of the push before its own. -/

namespace Arcen

open PredictionQueue List

namespace SharedVideoQueue

variable {T : Type}

/-! ### Stamps -/

/-- An item with the index of its call, that of the push before it, and whether it can be decoded by itself: a
pinned recovery, or pushed as a keyframe or recovery point. -/
structure Stamped (T : Type) where
  index : Nat
  prior : Option Nat
  anchor : Bool
  item : T

def Call.stamp (index : Nat) (prior : Option Nat) : Call T → Call (Stamped T)
  | .push item classification now =>
    .push ⟨index, prior, classification.keyframe || classification.recoveryPoint, item⟩ classification now
  | .popFront now => .popFront now
  | .pinGenerationRecovery item now => .pinGenerationRecovery ⟨index, prior, true, item⟩ now
  | .beginGeneration => .beginGeneration
  | .activateGeneration => .activateGeneration
  | .close => .close

def Call.lastPush (index : Nat) (prior : Option Nat) : Call T → Option Nat
  | .push _ _ _ => some index
  | _ => prior

/-- The calls with their items stamped, from an index and the push before it on. -/
def stamp : Nat → Option Nat → List (Call T) → List (Call (Stamped T))
  | _, _, [] => []
  | index, prior, call :: calls => call.stamp index prior :: stamp (index + 1) (call.lastPush index prior) calls

/-- The items the writer got, in order. -/
def popped (log : List (Call T × Reply T)) : List T := log.filterMap fun entry => match entry.2 with
    | .popped item => item
    | _ => none

end SharedVideoQueue

namespace PredictionQueue

open SharedVideoQueue (Call Stamped stamp popped)

variable {T S : Type}

/-! ### Runs of the decisions -/

def handed (q : PredictionQueue T) : Call T → Option T
  | .popFront _ => q.front
  | _ => none

/-- What a run hands to the writer. -/
def pops : PredictionQueue T → List (Call T) → List T
  | _, [] => []
  | q, call :: calls => (q.handed call).toList ++ (q.step call).pops calls

theorem popped_cons (entry : Call T × SharedVideoQueue.Reply T) (log : List (Call T × SharedVideoQueue.Reply T)) :
    popped (entry :: log) = popped [entry] ++ popped log := by
  rw [popped, popped, popped, ← filterMap_append]
  rfl

theorem popped_step (queue : SharedVideoQueue T) (call : Call T) :
    popped [(call, (queue.step call).2)] = (queue.core.handed call).toList := by
  cases call with
  | popFront now =>
    simp only [SharedVideoQueue.step, handed, (queue.core_popFront now).2]
    cases queue.core.front <;> rfl
  | push | pinGenerationRecovery | beginGeneration | activateGeneration
  | close => rfl

/-- The queue hands out what its decisions hand out. -/
theorem popped_logFrom (m : Machine (SharedVideoQueue T) (Call T) (SharedVideoQueue.Reply T))
    (hm : m.step = SharedVideoQueue.step) (queue : SharedVideoQueue T) (calls : List (Call T)) :
    popped (m.logFrom queue calls) = queue.core.pops calls := by
  induction calls generalizing queue with
  | nil => rfl
  | cons call calls ih =>
    rw [Machine.logFrom_cons, popped_cons, ih, hm, popped_step, SharedVideoQueue.core_step]
    rfl

/-! ### The queue never looks into an item -/

def map (f : T → S) (q : PredictionQueue T) : PredictionQueue S where
  capacity := q.capacity
  deque := q.deque.map f
  generationRecovery := q.generationRecovery.map f
  generationChain := q.generationChain
  requireGenerationRecovery := q.requireGenerationRecovery
  protectedFront := q.protectedFront
  awaitingKeyframe := q.awaitingKeyframe
  paused := q.paused
  closed := q.closed

variable (f : T → S)

variable (q : PredictionQueue T)

theorem map_push (item : T) (classification : FrameClassification) :
    (q.push item classification).map f = (q.map f).push (f item) classification := by
  simp only [push, apply_ite (map f)]
  simp [map, ← Option.toList_map]

theorem map_pin (item : T) : (q.pin item).map f = (q.map f).pin (f item) := by
  simp only [pin, apply_ite (map f)]
  simp [map]

theorem map_front : (q.map f).front = q.front.map f := by
  simp only [front, map, head?_map, apply_ite (Option.map f), Option.map_none]

theorem map_pop : q.pop.map f = (q.map f).pop := by
  rw [pop, pop, map_front]
  cases q.front with
  | none => rfl
  | some => simp [map]

theorem map_activate : q.activate.map f = (q.map f).activate := by
  have hr : (q.map f).generationRecovery = q.generationRecovery.map f := rfl
  rw [activate, activate, hr]
  cases hpin : q.generationRecovery with
  | none => rfl
  | some => simp [map]

variable (q : PredictionQueue (Stamped T))

/-- A stamped call does to stamped items what the call does to the items. -/
theorem map_step_stamp (call : Call T) (index : Nat) (prior : Option Nat) :
    (q.step (call.stamp index prior)).map Stamped.item = (q.map Stamped.item).step call := by
  cases call with
  | push => exact map_push _ _ _ _
  | popFront => exact map_pop _ _
  | pinGenerationRecovery => exact map_pin _ _ _
  | beginGeneration | close => rfl
  | activateGeneration => exact map_activate _ _

/-- **Stamps ride along.** -/
theorem pops_stamp (index : Nat) (prior : Option Nat) (calls : List (Call T)) :
    (q.pops (stamp index prior calls)).map Stamped.item = (q.map Stamped.item).pops calls := by
  induction calls generalizing q index prior with
  | nil => rfl
  | cons call calls ih =>
    rw [stamp, pops, map_append, ih, map_step_stamp]
    congr 1
    cases call with
    | popFront =>
      change (q.front.toList).map _ = ((q.map Stamped.item).front).toList
      rw [map_front]
      cases q.front <;> rfl
    | push | pinGenerationRecovery | beginGeneration | activateGeneration
    | close => rfl

/-! ### Chains -/

/-- The entry can follow the item with the last index: it needs no other, no push came before its own, or that push
brought the last item. -/
def Linked (last : Option Nat) (entry : Stamped T) : Prop :=
  entry.anchor = true ∨ entry.prior = none ∨ entry.prior = last

/-- The entries can be handed out in this order after the item with the last index. -/
def Chained : Option Nat → List (Stamped T) → Prop
  | _, [] => True
  | last, entry :: entries => Linked last entry ∧ Chained (some entry.index) entries

def lastIndex : Option Nat → List (Stamped T) → Option Nat
  | last, [] => last
  | _, entry :: entries => lastIndex (some entry.index) entries

theorem lastIndex_concat (last : Option Nat) (entries : List (Stamped T)) (entry : Stamped T) :
    lastIndex last (entries ++ [entry]) = some entry.index := by
  induction entries generalizing last with
  | nil => rfl
  | cons first entries ih => exact ih _

theorem lastIndex_eq (entries : List (Stamped T)) : lastIndex none entries = entries.getLast?.map Stamped.index := by
  induction entries using reverseRecOn with
  | nil => rfl
  | append_singleton => rw [lastIndex_concat, getLast?_concat, Option.map_some]

variable {last : Option Nat} {entries : List (Stamped T)} {entry : Stamped T} {prior : Option Nat}
  {q : PredictionQueue (Stamped T)} {item : T}

theorem chained_toList_head? (h : Chained last entries) : Chained last entries.head?.toList := by
  cases entries with
  | nil => trivial
  | cons => exact ⟨h.1, trivial⟩

theorem chained_append {front back : List (Stamped T)} (hfrt : Chained last front)
    (hback : Chained (lastIndex last front) back) : Chained last (front ++ back) := by
  induction front generalizing last with
  | nil => exact hback
  | cons entry front ih => exact ⟨hfrt.1, ih hfrt.2 hback⟩

theorem Chained.linked (h : Chained last (earlier ++ entry :: later)) : Linked (lastIndex last earlier) entry := by
  induction earlier generalizing last with
  | nil => exact h.1
  | cons first earlier ih => exact ih h.2

/-- The chain of a queue: `last` was handed out last and `prior` pushed last. -/
structure Unbroken (last prior : Option Nat) (q : PredictionQueue (Stamped T)) : Prop where
  flags : WellFlagged q
  chained : Chained last q.deque
  pinned_anchor : ∀ entry, q.generationRecovery = some entry → entry.anchor = true
  behind_anchor : q.generationRecovery.isSome = true → ∀ entry, q.deque.head? = some entry → entry.anchor = true
  intact : q.closed = false → q.awaitingKeyframe = false → prior = none ∨ lastIndex last q.deque = prior

theorem Unbroken.push (h : Unbroken last prior q) (index : Nat) (item : T) (cls : FrameClassification) :
    Unbroken last (some index) (q.push ⟨index, prior, cls.keyframe || cls.recoveryPoint, item⟩ cls) := by
  have hfl := h.flags.push ⟨index, prior, cls.keyframe || cls.recoveryPoint, item⟩ cls
  have heff := h.flags.pushEffect ⟨index, prior, cls.keyframe || cls.recoveryPoint, item⟩ cls
  generalize hent : (⟨index, prior, cls.keyframe || cls.recoveryPoint, item⟩ : Stamped T) = entry at hfl heff ⊢
  have hidx : entry.index = index := by rw [← hent]
  have hpr : entry.prior = prior := by rw [← hent]
  have hpoint : cls.recoveryPoint = true → entry.anchor = true := by
    intro hp
    rw [← hent, hp]
    exact Bool.or_true cls.keyframe
  have hkey : cls.keyframe = true → entry.anchor = true := by
    intro hk
    rw [← hent, hk]
    exact Bool.true_or cls.recoveryPoint
  -- A queue that ends in the new entry is intact.
  have hl : ∀ entries : List (Stamped T), lastIndex last (entries ++ [entry]) = some index := fun entries => by
    rw [lastIndex_concat, hidx]
  generalize q.push entry cls = q' at hfl heff ⊢
  cases heff with
  | refused href =>
    refine ⟨hfl, h.chained, h.pinned_anchor, h.behind_anchor, fun ho hready => ?_⟩
    rcases href with hcl | hawait
    · rw [hcl] at ho
      cases ho
    · rw [hawait] at hready
      cases hready
  | appended ho hawait =>
    refine ⟨hfl, chained_append h.chained ⟨?_, trivial⟩, h.pinned_anchor, fun hpin first hf => ?_, fun _ _ => .inr (hl _)⟩
    · rcases h.intact ho hawait with hnone | hprev
      · exact .inr (.inl (hpr.trans hnone))
      · exact .inr (.inr (hpr.trans hprev.symm))
    · -- Behind a pin a chain that goes on has started.
      have hstar := h.flags.recovered hpin hawait
      refine h.behind_anchor hpin first ?_
      rwa [head?_append_of_ne_nil _ (ne_nil_of_length_pos hstar)] at hf
  | recovered _ hrp =>
    refine ⟨hfl, chained_append h.chained ⟨.inl (hpoint hrp), trivial⟩, h.pinned_anchor, fun hpin first hf => ?_,
      fun _ _ => .inr (hl _)⟩
    rw [head?_append] at hf
    cases hh : q.deque.head? with
    | none =>
      rw [hh] at hf
      obtain rfl := Option.some.inj hf
      exact hpoint hrp
    | some =>
      rw [hh] at hf
      obtain rfl := Option.some.inj hf
      exact h.behind_anchor hpin _ hh
  | overflowedPaused | overflowed =>
    exact ⟨hfl, trivial, h.pinned_anchor, fun _ => nofun, fun _ => nofun⟩
  | restarted hprot _ hrp =>
    have hunpi := h.flags.unpinned_of_protected hprot
    refine ⟨hfl, chained_append (chained_toList_head? h.chained) ⟨.inl (hpoint hrp), trivial⟩,
      h.pinned_anchor, fun hpin => ?_, fun _ _ => .inr (hl _)⟩
    rw [hunpi] at hpin
    cases hpin
  | overflowedProtected hprot =>
    have hunpi := h.flags.unpinned_of_protected hprot
    refine ⟨hfl, chained_toList_head? h.chained, h.pinned_anchor, fun hpin => ?_, fun _ => nofun⟩
    rw [hunpi] at hpin
    cases hpin
  | replaced _ hpin _ _ hk =>
    refine ⟨hfl, ⟨.inl (hkey hk), trivial⟩, h.pinned_anchor, fun hsome => ?_, fun _ _ => .inr (hl [])⟩
    rw [hpin] at hsome
    cases hsome

theorem Unbroken.pop (h : Unbroken last prior q) :
    Chained last q.front.toList ∧ Unbroken (lastIndex last q.front.toList) prior q.pop := by
  have hfl := h.flags.pop
  unfold PredictionQueue.pop at hfl ⊢
  cases hfrt : q.front with
  | none => exact ⟨trivial, h⟩
  | some =>
    rw [hfrt] at hfl
    have hpause : q.paused ≠ true := fun hp => by
      rw [front, if_pos hp] at hfrt
      cases hfrt
    rw [front, if_neg hpause] at hfrt
    obtain ⟨rest, hd⟩ := head?_eq_some_iff.mp hfrt
    have hchd := h.chained
    have hint := h.intact
    rw [hd] at hchd hint
    refine ⟨⟨hchd.1, trivial⟩, hfl, ?_, h.pinned_anchor, ?_, ?_⟩
    · simp only [hd]
      exact hchd.2
    · exact fun hpin => absurd (h.flags.pinned hpin).1 hpause
    · simp only [hd, tail_cons]
      exact hint

theorem Unbroken.pin (h : Unbroken last prior q) (ha : entry.anchor = true) : Unbroken last prior (q.pin entry) := by
  have hfl := h.flags.pin entry
  unfold PredictionQueue.pin at hfl ⊢
  split_ifs at hfl ⊢ with href
  · exact h
  · exact ⟨hfl, trivial, fun other heq => Option.some.inj heq ▸ ha, fun _ => nofun, fun _ => nofun⟩

/-- Only the first entry of a chain sees what came before. -/
theorem Chained.restart (h : Chained last entries)
    (ha : ∀ entry, entries.head? = some entry → entry.anchor = true) : Chained other entries := by
  cases entries with
  | nil => trivial
  | cons entry => exact ⟨.inl (ha entry rfl), h.2⟩

section

variable (h : Unbroken last prior q)
include h

theorem Unbroken.activate : Unbroken last prior q.activate := by
  have hfl := h.flags.activate
  unfold PredictionQueue.activate at hfl ⊢
  cases hr : q.generationRecovery with
  | none => exact h
  | some recovery =>
    rw [hr] at hfl
    have hpin : q.generationRecovery.isSome = true := by rw [hr]; rfl
    refine ⟨hfl, ⟨.inl (h.pinned_anchor recovery hr), h.chained.restart (h.behind_anchor hpin)⟩,
      nofun, nofun, fun ho hready => ?_⟩
    -- The recovered chain behind the pin keeps the last entry last.
    have hstar := h.flags.recovered hpin hready
    have hint := h.intact ho hready
    obtain ⟨first, rest, hd⟩ := exists_cons_of_length_pos hstar
    rw [hd] at hint
    simp only [hd]
    exact hint

theorem Unbroken.begin : Unbroken last prior q.begin := ⟨h.flags.begin, trivial, nofun, nofun, fun _ => nofun⟩

/-- **One call** hands out nothing that breaks the chain. -/
theorem Unbroken.step (index : Nat) (call : Call T) : Chained last (q.handed (call.stamp index prior)).toList ∧
      Unbroken (lastIndex last (q.handed (call.stamp index prior)).toList) (call.lastPush index prior)
        (q.step (call.stamp index prior)) := by
  cases call with
  | push item cls => exact ⟨trivial, h.push index item cls⟩
  | popFront => exact h.pop
  | pinGenerationRecovery => exact ⟨trivial, h.pin rfl⟩
  | beginGeneration => exact ⟨trivial, h.begin⟩
  | activateGeneration => exact ⟨trivial, h.activate⟩
  | close => exact ⟨trivial, h.flags.step .close, h.chained, h.pinned_anchor, h.behind_anchor, nofun⟩

/-- **A run** hands out a chain. -/
theorem Unbroken.pops (index : Nat) (calls : List (Call T)) : Chained last (q.pops (stamp index prior calls)) := by
  induction calls generalizing q last prior index with
  | nil => trivial
  | cons call calls ih =>
    obtain ⟨hhand, hnext⟩ := h.step index call
    exact chained_append hhand (ih hnext (index + 1))

end

/-! ### An activated pin -/

theorem step_capacity (q : PredictionQueue T) (call : Call T) : (q.step call).capacity = q.capacity := by
  cases call with
  | push => simp only [step, push, apply_ite capacity, ite_self]
  | popFront =>
    simp only [step, pop]
    split <;> rfl
  | pinGenerationRecovery =>
    simp only [step, pin]
    split_ifs <;> rfl
  | beginGeneration | close => rfl
  | activateGeneration =>
    simp only [step, activate]
    split <;> rfl

theorem pop_paused (q : PredictionQueue T) :
    q.pop.paused = q.paused ∧ q.pop.generationRecovery = q.generationRecovery := by
  unfold pop
  split <;> exact ⟨rfl, rfl⟩

/-- An activated pin waits to be handed out next. -/
structure Fronted (item : T) (q : PredictionQueue T) : Prop where
  flags : WellFlagged q
  unpaused : q.paused = false
  protectedFront : q.protectedFront = true
  head : q.deque.head? = some item

variable {q : PredictionQueue T}

theorem Fronted.push (h : Fronted item q) (cls : FrameClassification) : Fronted item (q.push other cls) := by
  have hfl := h.flags.push other cls
  have heff := h.flags.pushEffect other cls
  generalize q.push other cls = q' at hfl heff ⊢
  have hh : ∀ entries, (q.deque ++ entries).head? = some item := fun entries => by
    rw [head?_append, h.head]
    rfl
  cases heff with
  | refused => exact h
  | appended | recovered => exact ⟨hfl, h.unpaused, h.protectedFront, hh _⟩
  | overflowedPaused hpause =>
    rw [h.unpaused] at hpause
    cases hpause
  | restarted | overflowedProtected => exact ⟨hfl, h.unpaused, h.protectedFront, by rw [h.head]; rfl⟩
  | replaced hprot | overflowed hprot =>
    rw [h.protectedFront] at hprot
    cases hprot

theorem Fronted.step (h : Fronted item q)
    (hbegin : call ≠ .beginGeneration) (hpop : ∀ now, call ≠ .popFront now) : Fronted item (q.step call) := by
  cases call with
  | push _ cls => exact h.push cls
  | popFront now => exact absurd rfl (hpop now)
  | pinGenerationRecovery other =>
    have href : q.pin other = q := by
      rw [pin]
      rw [h.unpaused]
      simp
    change Fronted item (q.pin other)
    rwa [href]
  | beginGeneration => exact absurd rfl hbegin
  | activateGeneration =>
    have hidle : q.activate = q := by
      rw [activate, h.flags.unpinned_of_protected h.protectedFront]
    change Fronted item q.activate
    rwa [hidle]
  | close => exact ⟨h.flags.step .close, h.unpaused, h.protectedFront, h.head⟩

theorem WellFlagged.activate_fronted (h : WellFlagged q)
    (hpin : q.generationRecovery = some item) : Fronted item q.activate := by
  have hfl := h.activate
  rw [PredictionQueue.activate, hpin] at hfl ⊢
  exact ⟨hfl, rfl, rfl, rfl⟩

end PredictionQueue

namespace SharedVideoQueue

open PredictionQueue (WellFlagged Unbroken Chained Linked lastIndex pops_stamp popped_logFrom)

/-! ### The barrier -/

/-- A generation that begins raises the barrier, one that is activated lifts it. -/
def barrierAfter (barrier : Bool) : Call T × Reply T → Bool
  | (.beginGeneration, _) => true
  | (_, .activated true) => false
  | _ => barrier

/-- The run is at a barrier: a generation began that was not activated yet. -/
def atBarrier (log : List (Call T × Reply T)) : Bool := log.foldl barrierAfter false

def pinnedAfter (pinned : Option T) : Call T × Reply T → Option T
  | (.pinGenerationRecovery item _, .pinned result) => if result.accepted then some item else pinned
  | _ => pinned

variable (log : List (Call T × Reply T))

/-- The item of the last pin that was accepted. -/
def lastPinned : Option T := log.foldl pinnedAfter none

variable (entry : Call T × Reply T)

theorem atBarrier_concat : atBarrier (log ++ [entry]) = barrierAfter (atBarrier log) entry := foldl_concat ..

theorem lastPinned_concat : lastPinned (log ++ [entry]) = pinnedAfter (lastPinned log) entry := foldl_concat ..

/-- What the log says about the barrier and the pin is what the queue holds. -/
structure Recorded (log : List (Call T × Reply T)) (queue : SharedVideoQueue T) : Prop where
  flags : WellFlagged queue.core
  paused : queue.paused = atBarrier log
  pinned : ∀ item, queue.core.generationRecovery = some item → lastPinned log = some item

theorem Recorded.step {log : List (Call T × Reply T)} (h : Recorded log queue)
    (call : Call T) : Recorded (log ++ [(call, (queue.step call).2)]) (queue.step call).1 := by
  have hcore := core_step queue call
  have hfl : WellFlagged (queue.step call).1.core := hcore ▸ h.flags.step call
  -- A call that touches neither the barrier nor the pin.
  have hkept : (queue.core.step call).paused = queue.core.paused →
      (queue.core.step call).generationRecovery = queue.core.generationRecovery →
      barrierAfter (atBarrier log) (call, (queue.step call).2) = atBarrier log →
      pinnedAfter (lastPinned log) (call, (queue.step call).2) = lastPinned log →
      Recorded (log ++ [(call, (queue.step call).2)]) (queue.step call).1 := by
    intro hpause hr hbarr hl
    refine ⟨hfl, ?_, fun item hi => ?_⟩
    · rw [atBarrier_concat, hbarr, ← h.paused]
      exact (congrArg PredictionQueue.paused hcore).trans hpause
    · rw [lastPinned_concat, hl]
      rw [hcore, hr] at hi
      exact h.pinned item hi
  cases call with
  | push =>
    refine hkept ?_ ?_ rfl rfl
    · simp only [PredictionQueue.step, PredictionQueue.push, apply_ite PredictionQueue.paused, ite_self]
    · simp only [PredictionQueue.step, PredictionQueue.push, apply_ite PredictionQueue.generationRecovery, ite_self]
  | popFront =>
    obtain ⟨hpause, hr⟩ := queue.core.pop_paused
    exact hkept hpause hr rfl rfl
  | pinGenerationRecovery item now =>
    by_cases href : queue.closed || !queue.paused || queue.generationRecovery.isSome
    · have hsame : queue.pinGenerationRecovery item now = (queue, ⟨false, 0, false, none⟩) := if_pos href
      have hcoreSame : queue.core.pin item = queue.core := by
        rw [← core_pin queue item now, hsame]
      refine hkept (congrArg _ hcoreSame) (congrArg _ hcoreSame) rfl ?_
      simp only [SharedVideoQueue.step, hsame]
      rfl
    · refine ⟨hfl, ?_, ?_⟩
      · rw [atBarrier_concat]
        simp only [SharedVideoQueue.step, pinGenerationRecovery, if_neg href]
        exact h.paused
      · intro other hoth
        rw [lastPinned_concat]
        simp only [SharedVideoQueue.step, pinGenerationRecovery, if_neg href] at hoth ⊢
        exact hoth
  | beginGeneration =>
    refine ⟨hfl, ?_, fun _ hoth => by cases hoth⟩
    rw [atBarrier_concat]
    rfl
  | activateGeneration =>
    cases hr : queue.generationRecovery with
    | none =>
      have hidle : queue.activateGeneration = (queue, false) := by rw [activateGeneration, hr]
      have hcoreIdle : queue.core.activate = queue.core := by rw [← core_activate, hidle]
      refine hkept (congrArg _ hcoreIdle) (congrArg _ hcoreIdle) ?_ rfl
      simp only [SharedVideoQueue.step, hidle]
      rfl
    | some =>
      refine ⟨hfl, ?_, ?_⟩
      · rw [atBarrier_concat]
        simp only [SharedVideoQueue.step]
        rw [activateGeneration, hr]
        rfl
      · intro item hi
        simp only [SharedVideoQueue.step] at hi
        rw [activateGeneration, hr] at hi
        cases hi
  | close => exact hkept rfl rfl rfl rfl

section Runs

variable (T) (capacity interval : Nat)

theorem wellFlagged_new (hc : 2 ≤ capacity) : WellFlagged (new capacity interval : SharedVideoQueue T).core :=
  ⟨hc, nofun, nofun, by rintro (⟨hpause, -⟩ | hprot) <;> contradiction, nofun, nofun, nofun, nofun, Nat.zero_le _⟩

theorem unbroken_new (hc : 2 ≤ capacity) :
    Unbroken none none (new capacity interval : SharedVideoQueue (Stamped T)).core :=
  ⟨wellFlagged_new _ _ _ hc, trivial, nofun, nofun, fun _ _ => .inl rfl⟩

variable {T}

theorem recorded_log (hc : 2 ≤ capacity) (calls : List (Call T)) :
    Recorded ((machine T capacity interval).log calls) ((machine T capacity interval).exec calls) :=
  (machine T capacity interval).log_invariant (P := Recorded) ⟨wellFlagged_new _ _ _ hc, rfl, nofun⟩
    (fun _ _ call h => h.step call) calls

/-- An activated pin stays in front until it is popped or a generation begins. -/
theorem fronted_exec (h : PredictionQueue.Fronted item queue.core)
    (calls : List (Call T)) (hcs : ∀ call ∈ calls, call ≠ .beginGeneration ∧ ∀ now, call ≠ .popFront now) :
    PredictionQueue.Fronted item ((machine T capacity interval).execFrom queue calls).core := by
  induction calls generalizing queue with
  | nil => exact h
  | cons call calls ih =>
    obtain ⟨hbegin, hpop⟩ := hcs call mem_cons_self
    refine ih ?_ fun other hoth => hcs other (mem_cons_of_mem _ hoth)
    change PredictionQueue.Fronted item (queue.step call).1.core
    rw [core_step]
    exact h.step hbegin hpop

/-- **The prediction chain.** What the writer gets is the stamped run with its stamps taken off, and in it every
delta either was the first push or comes right after the item of the push before its own. After an activation the
pinned item comes next, at a barrier nothing comes, and the buffers stay within the capacity. -/
theorem prediction_chain_unbroken (hcapacity : 2 ≤ capacity) (calls : List (Call T)) :
    (popped ((machine T capacity interval).log calls) =
        (popped ((machine (Stamped T) capacity interval).log (stamp 0 none calls))).map Stamped.item ∧
      ∀ earlier entry later,
        popped ((machine (Stamped T) capacity interval).log (stamp 0 none calls)) = earlier ++ entry :: later →
        entry.anchor = false →
        entry.prior = none ∨ ∃ previous ∈ earlier.getLast?, entry.prior = some previous.index) ∧
    (∀ between now, ((machine T capacity interval).exec calls).activateGeneration.2 = true →
      (∀ call ∈ between, call ≠ .beginGeneration ∧ ∀ now, call ≠ .popFront now) →
      ∃ item, lastPinned ((machine T capacity interval).log calls) = some item ∧
        (((machine T capacity interval).exec (calls ++ .activateGeneration :: between)).popFront now).2 = some item) ∧
    (∀ now, atBarrier ((machine T capacity interval).log calls) = true →
      (((machine T capacity interval).exec calls).popFront now).2 = none) ∧
    ((machine T capacity interval).exec calls).deque.length +
      ((machine T capacity interval).exec calls).generationRecovery.isSome.toNat ≤ capacity := by
  have hreco := recorded_log capacity interval hcapacity calls
  refine ⟨⟨?_, ?_⟩, ?_, ?_, ?_⟩
  · rw [Machine.log, Machine.log, popped_logFrom _ rfl, popped_logFrom _ rfl, pops_stamp]
    rfl
  · intro earlier entry later hpopp hdel
    rw [Machine.log, popped_logFrom _ rfl] at hpopp
    have hchd := (unbroken_new T capacity interval hcapacity).pops 0 calls
    change pops (core (new capacity interval)) (stamp 0 none calls) = _ at hpopp
    rw [hpopp] at hchd
    rcases hchd.linked with ha | hf | hprevi
    · rw [hdel] at ha
      cases ha
    · exact .inl hf
    · rw [lastIndex_eq] at hprevi
      cases hl : earlier.getLast? with
      | none => exact .inl (by rw [hprevi, hl]; rfl)
      | some previous => exact .inr ⟨previous, rfl, by rw [hprevi, hl]; rfl⟩
  · intro between now hacti hbtw
    obtain ⟨recovery, hr⟩ : ∃ recovery,
        ((machine T capacity interval).exec calls).generationRecovery = some recovery := by
      rw [activateGeneration] at hacti
      split at hacti
      · cases hacti
      · next recovery hsome => exact ⟨recovery, hsome⟩
    have hpin : ((machine T capacity interval).exec calls).core.generationRecovery = some recovery.item :=
      congrArg (Option.map QueuedVideo.item) hr
    refine ⟨recovery.item, hreco.pinned _ hpin, ?_⟩
    have hfron := hreco.flags.activate_fronted hpin
    rw [← core_activate] at hfron
    have hfinal := fronted_exec capacity interval hfron between hbtw
    rw [Machine.exec_append, (core_popFront _ now).2, front, if_neg]
    · exact hfinal.head
    · exact Bool.eq_false_iff.mp hfinal.unpaused
  · intro now hbarr
    rw [← hreco.paused] at hbarr
    rw [(core_popFront _ now).2, front, if_pos]
    exact hbarr
  · have hbd := hreco.flags.bound
    have hcap : ((machine T capacity interval).exec calls).core.capacity = capacity :=
      (machine T capacity interval).invariant (P := fun queue => queue.core.capacity = capacity) rfl
        (fun queue call hq => by
          change (queue.step call).1.core.capacity = capacity
          rw [core_step, PredictionQueue.step_capacity, hq]) calls
    rw [hcap] at hbd
    simpa only [core, length_map, Option.isSome_map] using hbd

/-- A pinned item is handed out first although a delta is pushed before the writer asks. -/
theorem prediction_chain_unbroken_activation : 2 ≤ 2 ∧ ∃ item,
      lastPinned ((machine Nat 2 0).log [.beginGeneration, .pinGenerationRecovery 7 0]) = some item ∧
      (((machine Nat 2 0).exec ([.beginGeneration, .pinGenerationRecovery 7 0] ++
        .activateGeneration :: [.push 8 ⟨false, false⟩ 1])).popFront 2).2 = some item :=
  ⟨Nat.le_refl 2, (prediction_chain_unbroken 2 0 (Nat.le_refl 2) [.beginGeneration, .pinGenerationRecovery 7 0]).2.1
    [.push 8 ⟨false, false⟩ 1] 2 rfl (by simp)⟩

end Runs

end SharedVideoQueue
end Arcen
