import Arcen.CaptureMailbox

/-! Where every buffer of a capture mailbox is, over whole runs. Every push is numbered, since a producer may push
the same buffer again once it has it back; a numbered token is queued, held by one lease or was handed back once. -/

namespace Arcen

open MailboxCall CaptureLeases CaptureMailbox List

variable {T : Type}

/-! ### What the calls do with tokens -/

variable (cap : Nat)

variable (oldest : QueuedCapture T)

theorem dropOldest_tokens (newer : List (QueuedCapture T)) :
    (dropOldest cap oldest newer).2 ++ (dropOldest cap oldest newer).1.map (·.token) =
      oldest.token :: newer.map (·.token) := by
  induction newer generalizing oldest with
  | nil =>
    rw [dropOldest]
    split_ifs <;> rfl
  | cons next newer ih =>
    rw [dropOldest]
    split_ifs
    · exact congrArg (oldest.token :: ·) (ih (next.supersede oldest))
    · rfl

theorem dropOldest_length (newer : List (QueuedCapture T)) : (dropOldest cap oldest newer).1.length ≤ cap := by
  induction newer generalizing oldest with
  | nil =>
    rw [dropOldest]
    split_ifs with h
    · exact Nat.zero_le _
    · exact Nat.not_lt.mp h
  | cons next newer ih =>
    rw [dropOldest]
    split_ifs with h
    · exact ih (next.supersede oldest)
    · exact Nat.not_lt.mp h

variable (queue : List (QueuedCapture T))

theorem dropToCapacity_tokens :
    (dropToCapacity cap queue).2 ++ (dropToCapacity cap queue).1.map (·.token) = queue.map (·.token) := by
  cases queue with
  | nil => rfl
  | cons oldest newer => exact dropOldest_tokens cap oldest newer

theorem dropToCapacity_length : (dropToCapacity cap queue).1.length ≤ cap := by
  cases queue with
  | nil => exact Nat.zero_le _
  | cons oldest newer => exact dropOldest_length cap oldest newer

namespace CaptureMailbox

variable {mailbox : CaptureMailbox T}

theorem push_closed (h : mailbox.closed = true) (token : T) (surf : ValidatedCaptureSurface) :
    mailbox.push token surf = (mailbox, [token]) := by
  rw [push, if_pos h]

/-- What a push into an open mailbox lets go stood at the front of the queue. -/
theorem push_open (h : mailbox.closed = false) (token : T) (surf : ValidatedCaptureSurface) : ∃ queue release,
      mailbox.push token surf =
        ({ mailbox with queue, carried := none, outstanding := mailbox.outstanding + 1 - release.length }, release) ∧
      release ++ queue.map (·.token) = mailbox.queue.map (·.token) ++ [token] ∧ queue.length ≤ mailbox.capacity := by
  rw [push, if_neg (Bool.eq_false_iff.mp h)]
  refine ⟨_, _, rfl, (dropToCapacity_tokens _ _).trans ?_, dropToCapacity_length _ _⟩
  rw [map_append, map_cons, map_nil]

theorem foldl_supersede_token (older : List (QueuedCapture T)) (newest : QueuedCapture T) :
    (older.foldl .supersede newest).token = newest.token := by
  induction older generalizing newest with
  | nil => rfl
  | cons frame older ih => exact ih (newest.supersede frame)

theorem takeLatest_empty (h : mailbox.queue = []) :
    mailbox.takeLatest = (mailbox, if mailbox.closed then .closed else .noFrame) := by
  rw [takeLatest, h]
  rfl

/-- A take empties the queue; the tokens are those of the queue, the leased one the last of them. -/
theorem takeLatest_queued (h : mailbox.queue ≠ []) : ∃ frame released, mailbox.takeLatest =
        ({ mailbox with queue := [], outstanding := mailbox.outstanding - released.length }, .leased frame released) ∧
      released.reverse ++ [frame.token] = mailbox.queue.map (·.token) := by
  cases hreve : mailbox.queue.reverse with
  | nil => exact absurd (reverse_eq_nil_iff.mp hreve) h
  | cons newest older =>
    refine ⟨older.foldl .supersede newest, older.map (·.token), ?_, ?_⟩
    · rw [takeLatest, hreve, length_map]
    · rw [foldl_supersede_token, ← reverse_reverse mailbox.queue, hreve, reverse_cons, map_append,
        map_reverse, map_cons, map_nil]

end CaptureMailbox

/-! ### The tokens of a run -/

def MailboxReply.handedBack : MailboxReply T → List T
  | .pushed _ requeue => requeue
  | .taken (.leased _ released) => released
  | .dropped released => released.toList
  | .drained tokens => tokens
  | _ => []

/-- Every token that was handed back, oldest first. -/
def handedBack (log : List (MailboxCall T × MailboxReply T)) : List T := log.flatMap fun entry => entry.2.handedBack

def MailboxReply.leased? : MailboxReply T → Option T
  | .taken (.leased frame _) => some frame.token
  | _ => none

/-- The tokens handed out to the worker, oldest first. -/
def leasedTokens (log : List (MailboxCall T × MailboxReply T)) : List T := log.filterMap fun entry => entry.2.leased?

def MailboxCall.pushed? : MailboxCall T → Option T
  | .push token _ => some token
  | _ => none

/-- The tokens given to `push`, oldest first. -/
def pushedTokens (calls : List (MailboxCall T)) : List T := calls.filterMap pushed?

/-- The tokens of a run are all somewhere, and leases follow the pushes. -/
structure Accounted (log : List (MailboxCall T × MailboxReply T)) (state : CaptureLeases T) : Prop where
  placed : (↑(state.queuedTokens) + ↑(state.heldTokens) + ↑(handedBack log) : Multiset T) =
    ↑(pushedTokens (log.map Prod.fst))
  outstanding : state.mailbox.outstanding = state.mailbox.queue.length + state.leases.length
  bounded : state.mailbox.queue.length ≤ state.mailbox.capacity
  ordered : (leasedTokens log ++ state.queuedTokens).Sublist (pushedTokens (log.map Prod.fst))

section Concat

variable (log : List (MailboxCall T × MailboxReply T)) (call : MailboxCall T) (reply : MailboxReply T)

theorem handedBack_concat : handedBack (log ++ [(call, reply)]) = handedBack log ++ reply.handedBack := by
  rw [handedBack, flatMap_append, flatMap_singleton, handedBack]

theorem leasedTokens_concat : leasedTokens (log ++ [(call, reply)]) = leasedTokens log ++ reply.leased?.toList :=
  filterMap_concat _ _ _

theorem pushedTokens_concat :
    pushedTokens ((log ++ [(call, reply)]).map Prod.fst) = pushedTokens (log.map Prod.fst) ++ call.pushed?.toList := by
  rw [map_append]
  exact filterMap_concat _ _ _

end Concat

section Step

variable {log : List (MailboxCall T × MailboxReply T)} {state : CaptureLeases T}

section

variable (h : Accounted log state)
include h

theorem Accounted.push (token : T) (surf : ValidatedCaptureSurface) :
    Accounted (log ++ [(.push token surf, (state.step (.push token surf)).2)]) (state.step (.push token surf)).1 := by
  have hp := h.placed
  have ho := h.ordered
  rw [CaptureLeases.step]
  cases hcl : state.mailbox.closed with
  | true =>
    rw [push_closed hcl]
    refine ⟨?_, h.outstanding, h.bounded, ?_⟩
    · rw [handedBack_concat, pushedTokens_concat]
      simp only [pushed?, ← Multiset.coe_add]
      rw [← hp]
      exact (add_assoc _ _ _).symm
    · rw [leasedTokens_concat, pushedTokens_concat]
      simpa [MailboxReply.leased?] using ho.trans (sublist_append_left _ _)
  | false =>
    obtain ⟨queue, release, hpush, ht, hlen⟩ := push_open hcl token surf
    have hcnt : release.length + queue.length = state.mailbox.queue.length + 1 := by
      have := congrArg List.length ht
      simpa using this
    rw [hpush]
    refine ⟨?_, ?_, hlen, ?_⟩
    · rw [handedBack_concat, pushedTokens_concat]
      have hq := congrArg (fun tokens : List T => (tokens : Multiset T)) ht
      simp only [← Multiset.coe_add] at hq
      simp only [pushed?, Option.toList_some, ← Multiset.coe_add, ← hp,
        queuedTokens, heldTokens]
      calc
        _ = ((release : Multiset T) + queue.map (·.token)) + (state.leases.map (·.token)) + handedBack log := by abel
        _ = _ := by
            rw [hq]
            abel
    · have := h.outstanding
      dsimp only
      omega
    · rw [leasedTokens_concat, pushedTokens_concat]
      simp only [MailboxReply.leased?, Option.toList_none, append_nil, queuedTokens]
      refine List.Sublist.trans ?_ (ho.append (.refl [token]))
      rw [append_assoc, queuedTokens, ← ht]
      exact (List.Sublist.refl _).append (sublist_append_right _ _)

/-- A call that moves no token keeps the account. -/
theorem Accounted.idle {next : CaptureLeases T} {call : MailboxCall T}
    {reply : MailboxReply T} (hpushe : call.pushed? = none) (hback : reply.handedBack = []) (hleas : reply.leased? = none)
    (hq : next.mailbox.queue = state.mailbox.queue) (hleases : next.leases = state.leases)
    (hout : next.mailbox.outstanding = state.mailbox.outstanding)
    (hcap : next.mailbox.capacity = state.mailbox.capacity) : Accounted (log ++ [(call, reply)]) next := by
  have hqueu : next.queuedTokens = state.queuedTokens := by
    rw [queuedTokens, hq, queuedTokens]
  have hheld : next.heldTokens = state.heldTokens := by
    rw [heldTokens, hleases, heldTokens]
  refine ⟨?_, ?_, ?_, ?_⟩
  · rw [handedBack_concat, pushedTokens_concat, hback, hpushe, hqueu, hheld]
    simpa using h.placed
  · rw [hout, hq, hleases]
    exact h.outstanding
  · rw [hq, hcap]
    exact h.bounded
  · rw [leasedTokens_concat, pushedTokens_concat, hleas, hpushe, hqueu]
    simpa using h.ordered

theorem Accounted.takeLatest :
    Accounted (log ++ [(.takeLatest, (state.step .takeLatest).2)]) (state.step .takeLatest).1 := by
  rw [CaptureLeases.step]
  by_cases hq : state.mailbox.queue = []
  · rw [takeLatest_empty hq]
    cases state.mailbox.closed with
    | true | false => exact h.idle rfl rfl rfl rfl rfl rfl rfl
  · obtain ⟨_, released, htake, ht⟩ := takeLatest_queued hq
    have hcnt : released.length + 1 = state.mailbox.queue.length := by
      have := congrArg List.length ht
      simpa using this
    have hp := h.placed
    have ho := h.ordered
    rw [queuedTokens, ← ht] at hp ho
    rw [htake]
    refine ⟨?_, ?_, Nat.zero_le _, ?_⟩
    · rw [handedBack_concat, pushedTokens_concat]
      simp only [pushed?, ← hp, heldTokens, map_nil, map_append, map_cons,
        ← Multiset.coe_add, Multiset.coe_reverse]
      abel
    · have := h.outstanding
      simp only [length_nil, length_append, length_singleton]
      omega
    · rw [leasedTokens_concat, pushedTokens_concat]
      simp only [pushed?, Option.toList_none, append_nil,
        queuedTokens, map_nil]
      refine List.Sublist.trans ?_ ho
      exact (List.Sublist.refl _).append (sublist_append_right _ _)

theorem Accounted.dropLease (index : Nat) :
    Accounted (log ++ [(.dropLease index, (state.step (.dropLease index)).2)]) (state.step (.dropLease index)).1 := by
  rw [CaptureLeases.step, CaptureLeases.dropLease]
  cases hlease : state.leases[index]? with
  | none => exact h.idle rfl rfl rfl rfl rfl rfl rfl
  | some frame =>
    obtain ⟨hidx, hfr⟩ := List.getElem?_eq_some_iff.mp hlease
    have hperm : (frame :: state.leases.eraseIdx index).Perm state.leases := hfr ▸ getElem_cons_eraseIdx_perm hidx
    have hp := h.placed
    rw [heldTokens, ← Multiset.coe_eq_coe.mpr (hperm.map (·.token)), map_cons,
      ← singleton_append] at hp
    refine ⟨?_, ?_, h.bounded, ?_⟩
    · rw [handedBack_concat, pushedTokens_concat]
      simp only [pushed?, ← hp,
        queuedTokens, heldTokens, ← Multiset.coe_add]
      abel
    · have := h.outstanding
      have hlen := length_eraseIdx_of_lt hidx
      dsimp only
      omega
    · rw [leasedTokens_concat, pushedTokens_concat]
      simpa [MailboxReply.leased?, pushed?, queuedTokens] using h.ordered

theorem Accounted.drain : Accounted (log ++ [(.drain, (state.step .drain).2)]) (state.step .drain).1 := by
  have hp := h.placed
  refine ⟨?_, ?_, Nat.zero_le _, ?_⟩
  · rw [handedBack_concat, pushedTokens_concat]
    simp only [CaptureLeases.step, ← hp, heldTokens, ← Multiset.coe_add]
    abel
  · have := h.outstanding
    simp only [CaptureLeases.step, CaptureMailbox.drain, length_nil]
    omega
  · rw [leasedTokens_concat, pushedTokens_concat]
    simpa [CaptureLeases.step, CaptureMailbox.drain, MailboxReply.leased?, pushed?,
      queuedTokens] using (sublist_append_left _ _).trans h.ordered

theorem Accounted.step (call : MailboxCall T) :
    Accounted (log ++ [(call, (state.step call).2)]) (state.step call).1 := by
  cases call with
  | push token surf => exact h.push token surf
  | takeLatest => exact h.takeLatest
  | dropLease index => exact h.dropLease index
  | carryDamage | close => exact h.idle rfl rfl rfl rfl rfl rfl rfl
  | drain => exact h.drain

end

end Step

theorem step_capacity (state : CaptureLeases T) (call : MailboxCall T) :
    (state.step call).1.mailbox.capacity = state.mailbox.capacity := by
  cases call with
  | push =>
    rw [CaptureLeases.step, CaptureMailbox.push]
    split_ifs <;> rfl
  | takeLatest =>
    rw [CaptureLeases.step, CaptureMailbox.takeLatest]
    cases state.mailbox.queue.reverse with
    | nil => cases state.mailbox.closed <;> rfl
    | cons => rfl
  | dropLease index =>
    rw [CaptureLeases.step, CaptureLeases.dropLease]
    cases state.leases[index]? <;> rfl
  | carryDamage | drain | close => rfl

/-! ### Numbered pushes -/

def MailboxCall.numbered (number : Nat) : MailboxCall T → MailboxCall (Nat × T)
  | .push token surface => .push (number, token) surface
  | .takeLatest => .takeLatest
  | .dropLease index => .dropLease index
  | .carryDamage damage => .carryDamage damage
  | .drain => .drain
  | .close => .close

def numberPushes : Nat → List (MailboxCall T) → List (MailboxCall (Nat × T))
  | _, [] => []
  | number, call :: calls => call.numbered number :: numberPushes (number + call.pushed?.toList.length) calls

theorem MailboxCall.pushed?_numbered (number : Nat) (call : MailboxCall T) :
    (call.numbered number).pushed? = call.pushed?.map (number, ·) := by
  cases call <;> rfl

theorem pushedTokens_cons (call : MailboxCall T) (calls : List (MailboxCall T)) :
    pushedTokens (call :: calls) = call.pushed?.toList ++ pushedTokens calls := by
  rw [pushedTokens, filterMap_cons]
  cases call.pushed? <;> rfl

theorem pushedTokens_numberPushes (number : Nat) (calls : List (MailboxCall T)) :
    (pushedTokens (numberPushes number calls)).map Prod.fst = range' number (pushedTokens calls).length := by
  induction calls generalizing number with
  | nil => rfl
  | cons call calls ih =>
    rw [numberPushes, pushedTokens_cons, pushedTokens_cons, map_append, ih, pushed?_numbered]
    cases call.pushed? with
    | none => simp
    | some => simp [range'_succ]

theorem map_snd_numberPushes (number : Nat) (calls : List (MailboxCall T)) :
    (pushedTokens (numberPushes number calls)).map Prod.snd = pushedTokens calls := by
  induction calls generalizing number with
  | nil => rfl
  | cons call calls ih =>
    rw [numberPushes, pushedTokens_cons, pushedTokens_cons, map_append, ih, pushed?_numbered]
    cases call.pushed? <;> rfl

theorem nodup_numberPushes (calls : List (MailboxCall T)) : (pushedTokens (numberPushes 0 calls)).Nodup := by
  refine List.Nodup.of_map Prod.fst ?_
  rw [pushedTokens_numberPushes]
  exact nodup_range'

/-- **Where the buffers are.** For every capacity and every run, with the pushes numbered from zero: the tokens queued,
those held by live leases and those handed back are together the tokens given to `push`, none of them twice; the count
of outstanding buffers is that of queued frames and leases; the queue fits the capacity; and the leases are handed out
in the order of their pushes. -/
theorem mailbox_accounts_for_every_push (capacity : Nat) (calls : List (MailboxCall T)) :
    let pushes := pushedTokens (numberPushes 0 calls)
    let log := (captureMailbox (Nat × T) capacity).log (numberPushes 0 calls)
    let state := (captureMailbox (Nat × T) capacity).exec (numberPushes 0 calls)
    let places := state.queuedTokens ++ state.heldTokens ++ handedBack log
    pushes.map Prod.snd = pushedTokens calls ∧ places.Nodup ∧ (∀ token, token ∈ pushes ↔ token ∈ places) ∧
      state.mailbox.outstanding = state.mailbox.queue.length + state.leases.length ∧
      state.mailbox.queue.length ≤ max capacity 1 ∧ ((leasedTokens log).map Prod.fst).Pairwise (· < ·) := by
  intro pushes log state places
  have hacco : Accounted log state := (captureMailbox _ capacity).log_invariant (P := Accounted)
    ⟨rfl, rfl, Nat.zero_le _, .refl _⟩ (fun _ _ call h => h.step call) (numberPushes 0 calls)
  have hnumb : pushes.map Prod.fst = range' 0 (pushedTokens calls).length := pushedTokens_numberPushes 0 calls
  have hpushes : pushedTokens (log.map Prod.fst) = pushes := by
    rw [Machine.map_fst_log]
  have hperm : places.Perm pushes := by
    rw [← hpushes, ← Multiset.coe_eq_coe, ← hacco.placed, Multiset.coe_add, Multiset.coe_add]
  refine ⟨map_snd_numberPushes 0 calls, hperm.nodup_iff.mpr (nodup_numberPushes calls), fun token => hperm.mem_iff.symm,
    hacco.outstanding, ?_, ?_⟩
  · have hcap : state.mailbox.capacity = max capacity 1 :=
      (captureMailbox _ capacity).invariant (P := fun state => state.mailbox.capacity = max capacity 1) rfl
        (fun state call h => (step_capacity state call).trans h) (numberPushes 0 calls)
    rw [← hcap]
    exact hacco.bounded
  · have hleas : (leasedTokens log).Sublist pushes := (sublist_append_left _ _).trans (hpushes ▸ hacco.ordered)
    refine List.Pairwise.sublist (hleas.map Prod.fst) ?_
    rw [hnumb]
    exact pairwise_lt_range'

end Arcen
