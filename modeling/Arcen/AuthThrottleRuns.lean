import Arcen.AuthThrottle
import Arcen.History

/-! Runs of the throttle. The wait of a key is compared with the failures that name it since its last success; other
keys can take it away only by evicting the key, for which as many of them have to fail as the table holds. -/

namespace Arcen

open ThrottleCall AuthThrottle KeyTable List

namespace ThrottleCall

/-- The time of a failed attempt. -/
def time : ThrottleCall → Option Duration
  | .recordFailure _ now _ => some now
  | .recordSuccess _ => none

def clears (key : ThrottleKey) : ThrottleCall → Bool
  | .recordFailure .. => false
  | .recordSuccess keys => key ∈ keys

/-- The time of a failed attempt that names the key. -/
def failureOf (key : ThrottleKey) : ThrottleCall → Option Duration
  | .recordFailure keys now _ => if key ∈ keys then some now else none
  | .recordSuccess _ => none

/-- The keys of a failed attempt made within a span of time. -/
def failedWithin (earlier later : Duration) : ThrottleCall → List ThrottleKey
  | .recordFailure keys now _ => if earlier ≤ now ∧ now ≤ later then keys else []
  | .recordSuccess _ => []

end ThrottleCall

/-- The times of the failures naming a key since its last success, newest first. -/
def failureTimes (key : ThrottleKey) (calls : List ThrottleCall) : List Duration :=
  (recent (clears key) calls.reverse).filterMap (failureOf key)

/-- The other keys that fail within a span of time, its ends included. -/
def rivals (key : ThrottleKey) (earlier later : Duration) (calls : List ThrottleCall) : Finset ThrottleKey :=
  (calls.flatMap (failedWithin earlier later)).toFinset.erase key

variable (policy : AuthThrottlePolicy)

/-- When a key may try again after a number of failures, the last of them at the given time. -/
def AuthThrottlePolicy.deadline (failures : Nat) (last : Duration) : Duration :=
  min (last + min policy.maxDelay (policy.baseDelay * 2 ^ min (failures - policy.freeFailures.toNat - 1) 16)) durationMax

/-- Consecutive failures follow each other before the earlier one is forgotten. -/
def Steady (times : List Duration) : Prop := times.IsChain fun later earlier => later - earlier < policy.forgetAfter

/-- Between consecutive times fewer other keys fail than the table holds. -/
def Uncrowded (key : ThrottleKey) (calls : List ThrottleCall) (times : List Duration) : Prop :=
  times.IsChain fun later earlier => (rivals key earlier later calls).card < max 1 policy.maxKeys

/-- A failed attempt at the given time names the key. -/
def FailedAt (calls : List ThrottleCall) (key : ThrottleKey) (time : Duration) : Prop :=
  ∃ keys orders, ThrottleCall.recordFailure keys time orders ∈ calls ∧ key ∈ keys

section Calls

variable {policy : AuthThrottlePolicy} {calls : List ThrottleCall} {key other : ThrottleKey}
  {keys : List ThrottleKey} {now time earlier later : Duration} {orders : IterationOrders} {times : List Duration}

theorem failureTimes_recordFailure : failureTimes key (calls ++ [.recordFailure keys now orders]) =
    if key ∈ keys then now :: failureTimes key calls else failureTimes key calls := by
  rw [failureTimes, reverse_append, reverse_singleton, singleton_append, recent_cons]
  by_cases hk : key ∈ keys <;> simp [clears, failureOf, hk, failureTimes]

theorem failureTimes_recordSuccess : failureTimes key (calls ++ [.recordSuccess keys]) =
    if key ∈ keys then [] else failureTimes key calls := by
  rw [failureTimes, reverse_append, reverse_singleton, singleton_append, recent_cons]
  by_cases hk : key ∈ keys
  · simp [clears, hk]
  · simp [clears, hk, failureTimes, filterMap_cons, failureOf]

theorem FailedAt.mono (h : FailedAt calls key time) (hmore : calls ⊆ more) : FailedAt more key time := by
  obtain ⟨keys, orders, hc, hk⟩ := h
  exact ⟨keys, orders, hmore hc, hk⟩

theorem FailedAt.mem_time (h : FailedAt calls key time) : time ∈ calls.filterMap ThrottleCall.time := by
  obtain ⟨_, _, hc, -⟩ := h
  exact mem_filterMap.mpr ⟨_, hc, rfl⟩

theorem FailedAt.mem_rivals (h : FailedAt calls other time) (hne : other ≠ key) (hearly : earlier ≤ time)
    (hlat : time ≤ later) : other ∈ rivals key earlier later calls := by
  obtain ⟨_, _, hc, hk⟩ := h
  refine Finset.mem_erase.mpr ⟨hne, mem_toFinset.mpr (mem_flatMap.mpr ⟨_, hc, ?_⟩)⟩
  rw [failedWithin, if_pos ⟨hearly, hlat⟩]
  exact hk

theorem rivals_subset (key : ThrottleKey) (earlier : Duration) (hlong : later ≤ longer) (hmore : calls ⊆ more) :
    rivals key earlier later calls ⊆ rivals key earlier longer more := by
  intro other ho
  obtain ⟨hne, hmem⟩ := Finset.mem_erase.mp ho
  obtain ⟨call, hc, hk⟩ := mem_flatMap.mp (mem_toFinset.mp hmem)
  cases call with
  | recordSuccess => cases hk
  | recordFailure keys time orders =>
    rw [failedWithin] at hk
    split_ifs at hk with hwith
    · have hfail : FailedAt calls other time := ⟨keys, orders, hc, hk⟩
      exact (hfail.mono hmore).mem_rivals hne hwith.1 (Nat.le_trans hwith.2 hlong)
    · cases hk

theorem Uncrowded.of_append (h : Uncrowded policy key (calls ++ rest) times) : Uncrowded policy key calls times := by
  refine h.imp fun later earlier hfew => Nat.lt_of_le_of_lt (Finset.card_le_card ?_) hfew
  exact rivals_subset key earlier Nat.le.refl (subset_append_left calls rest)

/-- What holds up to a time holds up to any earlier one. -/
theorem Uncrowded.until_earlier (h : Uncrowded policy key calls (later :: times)) (hle : now ≤ later) :
    Uncrowded policy key calls (now :: times) := by
  cases times with
  | nil => exact isChain_singleton _
  | cons last =>
    obtain ⟨hfew, hrest⟩ := isChain_cons_cons.mp h
    refine isChain_cons_cons.mpr ⟨Nat.lt_of_le_of_lt (Finset.card_le_card ?_) hfew, hrest⟩
    exact rivals_subset key last hle (List.Subset.refl calls)

end Calls

/-! ### One call -/

/-- What an entry says of a key that has failed a number of times, the last of them at the given time. -/
structure ThrottleEntry.Records (policy : AuthThrottlePolicy) (count : Nat) (last : Duration)
    (entry : ThrottleEntry) : Prop where
  lastFailure : entry.lastFailure = last
  failures : count ≤ entry.failures
  blockedUntil : policy.freeFailures.toNat < count → policy.deadline count last ≤ entry.blockedUntil

/-- More failures make the wait longer. -/
theorem AuthThrottlePolicy.deadline_le (policy : AuthThrottlePolicy) (hmore : failures ≤ more) (last : Duration) :
    policy.deadline failures last ≤
      Duration.saturatingAdd last (policy.delay (more - policy.freeFailures.toNat)) := by
  have hpow : 2 ^ min (failures - policy.freeFailures.toNat - 1) 16 ≤
      2 ^ min (more - policy.freeFailures.toNat - 1) 16 := Nat.pow_le_pow_right (by decide) (by omega)
  have hbase := Nat.mul_le_mul_left policy.baseDelay hpow
  have hcut : ∀ last wait longer cap maximum : Nat, wait ≤ longer →
      min (last + min cap wait) maximum ≤ min (last + min (min longer maximum) cap) maximum := by omega
  exact hcut last _ _ policy.maxDelay durationMax hbase

variable {entry : ThrottleEntry} {count : Nat} {policy : AuthThrottlePolicy} {last now : Duration}

theorem ThrottleEntry.records_fail (policy : AuthThrottlePolicy) (now : Duration)
    (h : count ≤ min (entry.failures + 1) u32Max) : (entry.fail policy now).Records policy count now where
  lastFailure := rfl
  failures := h
  blockedUntil := by
    intro hover
    rw [fail, if_pos (by omega)]
    exact policy.deadline_le h now

def Dated (calls : List ThrottleCall) (entries : ThrottleTable) : Prop :=
  ∀ key entry, AList.lookup key entries = some entry → FailedAt calls key entry.lastFailure

namespace AuthThrottle

section FailKeys

variable {policy : AuthThrottlePolicy} {calls : List ThrottleCall} {key other : ThrottleKey}
  {keys : List ThrottleKey} {now : Duration} {order : ThrottleKey → Nat} {orders : IterationOrders}
  {entries : ThrottleTable} {entry : ThrottleEntry} {count : Nat}

theorem dated_failKey (hd : Dated calls entries) (hk : FailedAt calls key now) :
    Dated calls (failKey policy now order key entries) := by
  intro other entry ho
  unfold failKey at ho
  by_cases hne : other = key
  · subst hne
    rw [AList.lookup_insert] at ho
    cases ho
    exact hk
  · rw [AList.lookup_insert_ne hne] at ho
    exact hd other entry (lookup_makeRoom_eq_some ho)

/-- A failure of another key leaves a key alone that fewer rivals threaten than the table holds. -/
theorem lookup_failKey_ne (hd : Dated calls entries)
    (helapsed : ∀ time ∈ calls.filterMap ThrottleCall.time, time ≤ now) (ho : FailedAt calls other now)
    (hne : key ≠ other) (hent : AList.lookup key entries = some entry)
    (hfew : (rivals key entry.lastFailure now calls).card < max 1 policy.maxKeys) :
    AList.lookup key (failKey policy now order other entries) = some entry := by
  unfold failKey
  rw [AList.lookup_insert_ne hne]
  have hlast := helapsed _ (hd key entry hent).mem_time
  refine lookup_makeRoom hent (ho.mem_rivals hne.symm hlast Nat.le.refl) ?_ hfew
  intro third thirdEntry hthird hl hstamp
  have hfail := hd third thirdEntry hl
  exact hfail.mem_rivals hthird hstamp (helapsed _ hfail.mem_time)

theorem lookup_failKey_self : AList.lookup key (failKey policy now order key entries) =
    some (((AList.lookup key entries).getD ⟨0, now, 0⟩).fail policy now) := by
  rw [failKey, AList.lookup_insert, lookup_makeRoom_self]

theorem dated_failKeys (hd : Dated calls entries) (hkeys : ∀ other ∈ keys, FailedAt calls other now) :
    Dated calls (failKeys policy now orders keys entries) := by
  induction keys generalizing entries orders with
  | nil => exact hd
  | cons other keys ih =>
    obtain ⟨ho, hrest⟩ := forall_mem_cons.mp hkeys
    exact ih (dated_failKey hd ho) hrest

variable (hd : Dated calls entries) (helapsed : ∀ time ∈ calls.filterMap ThrottleCall.time, time ≤ now)
  (hkeys : ∀ other ∈ keys, FailedAt calls other now)

include hd helapsed hkeys

theorem lookup_failKeys_of_notMem (hk : key ∉ keys) (hent : AList.lookup key entries = some entry)
    (hfew : (rivals key entry.lastFailure now calls).card < max 1 policy.maxKeys) :
    AList.lookup key (failKeys policy now orders keys entries) = some entry := by
  induction keys generalizing entries orders with
  | nil => exact hent
  | cons other keys ih =>
    obtain ⟨ho, hrest⟩ := forall_mem_cons.mp hkeys
    obtain ⟨hne, hnotMem⟩ := not_or.mp (mt mem_cons.mpr hk)
    exact ih (dated_failKey hd ho) hrest hnotMem (lookup_failKey_ne hd helapsed ho hne hent hfew)

variable (hnow : (rivals key now now calls).card < max 1 policy.maxKeys)

include hnow

/-- What a failure has recorded, the rest of its call keeps. -/
theorem failKeys_keeps (hcnt : count ≤ u32Max)
    (hent : ∃ entry, AList.lookup key entries = some entry ∧ entry.Records policy count now) :
    ∃ entry, AList.lookup key (failKeys policy now orders keys entries) = some entry ∧
      entry.Records policy count now := by
  induction keys generalizing entries orders with
  | nil => exact hent
  | cons other keys ih =>
    obtain ⟨ho, hrest⟩ := forall_mem_cons.mp hkeys
    obtain ⟨entry, hl, hr⟩ := hent
    refine ih (dated_failKey hd ho) hrest ?_
    by_cases hne : key = other
    · subst hne
      refine ⟨_, lookup_failKey_self, ThrottleEntry.records_fail policy now ?_⟩
      rw [hl]
      exact Nat.le_min.mpr ⟨Nat.le_succ_of_le hr.failures, hcnt⟩
    · refine ⟨entry, lookup_failKey_ne hd helapsed ho hne hl ?_, hr⟩
      rw [hr.lastFailure]
      exact hnow

/-- A call that names the key counts at least one failure more. -/
theorem failKeys_records (hk : key ∈ keys)
    (hp : count = 0 ∨ ∃ entry, AList.lookup key entries = some entry ∧ count ≤ entry.failures ∧
      (rivals key entry.lastFailure now calls).card < max 1 policy.maxKeys) :
    ∃ entry, AList.lookup key (failKeys policy now orders keys entries) = some entry ∧
      entry.Records policy (min (count + 1) u32Max) now := by
  induction keys generalizing entries orders with
  | nil => cases hk
  | cons other keys ih =>
    obtain ⟨ho, hrest⟩ := forall_mem_cons.mp hkeys
    have hd' : Dated calls (failKey policy now (orders 0) other entries) := dated_failKey hd ho
    rw [failKeys]
    by_cases hne : key = other
    · subst hne
      refine failKeys_keeps hd' helapsed hrest hnow (Nat.min_le_right ..) ⟨_, lookup_failKey_self, ?_⟩
      refine ThrottleEntry.records_fail policy now ?_
      rcases hp with rfl | ⟨entry, hl, hcnt, -⟩
      · omega
      · rw [hl, Option.getD_some]
        omega
    · refine ih hd' hrest ((mem_cons.mp hk).resolve_left hne) (hp.imp_right ?_)
      rintro ⟨entry, hl, hcnt, hfew⟩
      exact ⟨entry, lookup_failKey_ne hd helapsed ho hne hl hfew, hcnt, hfew⟩

end FailKeys

variable {now : Duration} {keys : List ThrottleKey} {entries : ThrottleTable}

theorem length_keys_failKeys {policy : AuthThrottlePolicy} (h : entries.keys.length ≤ max 1 policy.maxKeys) :
    (failKeys policy now orders keys entries).keys.length ≤ max 1 policy.maxKeys := by
  induction keys generalizing entries orders with
  | nil => exact h
  | cons key keys ih => exact ih (length_keys_insert_makeRoom h _)

variable (throttle : AuthThrottle)

theorem lookup_recordSuccess (keys : List ThrottleKey) (key : ThrottleKey) :
    AList.lookup key (throttle.recordSuccess keys).entries =
      if key ∈ keys then none else AList.lookup key throttle.entries := by
  unfold recordSuccess
  generalize throttle.entries = entries
  induction keys generalizing entries with
  | nil => rfl
  | cons other keys ih =>
    refine (ih (entries.erase other)).trans ?_
    by_cases ho : key = other
    · subst ho
      simp [AList.lookup_erase]
    · rw [AList.lookup_erase_ne ho]
      simp [ho]

theorem length_keys_recordSuccess (keys : List ThrottleKey) :
    (throttle.recordSuccess keys).entries.keys.length ≤ throttle.entries.keys.length := by
  unfold recordSuccess
  generalize throttle.entries = entries
  induction keys generalizing entries with
  | nil => exact Nat.le.refl
  | cons other keys ih =>
    refine Nat.le_trans (ih (entries.erase other)) ?_
    rw [AList.keys_erase]
    exact length_erase_le

theorem dated_retain (h : Dated calls entries) (kept : ThrottleEntry → Bool) : Dated calls (retain kept entries) := by
  intro key entry hent
  rw [lookup_retain] at hent
  exact h key entry (Option.filter_eq_some_iff.mp hent).1

/-- The wait is at least what is left of the time the key is blocked. -/
theorem retryAfter_of_lookup {throttle : AuthThrottle} {entry : ThrottleEntry} (hk : key ∈ keys)
    (hent : AList.lookup key throttle.entries = some entry) (hdead : deadline ≤ entry.blockedUntil)
    (hnow : now < deadline) : ∃ wait, throttle.retryAfter keys now = some wait ∧ deadline - now ≤ wait := by
  have hbloc : now < entry.blockedUntil := Nat.lt_of_lt_of_le hnow hdead
  have hmem : entry.blockedUntil - now ∈
      ((keys.filterMap fun key => throttle.entries.lookup key).filter fun entry => now < entry.blockedUntil).map
        fun entry => entry.blockedUntil - now := mem_map.mpr ⟨entry, mem_filter.mpr
      ⟨mem_filterMap.mpr ⟨key, hk, hent⟩, decide_eq_true hbloc⟩, rfl⟩
  cases hmax : throttle.retryAfter keys now with
  | none =>
    rw [max?_eq_none_iff.mp hmax] at hmem
    cases hmem
  | some wait =>
    refine ⟨wait, rfl, Nat.le_trans (Nat.sub_le_sub_right hdead now) ?_⟩
    exact (max?_eq_some_iff.mp hmax).2 _ hmem

end AuthThrottle

/-! ### Runs -/

/-- The failures of a key that count so far, as many as the counter holds. -/
def failureCount (times : List Duration) : Nat := min times.length u32Max

/-- The last failure of a key is not forgotten at a later time. -/
def Alive (policy : AuthThrottlePolicy) (count : Nat) (last now : Duration) : Prop :=
  now - last < policy.forgetAfter ∨ policy.freeFailures.toNat < count ∧ now < policy.deadline count last

theorem Alive.until_earlier (h : Alive policy count last later) (hle : now ≤ later) : Alive policy count last now :=
  h.imp (Nat.lt_of_le_of_lt (Nat.sub_le_sub_right hle last)) fun h => ⟨h.1, Nat.lt_of_le_of_lt hle h.2⟩

theorem Alive.isFresh (h : Alive policy count last now) (hr : entry.Records policy count last) :
    AuthThrottle.isFresh policy now entry = true := by
  rw [AuthThrottle.isFresh, Bool.or_eq_true, decide_eq_true_iff, decide_eq_true_iff, hr.lastFailure]
  exact h.imp_right fun h => Nat.lt_of_lt_of_le h.2 (hr.blockedUntil h.1)

/-- The table knows every key whose failures were steady and that was not crowded out. -/
structure Remembers (policy : AuthThrottlePolicy) (calls : List ThrottleCall) (throttle : AuthThrottle) : Prop where
  same : throttle.policy = policy
  size : throttle.entries.keys.length ≤ max 1 policy.maxKeys
  dated : Dated calls throttle.entries
  records : (calls.filterMap ThrottleCall.time).Pairwise (· ≤ ·) → ∀ key now last earlier,
    (∀ time ∈ calls.filterMap ThrottleCall.time, time ≤ now) → failureTimes key calls = last :: earlier →
    Steady policy (last :: earlier) → Uncrowded policy key calls (now :: last :: earlier) →
    Alive policy (failureCount (last :: earlier)) last now → ∃ entry, AList.lookup key throttle.entries = some entry ∧
      entry.Records policy (failureCount (last :: earlier)) last

namespace Remembers

variable {policy : AuthThrottlePolicy} {calls : List ThrottleCall} {throttle : AuthThrottle}
  {keys : List ThrottleKey} {now : Duration} {orders : IterationOrders}

section

variable (h : Remembers policy calls throttle)
include h

theorem recordSuccess (keys : List ThrottleKey) :
    Remembers policy (calls ++ [.recordSuccess keys]) (throttle.recordSuccess keys) := by
  have htm : (calls ++ [ThrottleCall.recordSuccess keys]).filterMap ThrottleCall.time =
      calls.filterMap ThrottleCall.time := by
    rw [filterMap_concat]
    exact append_nil _
  refine ⟨h.same, Nat.le_trans (throttle.length_keys_recordSuccess keys) h.size, ?_, ?_⟩
  · intro key entry hent
    rw [throttle.lookup_recordSuccess] at hent
    split_ifs at hent
    exact (h.dated key entry hent).mono (subset_append_left ..)
  · intro hord key now last earlier helapsed hf hs hu ha
    rw [htm] at hord helapsed
    rw [failureTimes_recordSuccess] at hf
    rw [throttle.lookup_recordSuccess]
    split_ifs at hf ⊢ with hk
    exact h.records hord key now last earlier helapsed hf hs hu.of_append ha

/-- What the table knows when a failed attempt comes in. -/
theorem fresh (hord : (calls.filterMap ThrottleCall.time).Pairwise (· ≤ ·))
    (helapsed : ∀ time ∈ calls.filterMap ThrottleCall.time, time ≤ now)
    (hf : failureTimes key calls = last :: earlier)
    (hs : Steady policy (last :: earlier)) (hu : Uncrowded policy key calls (now :: last :: earlier))
    (ha : Alive policy (failureCount (last :: earlier)) last now) :
    ∃ entry, AList.lookup key (throttle.forgetStale now).entries = some entry ∧
      entry.Records policy (failureCount (last :: earlier)) last := by
  obtain ⟨entry, hent, hr⟩ := h.records hord key now last earlier helapsed hf hs hu ha
  refine ⟨entry, ?_, hr⟩
  rw [forgetStale, lookup_retain, hent, h.same, Option.filter_some, ha.isFresh hr]
  rfl

theorem recordFailure (keys : List ThrottleKey) (now : Duration) (orders : IterationOrders) :
    Remembers policy (calls ++ [.recordFailure keys now orders]) (throttle.recordFailure keys now orders) := by
  have htm : (calls ++ [ThrottleCall.recordFailure keys now orders]).filterMap ThrottleCall.time =
      calls.filterMap ThrottleCall.time ++ [now] := filterMap_concat ..
  have hkeys : ∀ key ∈ keys, FailedAt (calls ++ [.recordFailure keys now orders]) key now := fun key hk =>
    ⟨keys, orders, mem_append_right _ mem_cons_self, hk⟩
  have hd : Dated (calls ++ [.recordFailure keys now orders]) (throttle.forgetStale now).entries :=
    dated_retain (fun key entry hent => (h.dated key entry hent).mono (subset_append_left ..)) _
  refine ⟨h.same, ?_, AuthThrottle.dated_failKeys hd hkeys, ?_⟩
  · rw [AuthThrottle.recordFailure, h.same]
    exact AuthThrottle.length_keys_failKeys (Nat.le_trans (length_keys_retain ..) h.size)
  · intro hord key later last earlier helapsed hf hs hu ha
    rw [htm] at hord helapsed
    obtain ⟨hp, -, hlast⟩ := pairwise_append.mp hord
    have hpast : ∀ time ∈ calls.filterMap ThrottleCall.time, time ≤ now := fun time htime =>
      hlast time htime now mem_cons_self
    have hnow : now ≤ later := helapsed now (mem_append_right _ mem_cons_self)
    have hall : ∀ time ∈ (calls ++ [ThrottleCall.recordFailure keys now orders]).filterMap ThrottleCall.time,
        time ≤ now := by
      rw [htm]
      exact forall_mem_append.mpr ⟨hpast, forall_mem_singleton.mpr Nat.le.refl⟩
    rw [failureTimes_recordFailure] at hf
    rw [AuthThrottle.recordFailure, h.same]
    split_ifs at hf with hk
    · obtain ⟨rfl, rfl⟩ := List.cons.inj hf
      obtain ⟨hcur, hrest⟩ := isChain_cons_cons.mp (Uncrowded.until_earlier hu hnow)
      have hcnt : failureCount (now :: failureTimes key calls) =
          min (failureCount (failureTimes key calls) + 1) u32Max := by
        unfold failureCount
        rw [length_cons]
        omega
      rw [hcnt]
      refine failKeys_records hd hall hkeys hcur hk ?_
      cases htail : failureTimes key calls with
      | nil => exact .inl rfl
      | cons =>
        rw [htail] at hs hrest
        obtain ⟨hgap, hs⟩ := isChain_cons_cons.mp hs
        obtain ⟨entry, hent, hr⟩ := h.fresh hp hpast htail hs (Uncrowded.of_append hrest) (.inl hgap)
        refine .inr ⟨entry, hent, hr.failures, ?_⟩
        rw [hr.lastFailure]
        exact (isChain_cons_cons.mp hrest).1
    · have hquiet := Uncrowded.until_earlier hu hnow
      obtain ⟨entry, hent, hr⟩ := h.fresh hp hpast hf hs hquiet.of_append (ha.until_earlier hnow)
      refine ⟨entry, lookup_failKeys_of_notMem hd hall hkeys hk hent ?_, hr⟩
      rw [hr.lastFailure]
      exact (isChain_cons_cons.mp hquiet).1

end

end Remembers

/-- **Run rule.** -/
theorem remembers_run (policy : AuthThrottlePolicy) (calls : List ThrottleCall) :
    Remembers policy calls ((authThrottle policy).exec calls) := by
  refine (authThrottle policy).calls_invariant (P := Remembers policy) ?_ ?_ calls
  · exact ⟨rfl, Nat.zero_le _, nofun, fun _ _ _ _ _ _ hf => nomatch hf⟩
  · intro calls throttle call h
    cases call with
    | recordFailure keys now orders => exact h.recordFailure keys now orders
    | recordSuccess keys => exact h.recordSuccess keys

/-- **Back-off.** The table is bounded, and a key that has failed more often than is free, steadily and without being
crowded out, has to wait at least until its deadline, whatever other keys do. -/
theorem sign_in_backoff (policy : AuthThrottlePolicy) (calls : List ThrottleCall) :
    ((authThrottle policy).exec calls).entries.keys.length ≤ max 1 policy.maxKeys ∧
    ∀ key now last earlier, (calls.filterMap ThrottleCall.time ++ [now]).Pairwise (· ≤ ·) →
      failureTimes key calls = last :: earlier → Steady policy (last :: earlier) →
      Uncrowded policy key calls (now :: last :: earlier) →
      policy.freeFailures.toNat < failureCount (last :: earlier) →
      now < policy.deadline (failureCount (last :: earlier)) last → ∀ keys, key ∈ keys →
      ∃ wait, ((authThrottle policy).exec calls).retryAfter keys now = some wait ∧
        policy.deadline (failureCount (last :: earlier)) last - now ≤ wait := by
  have h := remembers_run policy calls
  refine ⟨h.size, fun key now last earlier htm hf hs hu hover hnow keys hk => ?_⟩
  obtain ⟨hord, -, helapsed⟩ := pairwise_append.mp htm
  obtain ⟨_, hent, hr⟩ := h.records hord key now last earlier
    (fun time htime => helapsed time htime now mem_cons_self) hf hs hu (.inr ⟨hover, hnow⟩)
  exact retryAfter_of_lookup hk hent (hr.blockedUntil hover) hnow

/-- Four failed attempts on one account, then one from each of two other addresses a second later. -/
def guesses : List ThrottleCall := replicate 4 (.recordFailure [.account "someone"] 0 fun _ _ => 0) ++
    [.recordFailure [.source "198.51.100.1"] 1000000000 fun _ _ => 0,
      .recordFailure [.source "198.51.100.2"] 1000000000 fun _ _ => 0]

theorem sign_in_backoff_default : ∃ wait,
    ((authThrottle {}).exec guesses).retryAfter [.source "198.51.100.3", .account "someone"] 1000000000 = some wait ∧
      1000000000 ≤ wait :=
  (sign_in_backoff {} guesses).2 (.account "someone") 1000000000 0 [0, 0, 0] (by decide) (by decide +kernel)
    (by unfold Steady; decide) (by unfold Uncrowded; decide +kernel) (by decide) (by decide) _ (by decide)

/-- With room for two keys only, the two addresses evict the blocked account a second before its deadline. -/
theorem sign_in_backoff_evicted :
    let policy : AuthThrottlePolicy := { maxKeys := 2 }
    (guesses.filterMap ThrottleCall.time ++ [1000000000]).Pairwise (· ≤ ·) ∧
      failureTimes (.account "someone") guesses = [0, 0, 0, 0] ∧ Steady policy [0, 0, 0, 0] ∧
      policy.freeFailures.toNat < failureCount [0, 0, 0, 0] ∧
      policy.deadline (failureCount [0, 0, 0, 0]) 0 - 1000000000 = 1000000000 ∧
      ((authThrottle policy).exec guesses).retryAfter [.account "someone"] 1000000000 = none := by
  unfold Steady
  decide +kernel

end Arcen
