import Mathlib.Tactic

/-! A least-recently-used cache with an entry budget and a weight budget. The entries stand from least
to most recently used; the running weight is a field of the cache, together with the fact that it is the
sum of the entry weights, so that no decrement of it can underflow.

Which entries are touched, inserted and evicted depends on keys and weights only. The operations hence
commute with every change of the values, and a cache of ids can follow a cache of values it never sees. -/

namespace Arcen

open List

structure LruEntry (κ V : Type) where
  key : κ
  weight : Nat
  value : V

namespace LruEntry

variable {κ V W : Type}

def map (f : V → W) (entry : LruEntry κ V) : LruEntry κ W := ⟨entry.key, entry.weight, f entry.value⟩

end LruEntry

def totalWeight {κ V : Type} (entries : List (LruEntry κ V)) : Nat := (entries.map LruEntry.weight).sum

structure LruCache (κ V : Type) where
  entries : List (LruEntry κ V)
  bytes : Nat
  bytes_eq : bytes = totalWeight entries

namespace LruCache

variable {κ V W : Type}

@[ext] theorem ext_entries {cache other : LruCache κ V} (h : cache.entries = other.entries) : cache = other := by
  obtain ⟨entries, bytes, hby⟩ := cache
  obtain ⟨entries', bytes', hby'⟩ := other
  obtain rfl : entries = entries' := h
  obtain rfl : bytes = bytes' := hby.trans hby'.symm
  rfl

def empty : LruCache κ V := ⟨[], 0, rfl⟩

def keys (cache : LruCache κ V) : List κ := cache.entries.map LruEntry.key

/-- The cache with other values under the same keys and weights. -/
def map (f : V → W) (cache : LruCache κ V) : LruCache κ W := ⟨cache.entries.map (LruEntry.map f), cache.bytes, by
    simp [cache.bytes_eq, totalWeight, Function.comp_def, LruEntry.map]⟩

theorem keys_map (f : V → W) (cache : LruCache κ V) : (cache.map f).keys = cache.keys := by
  simp [keys, map, LruEntry.map]

/-- Drops entries from the least recently used end while a budget is exceeded; the newest stays. -/
def evictFrom (maxEntries maxBytes : Nat) : List (LruEntry κ V) → Nat → List (LruEntry κ V) × Nat
  | [], bytes => ([], bytes)
  | [entry], bytes => ([entry], bytes)
  | oldest :: next :: rest, bytes =>
    if maxEntries < (oldest :: next :: rest).length ∨ maxBytes < bytes then
      evictFrom maxEntries maxBytes (next :: rest) (bytes - oldest.weight)
    else (oldest :: next :: rest, bytes)

theorem evictFrom_weight (maxEntries maxBytes : Nat) {entries : List (LruEntry κ V)} {bytes : Nat}
    (h : bytes = totalWeight entries) : (evictFrom maxEntries maxBytes entries bytes).2 =
      totalWeight (evictFrom maxEntries maxBytes entries bytes).1 := by
  fun_induction evictFrom maxEntries maxBytes entries bytes with
  | case1 | case2 | case4 => exact h
  | case3 bytes oldest next rest hover ih =>
    apply ih
    rw [h]
    simp [totalWeight]

theorem evictFrom_subset (maxEntries maxBytes : Nat) (entries : List (LruEntry κ V)) (bytes : Nat) :
    (evictFrom maxEntries maxBytes entries bytes).1 ⊆ entries := by
  fun_induction evictFrom maxEntries maxBytes entries bytes with
  | case1 | case2 | case4 => exact List.Subset.refl _
  | case3 bytes oldest next rest hover ih => exact List.Subset.trans ih (subset_cons_self _ _)

theorem evictFrom_map (f : V → W) (maxEntries maxBytes : Nat) (entries : List (LruEntry κ V)) (bytes : Nat) :
    (evictFrom maxEntries maxBytes (entries.map (LruEntry.map f)) bytes).1 =
      (evictFrom maxEntries maxBytes entries bytes).1.map (LruEntry.map f) := by
  fun_induction evictFrom maxEntries maxBytes entries bytes with
  | case1 | case2 => rfl
  | case3 bytes oldest next rest hover ih =>
    rw [← ih]
    simp only [map_cons, evictFrom]
    rw [if_pos (by simpa using hover)]
    rfl
  | case4 _ _ _ _ hunder =>
    simp only [map_cons, evictFrom]
    rw [if_neg (by simpa using hunder)]

/-- Adds an entry as most recently used. -/
def push (cache : LruCache κ V) (entry : LruEntry κ V) : LruCache κ V :=
  ⟨cache.entries ++ [entry], cache.bytes + entry.weight, by
    simp [totalWeight, cache.bytes_eq]⟩

def evict (maxEntries maxBytes : Nat) (cache : LruCache κ V) : LruCache κ V :=
  ⟨(evictFrom maxEntries maxBytes cache.entries cache.bytes).1, (evictFrom maxEntries maxBytes cache.entries
    cache.bytes).2, evictFrom_weight maxEntries maxBytes cache.bytes_eq⟩

theorem map_push (f : V → W) (cache : LruCache κ V) (entry : LruEntry κ V) : (cache.push entry).map f = (cache.map f).push (entry.map f) := by
  apply ext_entries
  simp [map, push]

theorem map_evict (f : V → W) (cache : LruCache κ V) (maxEntries maxBytes : Nat) :
    (cache.evict maxEntries maxBytes).map f = (cache.map f).evict maxEntries maxBytes := by
  apply ext_entries
  exact (evictFrom_map f maxEntries maxBytes cache.entries cache.bytes).symm

variable [DecidableEq κ] {cache : LruCache κ V} {key : κ}

def find (cache : LruCache κ V) (key : κ) : Option (LruEntry κ V) := cache.entries.find? (·.key = key)

def contains (cache : LruCache κ V) (key : κ) : Bool := (cache.find key).isSome

variable {entry : LruEntry κ V}

theorem key_of_find (h : cache.find key = some entry) : entry.key = key := by
  simpa using find?_some h

theorem mem_of_find (h : cache.find key = some entry) : entry ∈ cache.entries := mem_of_find?_eq_some h

/-- Removing the first entry of a key takes its weight out of the sum. -/
theorem totalWeight_eraseP {entries : List (LruEntry κ V)} (h : entries.find? (·.key = key) = some entry) :
    totalWeight (entries.eraseP (·.key = key)) = totalWeight entries - entry.weight := by
  obtain ⟨hkey, before, after, rfl, hpre⟩ := find?_eq_some_iff_append.mp h
  have hpre' : ∀ e ∈ before, ¬ (decide (e.key = key)) = true := by simpa using hpre
  have hcons : (entry :: after).eraseP (·.key = key) = after := eraseP_cons_of_pos hkey
  rw [eraseP_append_right _ hpre', hcons]
  simp only [totalWeight, map_append, map_cons, sum_append, sum_cons]
  omega

def remove (cache : LruCache κ V) (key : κ) : LruCache κ V :=
  match h : cache.find key with
  | some entry => ⟨cache.entries.eraseP (·.key = key), cache.bytes - entry.weight, by
      rw [totalWeight_eraseP h, cache.bytes_eq]⟩
  | none => cache

/-- Marks a key most recently used and returns its value. -/
def touch (cache : LruCache κ V) (key : κ) : LruCache κ V × Option V :=
  match cache.find key with
  | some entry => ((cache.remove key).push entry, some entry.value)
  | none => (cache, none)

/-- Inserts a key as most recently used, replacing an existing entry, and evicts. -/
def insert (maxEntries maxBytes : Nat) (cache : LruCache κ V) (key : κ) (weight : Nat) (value : V) : LruCache κ V :=
  ((cache.remove key).push ⟨key, weight, value⟩).evict maxEntries maxBytes

/-! ### What stays -/

theorem entries_remove : (cache.remove key).entries = cache.entries.eraseP (·.key = key) := by
  rw [remove]
  split
  · rfl
  · rename_i hnone
    symm
    apply eraseP_of_forall_not
    simpa [find] using hnone

theorem mem_of_mem_insert (h : entry ∈ (cache.insert maxEntries maxBytes key weight value).entries) :
    entry ∈ cache.entries ∨ entry = ⟨key, weight, value⟩ := by
  have hmem := evictFrom_subset maxEntries maxBytes _ _ h
  rw [push, mem_append, entries_remove] at hmem
  rcases hmem with hold | hnew
  · exact Or.inl (mem_of_mem_eraseP hold)
  · exact Or.inr (mem_singleton.mp hnew)

theorem mem_of_mem_touch (h : entry ∈ (cache.touch key).1.entries) : entry ∈ cache.entries := by
  rw [touch] at h
  split at h
  · rename_i found hfnd
    rw [push, mem_append, entries_remove] at h
    rcases h with hold | hnew
    · exact mem_of_mem_eraseP hold
    · rw [mem_singleton.mp hnew]
      exact mem_of_find hfnd
  · exact h

theorem touch_of_contains (h : cache.contains key) :
    ∃ entry, cache.find key = some entry ∧ cache.touch key = ((cache.remove key).push entry, some entry.value) := by
  obtain ⟨entry, hent⟩ := Option.isSome_iff_exists.mp h
  refine ⟨entry, hent, ?_⟩
  rw [touch, hent]

theorem touch_of_not_contains (h : cache.contains key = false) : cache.touch key = (cache, none) := by
  have hnone : cache.find key = none := by simpa [contains] using h
  rw [touch, hnone]

/-! ### Changing the values -/

section Map

variable (f : V → W)

theorem find_map : (cache.map f).find key = (cache.find key).map (LruEntry.map f) := by
  simp only [find, map, find?_map]
  rfl

theorem contains_map : (cache.map f).contains key = cache.contains key := by
  rw [contains, find_map, Option.isSome_map, contains]

theorem map_remove : (cache.remove key).map f = (cache.map f).remove key := by
  apply ext_entries
  simp only [map, entries_remove, eraseP_map]
  rfl

theorem map_insert (maxEntries maxBytes weight : Nat) (value : V) :
    (cache.insert maxEntries maxBytes key weight value).map f =
      (cache.map f).insert maxEntries maxBytes key weight (f value) := by
  rw [insert, map_evict, map_push, map_remove]
  rfl

theorem map_touch : (cache.touch key).1.map f = ((cache.map f).touch key).1 := by
  rw [touch, touch, find_map]
  cases cache.find key with
  | none => rfl
  | some entry =>
    change ((cache.remove key).push entry).map f = ((cache.map f).remove key).push (entry.map f)
    rw [map_push, map_remove]

end Map
end LruCache
end Arcen
