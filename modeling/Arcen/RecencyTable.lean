import Mathlib.Data.Finset.Card
import Mathlib.Data.List.AList
import Mathlib.Data.List.MinMax
import Mathlib.Data.Prod.Lex

/-! Bounded tables that make room by dropping a key of the oldest stamp. Which of several oldest keys goes is the
choice of a rank, which stands for the iteration order of a hash table.

A key leaves only in favour of a newcomer, and only when every other key of the table is at least as recent: so as many
other keys as the table holds, the newcomer among them, have to be as recent as the one that leaves. -/

namespace Arcen

open List AList

/-- A finite map with its keys in some order. -/
abbrev KeyTable (κ ν : Type) := AList fun _ : κ => ν

namespace KeyTable

variable {κ ν : Type} [DecidableEq κ] (stamp : ν → Nat) (rank : κ → Nat) (capacity : Nat)

/-- Keeps the values that satisfy a test. -/
def retain (kept : ν → Bool) (table : KeyTable κ ν) : KeyTable κ ν :=
  ⟨table.entries.filter fun entry => kept entry.2, table.nodupKeys.sublist filter_sublist⟩

variable (table : KeyTable κ ν)

/-- A key whose value has the least stamp, and the least rank among those. -/
def oldest : Option κ := (table.entries.argmin fun entry => toLex (stamp entry.2, rank entry.1)).map Sigma.fst

def evictOldest : KeyTable κ ν :=
  match oldest stamp rank table with
  | some key => table.erase key
  | none => table

def makeRoom (key : κ) (table : KeyTable κ ν) : KeyTable κ ν :=
  if key ∉ table ∧ capacity ≤ table.keys.length then evictOldest stamp rank table else table

variable {stamp rank capacity} {kept : ν → Bool} {table : KeyTable κ ν} {key newcomer : κ} {value : ν}

theorem lookup_retain (kept : ν → Bool) (table : KeyTable κ ν) (key : κ) :
    AList.lookup key (retain kept table) = (AList.lookup key table).filter kept := by
  apply Option.ext
  intro value
  rw [← Option.mem_def, mem_lookup_iff, retain, mem_filter, ← mem_lookup_iff, Option.mem_def,
    Option.filter_eq_some_iff]

omit [DecidableEq κ] in
theorem length_keys_retain (kept : ν → Bool) (table : KeyTable κ ν) :
    (retain kept table).keys.length ≤ table.keys.length := (List.filter_sublist.map Sigma.fst).length_le

theorem mem_keys_of_lookup (h : AList.lookup key table = some value) : key ∈ table.keys := by
  rw [← AList.mem_keys, ← AList.lookup_isSome, h]
  rfl

theorem oldest_le (h : oldest stamp rank table = some key)
    (hv : AList.lookup key table = some value) (hoth : AList.lookup other table = some otherValue) :
    stamp value ≤ stamp otherValue := by
  obtain ⟨entry, hent, rfl⟩ := Option.map_eq_some_iff.mp h
  have hv' : entry.2 = value := by
    have hmem := mem_lookup_iff.mpr (argmin_mem hent)
    exact Option.some.inj (hmem.symm.trans hv)
  have hle := le_of_mem_argmin (mem_lookup_iff.mp hoth) hent
  rw [← hv']
  exact (Prod.Lex.toLex_le_toLex.mp hle).elim Nat.le_of_lt fun h => h.1.le

theorem oldest_mem (h : oldest stamp rank table = some key) : key ∈ table := by
  obtain ⟨entry, hent, rfl⟩ := Option.map_eq_some_iff.mp h
  have hmem : entry.2 ∈ AList.lookup entry.1 table := AList.mem_lookup_iff.mpr (argmin_mem hent)
  exact AList.mem_keys.mpr (mem_keys_of_lookup hmem)

theorem lookup_evictOldest (h : oldest stamp rank table ≠ some key) :
    AList.lookup key (evictOldest stamp rank table) = AList.lookup key table := by
  unfold evictOldest
  cases ho : oldest stamp rank table with
  | none => rfl
  | some =>
    refine lookup_erase_ne fun heq => h ?_
    rw [ho, heq]

theorem lookup_evictOldest_eq_some (h : AList.lookup key (evictOldest stamp rank table) = some value) :
    AList.lookup key table = some value := by
  by_cases ho : oldest stamp rank table = some key
  · unfold evictOldest at h
    rw [ho] at h
    rw [lookup_erase] at h
    cases h
  · rwa [lookup_evictOldest ho] at h

theorem length_keys_evictOldest : (evictOldest stamp rank table).keys.length = table.keys.length - 1 := by
  unfold evictOldest
  cases ho : oldest stamp rank table with
  | none =>
    have hemp := argmin_eq_none.mp (Option.map_eq_none_iff.mp ho)
    rw [AList.keys, hemp]
    rfl
  | some =>
    rw [keys_erase]
    exact length_erase_of_mem (AList.mem_keys.mp (oldest_mem ho))

theorem lookup_makeRoom_eq_some (h : AList.lookup key (makeRoom stamp rank capacity newcomer table) = some value) :
    AList.lookup key table = some value := by
  unfold makeRoom at h
  split_ifs at h
  · exact lookup_evictOldest_eq_some h
  · exact h

theorem lookup_makeRoom_self (table : KeyTable κ ν) (key : κ) :
    AList.lookup key (makeRoom stamp rank capacity key table) = AList.lookup key table := by
  by_cases hmem : key ∈ table
  · rw [makeRoom, if_neg fun hf => hf.1 hmem]
  · cases hroom : AList.lookup key (makeRoom stamp rank capacity key table) with
    | none => exact (lookup_eq_none.mpr hmem).symm
    | some => exact (lookup_makeRoom_eq_some hroom).symm

/-- **Capacity.** One key is always admitted. -/
theorem length_keys_insert_makeRoom (h : table.keys.length ≤ max 1 capacity) (value : ν) :
    ((makeRoom stamp rank capacity newcomer table).insert newcomer value).keys.length ≤ max 1 capacity := by
  rw [keys_insert, length_cons]
  unfold makeRoom
  split_ifs with hf
  · have herase := (length_erase_le : ((evictOldest stamp rank table).keys.erase newcomer).length ≤ _)
    rw [length_keys_evictOldest] at herase
    omega
  · by_cases hmem : newcomer ∈ table
    · rw [length_erase_of_mem (AList.mem_keys.mp hmem)]
      omega
    · have hroom : ¬capacity ≤ table.keys.length := fun hle => hf ⟨hmem, hle⟩
      have herase := (length_erase_le : (table.keys.erase newcomer).length ≤ _)
      omega

/-- **Recency.** A key is dropped only for as many others, at least as recent, as the table holds. -/
theorem lookup_makeRoom {rivals : Finset κ} (hv : AList.lookup key table = some value) (hrival : newcomer ∈ rivals)
    (hriva : ∀ other otherValue, other ≠ key → AList.lookup other table = some otherValue →
      stamp value ≤ stamp otherValue → other ∈ rivals) (hfew : rivals.card < max 1 capacity) :
    AList.lookup key (makeRoom stamp rank capacity newcomer table) = some value := by
  unfold makeRoom
  split_ifs with hf
  · rw [lookup_evictOldest, hv]
    intro ho
    have hmem := AList.mem_keys.mp (oldest_mem ho)
    -- everything else in the table, and the newcomer, is a rival
    have hsubs : insert newcomer (table.keys.toFinset.erase key) ⊆ rivals := by
      intro other hoth
      rcases Finset.mem_insert.mp hoth with rfl | hoth
      · exact hrival
      · obtain ⟨hne, hkeys⟩ := Finset.mem_erase.mp hoth
        rw [mem_toFinset, ← AList.mem_keys, ← AList.lookup_isSome] at hkeys
        obtain ⟨otherValue, hotherValue⟩ := Option.isSome_iff_exists.mp hkeys
        exact hriva other otherValue hne hotherValue (oldest_le ho hv hotherValue)
    have hnew : newcomer ∉ table.keys.toFinset.erase key := fun h =>
      hf.1 (AList.mem_keys.mpr (mem_toFinset.mp (Finset.mem_of_mem_erase h)))
    have hcard := Finset.card_le_card hsubs
    rw [Finset.card_insert_of_notMem hnew, Finset.card_erase_of_mem (mem_toFinset.mpr hmem),
      toFinset_card_of_nodup table.keys_nodup] at hcard
    omega
  · exact hv

end KeyTable
end Arcen
