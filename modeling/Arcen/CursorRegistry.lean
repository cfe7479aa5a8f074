import Arcen.CursorImage
import Mathlib.Data.List.AList
import Mathlib.Data.List.MinMax

/-! Distinct cursor images of one desktop, each with a stable id (`CursorImageRegistry` of
`shared/input/src/cursor.rs`). Images the registry has dropped are encoded again under a new id; below
2^32 registrations no id is ever given twice, and an id determines its wire image. -/

namespace Arcen

open List

def cursorRegistryEntries : Nat := 128

def cursorRegistryBytes : Nat := 8 * 1024 * 1024

structure RegisteredImage where
  wire : WireCursorImage
  source : CursorImage
  lastUsed : UInt64

def RegisteredImage.weight (entry : RegisteredImage) : Nat := entry.source.rgba.length + entry.wire.png.length

structure CursorImageRegistry where
  bySource : AList fun _ : CursorImage => CursorImageId
  images : AList fun _ : CursorImageId => RegisteredImage
  nextId : UInt32
  clock : UInt64
  bytes : Nat

namespace CursorImageRegistry

def empty : CursorImageRegistry := ⟨∅, ∅, 0, 0, 0⟩

/-- The least recently used image but one. -/
def oldest (registry : CursorImageRegistry) (keep : CursorImageId) :
    Option (Sigma fun _ : CursorImageId => RegisteredImage) :=
  (registry.images.entries.filter (·.1 ≠ keep)).argmin fun entry => entry.2.lastUsed.toNat

variable {reg : CursorImageRegistry} {keep : CursorImageId}

/-- Drops the least recently used images while a budget is exceeded; `keep` stays. -/
def evict (keep : CursorImageId) (registry : CursorImageRegistry) : CursorImageRegistry :=
  if 1 < registry.images.entries.length ∧
      (cursorRegistryEntries < registry.images.entries.length ∨ cursorRegistryBytes < registry.bytes) then
    match _h : registry.oldest keep with
    | none => registry
    | some entry =>
      evict keep
        { registry with
          images := registry.images.erase entry.1
          bytes := registry.bytes - entry.2.weight
          bySource := registry.bySource.erase entry.2.source }
  else registry
termination_by registry.images.entries.length
decreasing_by
  have hmem := mem_of_mem_filter (argmin_mem _h)
  have hlen : (registry.images.erase entry.1).entries.length = registry.images.entries.length - 1 :=
    length_eraseP_of_mem hmem (by simp)
  omega

def remembered (registry : CursorImageRegistry) (image : CursorImage) : Option (CursorImageId × RegisteredImage) :=
  (registry.bySource.lookup image).bind fun id => (registry.images.lookup id).map fun entry => (id, entry)

/-- `checked_add(1).unwrap_or(1)`. -/
def followingId (id : UInt32) : UInt32 := if id = 0xffffffff then 1 else id + 1

/-- The id and wire form of an image; `none` when no pixel of it is visible. -/
def register (codec : PngCodec) (registry : CursorImageRegistry) (image : CursorImage) :
    CursorImageRegistry × Except CursorImageError (Option (CursorImageId × WireCursorImage)) :=
  let registry := { registry with clock := registry.clock + 1 }
  match registry.remembered image with
  | some (id, entry) =>
    ({ registry with images := registry.images.insert id { entry with lastUsed := registry.clock } },
      .ok (some (id, entry.wire)))
  | none =>
    match image.toWire codec with
    | .error error => (registry, .error error)
    | .ok none => (registry, .ok none)
    | .ok (some wire) =>
      let registry := { registry with nextId := followingId registry.nextId }
      match NonZero.new registry.nextId with
      | none => (registry, .ok none)
      | some id =>
        let entry : RegisteredImage := ⟨wire, image, registry.clock⟩
        (evict id
          { registry with
            bytes := registry.bytes + entry.weight
            bySource := registry.bySource.insert image id
            images := registry.images.insert id entry }, .ok (some (id, wire)))

/-! ### What one call can do -/

/-- Eviction only forgets. -/
theorem lookup_of_evict {id : CursorImageId}
    (h : (reg.evict keep).images.lookup id = some entry) : reg.images.lookup id = some entry := by
  fun_induction evict keep reg with
  | case1 | case3 => exact h
  | case2 reg hover victim hvict ih =>
    have hold := ih h
    by_cases hid : id = victim.1
    · subst hid
      rw [AList.lookup_erase] at hold
      cases hold
    · rwa [AList.lookup_erase_ne hid] at hold

theorem nextId_evict (keep : CursorImageId) (reg : CursorImageRegistry) : (reg.evict keep).nextId = reg.nextId := by
  fun_induction evict keep reg with
  | case1 | case3 => rfl
  | case2 reg hover victim hvict ih => exact ih

/-- What `register` can do: hand out a remembered image again, give a new image the following id, or
give nothing. Afterwards the registry remembers nothing else than before and what it handed out. -/
inductive Registered (registry : CursorImageRegistry) :
    CursorImageRegistry → Except CursorImageError (Option (CursorImageId × WireCursorImage)) → Prop
  | known {next : CursorImageRegistry} {id : CursorImageId} {entry : RegisteredImage}
      (hentry : registry.images.lookup id = some entry) (hnext : next.nextId = registry.nextId)
      (himages : ∀ other held, next.images.lookup other = some held →
        ∃ old, registry.images.lookup other = some old ∧ old.wire = held.wire) :
      Registered registry next (.ok (some (id, entry.wire)))
  | fresh {next : CursorImageRegistry} {id : CursorImageId} {wire : WireCursorImage}
      (hid : id.get = followingId registry.nextId) (hnext : next.nextId = followingId registry.nextId)
      (himages : ∀ other held, next.images.lookup other = some held →
        (other = id ∧ held.wire = wire) ∨ registry.images.lookup other = some held) :
      Registered registry next (.ok (some (id, wire)))
  | nothing {next : CursorImageRegistry} {result : Except CursorImageError (Option (CursorImageId × WireCursorImage))}
      (hresult : ∀ pair, result ≠ .ok (some pair)) (hnext : next.nextId = registry.nextId)
      (himages : next.images = registry.images) : Registered registry next result

theorem followingId_ne_zero (id : UInt32) : followingId id ≠ 0 := by
  rw [followingId]
  split
  · decide
  · rename_i h
    intro hzero
    apply h
    have hnat := congrArg UInt32.toNat hzero
    have hlt := id.toNat_lt
    apply UInt32.toNat_inj.mp
    simp at hnat ⊢
    omega

theorem register_spec (codec : PngCodec) (reg : CursorImageRegistry) (image : CursorImage) :
    Registered reg (reg.register codec image).1 (reg.register codec image).2 := by
  rw [register]
  dsimp only
  split
  · rename_i id entry hreme
    have hent : reg.images.lookup id = some entry := by
      obtain ⟨id', -, hmap⟩ := Option.bind_eq_some_iff.mp hreme
      obtain ⟨entry', hlook, heq⟩ := Option.map_eq_some_iff.mp hmap
      cases heq
      exact hlook
    refine .known hent rfl fun other held hh => ?_
    by_cases hid : other = id
    · subst hid
      rw [AList.lookup_insert] at hh
      cases hh
      exact ⟨entry, hent, rfl⟩
    · rw [AList.lookup_insert_ne hid] at hh
      exact ⟨held, hh, rfl⟩
  · split
    · exact .nothing (by simp) rfl rfl
    · exact .nothing (by simp) rfl rfl
    · rename_i wire _
      split
      · rename_i hnone
        exact absurd (NonZero.new_eq_none hnone) (followingId_ne_zero reg.nextId)
      · rename_i id hid
        refine .fresh (NonZero.new_eq_some hid) (nextId_evict _ _) fun other held hh => ?_
        have hinse := lookup_of_evict hh
        by_cases heq : other = id
        · subst heq
          rw [AList.lookup_insert] at hinse
          cases hinse
          exact Or.inl ⟨rfl, rfl⟩
        · rw [AList.lookup_insert_ne heq] at hinse
          exact Or.inr hinse

end CursorImageRegistry
end Arcen
