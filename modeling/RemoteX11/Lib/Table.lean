/-
  Finite maps with their entries in a list, no key twice.

  The entries can be enumerated in order, as the values of a hash map are in some order, and `get`
  determines them: an entry is in the table exactly when `get` finds it (`mem_entries`). What an update
  does is said once, by `get_put` and `get_remove`.
-/
import RemoteX11.Lib.Assoc
import Mathlib.Data.List.Nodup

namespace RemoteX11.Lib

universe u v

structure Table (κ : Type u) (β : Type v) where
  entries : List (κ × β)
  nodup : (entries.map Prod.fst).Nodup
  deriving DecidableEq, Repr

namespace Table

variable {κ : Type u} {β : Type v} [DecidableEq κ]

def empty : Table κ β := ⟨[], List.nodup_nil⟩

def get (t : Table κ β) (k : κ) : Option β := Assoc.get t.entries k

def remove (t : Table κ β) (k : κ) : Table κ β where
  entries := Assoc.remove t.entries k
  nodup := t.nodup.sublist (List.filter_sublist.map _)

def put (t : Table κ β) (k : κ) (v : β) : Table κ β where
  entries := Assoc.put t.entries k v
  nodup := by
    refine List.nodup_cons.mpr ⟨?_, (t.remove k).nodup⟩
    intro hk
    obtain ⟨e, he, hek⟩ := List.mem_map.mp hk
    exact (Assoc.mem_remove.mp he).2 hek

/-- The keys of `ks` are removed. -/
def removeAll (t : Table κ β) (ks : List κ) : Table κ β := ks.foldl remove t

/-- Every value is replaced, the keys stay. -/
def mapValues (f : κ → β → β) (t : Table κ β) : Table κ β where
  entries := t.entries.map fun e => (e.1, f e.1 e.2)
  nodup := by
    rw [List.map_map]
    exact t.nodup

@[simp] theorem get_empty (k : κ) : (empty : Table κ β).get k = none := rfl

theorem mem_entries {t : Table κ β} {k : κ} {v : β} : (k, v) ∈ t.entries ↔ t.get k = some v := by
  refine ⟨fun h => ?_, Assoc.mem_of_get⟩
  obtain ⟨entries, hnodup⟩ := t
  unfold get Assoc.get
  induction entries with
  | nil => simp at h
  | cons e entries ih =>
    rw [List.map_cons, List.nodup_cons] at hnodup
    rcases List.mem_cons.mp h with rfl | hmem
    · simp
    · have hne : e.1 ≠ k := by
        intro heq
        exact hnodup.1 (List.mem_map.mpr ⟨(k, v), hmem, heq.symm⟩)
      simpa [List.find?_cons, hne] using ih hnodup.2 hmem

theorem get_remove (t : Table κ β) (k k' : κ) :
    (t.remove k).get k' = if k' = k then none else t.get k' := by
  ext v
  rw [← mem_entries]
  show (k', v) ∈ Assoc.remove t.entries k ↔ _
  rw [Assoc.mem_remove, mem_entries]
  by_cases hk : k' = k <;> simp [hk]

theorem get_put (t : Table κ β) (k k' : κ) (v : β) :
    (t.put k v).get k' = if k' = k then some v else t.get k' := by
  ext w
  rw [← mem_entries]
  show (k', w) ∈ Assoc.put t.entries k v ↔ _
  rw [Assoc.mem_put, mem_entries]
  by_cases hk : k' = k
  · simp [hk, eq_comm]
  · simp [hk]

@[simp] theorem get_remove_self (t : Table κ β) (k : κ) : (t.remove k).get k = none := by
  rw [get_remove, if_pos rfl]

@[simp] theorem get_put_self (t : Table κ β) (k : κ) (v : β) : (t.put k v).get k = some v := by
  rw [get_put, if_pos rfl]

theorem get_remove_of_ne (t : Table κ β) {k k' : κ} (h : k' ≠ k) :
    (t.remove k).get k' = t.get k' := by
  rw [get_remove, if_neg h]

theorem get_single (k : κ) (v : β) (h : ([(k, v)].map Prod.fst).Nodup) :
    (⟨[(k, v)], h⟩ : Table κ β).get k = some v := by
  simp [get, Assoc.get]

theorem put_single (k : κ) (v w : β) (h : ([(k, v)].map Prod.fst).Nodup) :
    (⟨[(k, v)], h⟩ : Table κ β).put k w = ⟨[(k, w)], List.nodup_singleton _⟩ := by
  simp [put, Assoc.put, Assoc.remove]

/-- What a smaller table holds, the table held. -/
theorem get_of_get_remove {t : Table κ β} {k k' : κ} {v : β} (h : (t.remove k).get k' = some v) :
    t.get k' = some v := by
  rw [get_remove] at h
  split at h
  · contradiction
  · exact h

theorem get_put_of_ne (t : Table κ β) {k k' : κ} (v : β) (h : k' ≠ k) :
    (t.put k v).get k' = t.get k' := by
  rw [get_put, if_neg h]

theorem get_mapValues (f : κ → β → β) (t : Table κ β) (k : κ) :
    (t.mapValues f).get k = (t.get k).map (f k) := by
  ext v
  rw [← mem_entries]
  show (k, v) ∈ t.entries.map (fun e => (e.1, f e.1 e.2)) ↔ _
  rw [List.mem_map, Option.map_eq_some_iff]
  constructor
  · rintro ⟨⟨k', w⟩, hmem, heq⟩
    obtain ⟨rfl, hv⟩ := Prod.mk.inj heq
    exact ⟨w, mem_entries.mp hmem, hv⟩
  · rintro ⟨w, hget, hv⟩
    exact ⟨(k, w), mem_entries.mpr hget, by rw [hv]⟩

theorem get_removeAll (t : Table κ β) (ks : List κ) (k : κ) :
    (t.removeAll ks).get k = if k ∈ ks then none else t.get k := by
  unfold removeAll
  induction ks generalizing t with
  | nil => simp
  | cons k' ks ih =>
    rw [List.foldl_cons, ih, get_remove]
    by_cases hk : k = k' <;> by_cases hks : k ∈ ks <;> simp [hk, hks]

end Table

end RemoteX11.Lib
