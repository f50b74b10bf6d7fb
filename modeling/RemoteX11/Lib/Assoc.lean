/-
  Finite maps as association lists, at most one entry for a key.

  `put` replaces the entry of its key and `remove` deletes it, so `get` finds the only one there is.
  Quantifying over the entries keeps statements about a whole map decidable.
-/
import Mathlib.Tactic.Common
import Mathlib.Algebra.Ring.Nat

namespace RemoteX11.Lib

universe u v

variable {κ : Type u} {β : Type v} [DecidableEq κ]

namespace Assoc

def get (m : List (κ × β)) (k : κ) : Option β := (m.find? fun e => e.1 = k).map Prod.snd

def remove (m : List (κ × β)) (k : κ) : List (κ × β) := m.filter fun e => e.1 ≠ k

def put (m : List (κ × β)) (k : κ) (v : β) : List (κ × β) := (k, v) :: remove m k

theorem mem_remove {m : List (κ × β)} {k : κ} {e : κ × β} :
    e ∈ remove m k ↔ e ∈ m ∧ e.1 ≠ k := by
  simp [remove]

theorem mem_put {m : List (κ × β)} {k : κ} {v : β} {e : κ × β} :
    e ∈ put m k v ↔ e = (k, v) ∨ e ∈ m ∧ e.1 ≠ k := by
  rw [put, List.mem_cons, mem_remove]

theorem mem_of_get {m : List (κ × β)} {k : κ} {v : β} (h : get m k = some v) : (k, v) ∈ m := by
  unfold get at h
  rcases hfound : m.find? fun e => e.1 = k with _ | e
  · rw [hfound] at h
    contradiction
  · rw [hfound] at h
    have hv : e.2 = v := Option.some.inj h
    have hk : e.1 = k := by simpa using List.find?_some hfound
    rw [← hk, ← hv]
    exact List.mem_of_find?_eq_some hfound

end Assoc

end RemoteX11.Lib
