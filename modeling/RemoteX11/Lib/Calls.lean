/-
  A pool of concurrent calls: a list indexed by call number, one entry replaced at a time.

  A quantity of the pool is a sum over its calls (`total`), and a property of the pool is one that
  every call has. `total_set` and `forall_mem_set` say what replacing one call does to either, so an
  invariant proof looks only at the call that moved.
-/
import Mathlib.Tactic.Common
import Mathlib.Algebra.Ring.Nat
import Mathlib.Algebra.BigOperators.Group.List.Basic

namespace RemoteX11.Lib

universe u

variable {α : Type u}

/-- The sum of `f` over a pool. -/
def total (f : α → Nat) (l : List α) : Nat := (l.map f).sum

@[simp] theorem total_nil (f : α → Nat) : total f [] = 0 := rfl

@[simp] theorem total_cons (f : α → Nat) (a : α) (l : List α) :
    total f (a :: l) = f a + total f l := by
  simp [total]

@[simp] theorem total_append (f : α → Nat) (l m : List α) :
    total f (l ++ m) = total f l + total f m := by
  simp [total]

/-- Replacing a call changes the total by the difference of the two calls. -/
theorem total_set (f : α → Nat) {l : List α} {i : Nat} {a : α} (b : α) (h : l[i]? = some a) :
    total f (l.set i b) + f a = total f l + f b := by
  induction l generalizing i with
  | nil => simp at h
  | cons c l ih =>
    cases i with
    | zero =>
      simp only [List.getElem?_cons_zero, Option.some.injEq] at h
      simp only [List.set_cons_zero, total_cons, h]
      omega
    | succ i =>
      simp only [List.getElem?_cons_succ] at h
      have := ih h
      simp only [List.set_cons_succ, total_cons]
      omega

theorem total_map (f : α → Nat) (g : α → α) (l : List α) (h : ∀ a, f (g a) = f a) :
    total f (l.map g) = total f l := by
  simp [total, Function.comp_def, h]

theorem total_eq_zero {f : α → Nat} {l : List α} (h : ∀ a ∈ l, f a = 0) : total f l = 0 := by
  induction l with
  | nil => rfl
  | cons a l ih =>
    rw [total_cons, h a List.mem_cons_self, ih fun b hb => h b (List.mem_cons_of_mem _ hb)]

/-- Replacing a call changes a count by the difference of the two calls. -/
theorem countP_set (p : α → Bool) {l : List α} {i : Nat} {a : α} (b : α) (h : l[i]? = some a) :
    (l.set i b).countP p + (if p a then 1 else 0) = l.countP p + if p b then 1 else 0 := by
  obtain ⟨hi, rfl⟩ := List.getElem?_eq_some_iff.mp h
  have hpos : (if p l[i] then 1 else 0) ≤ l.countP p := by
    split
    · exact List.countP_pos_iff.mpr ⟨_, List.getElem_mem hi, ‹_›⟩
    · exact Nat.zero_le _
  rw [List.countP_set hi]
  omega

/-- What a pool offers, call by call, with the part of one call marked: replacing the call replaces
    its part and nothing else. -/
theorem filterMap_set {β : Type*} (f : α → Option β) {l : List α} {i : Nat} {a : α} (b : α)
    (h : l[i]? = some a) : ∃ pre post, l.filterMap f = pre ++ (f a).toList ++ post ∧
      (l.set i b).filterMap f = pre ++ (f b).toList ++ post := by
  obtain ⟨hi, rfl⟩ := List.getElem?_eq_some_iff.mp h
  have hone : ∀ c, [c].filterMap f = (f c).toList := by
    intro c
    rcases hc : f c with _ | x <;> simp [hc]
  refine ⟨(l.take i).filterMap f, (l.drop (i + 1)).filterMap f, ?_, ?_⟩
  · have hsplit : l = l.take i ++ [l[i]] ++ l.drop (i + 1) := by simp
    conv_lhs => rw [hsplit]
    rw [List.filterMap_append, List.filterMap_append, hone]
  · rw [List.set_eq_take_append_cons_drop, if_pos hi, ← List.singleton_append,
      List.filterMap_append, List.filterMap_append, hone, List.append_assoc]

/-- A call of the pool after a replacement is the new one, or was there before. -/
theorem getElem?_of_set {l : List α} {i k : Nat} {b x : α} (h : (l.set i b)[k]? = some x) :
    i = k ∧ x = b ∨ i ≠ k ∧ l[k]? = some x := by
  rw [List.getElem?_set] at h
  split at h
  · rename_i hik
    split at h
    · exact .inl ⟨hik, (Option.some.inj h).symm⟩
    · contradiction
  · exact .inr ⟨‹_›, h⟩

/-- A call of the pool is replaced, or is there still. -/
theorem getElem?_set_of {l : List α} {i k : Nat} {a x : α} (b : α) (hi : l[i]? = some a)
    (hk : l[k]? = some x) :
    i = k ∧ x = a ∧ (l.set i b)[k]? = some b ∨ i ≠ k ∧ (l.set i b)[k]? = some x := by
  by_cases hik : i = k
  · subst hik
    obtain ⟨hlt, -⟩ := List.getElem?_eq_some_iff.mp hi
    exact .inl ⟨rfl, Option.some.inj (hk.symm.trans hi), List.getElem?_set_self hlt⟩
  · exact .inr ⟨hik, (List.getElem?_set_ne hik).trans hk⟩

/-- A property of every call survives a replacement by a call that has it. -/
theorem forall_mem_set {P : α → Prop} {l : List α} {i : Nat} {b : α} (hl : ∀ a ∈ l, P a)
    (hb : P b) : ∀ a ∈ l.set i b, P a := by
  intro a ha
  rcases List.mem_or_eq_of_mem_set ha with hm | rfl
  · exact hl a hm
  · exact hb

theorem forall_mem_snoc {P : α → Prop} {l : List α} {b : α} (hl : ∀ a ∈ l, P a) (hb : P b) :
    ∀ a ∈ l ++ [b], P a := by
  intro a ha
  rcases List.mem_append.mp ha with hm | hm
  · exact hl a hm
  · rw [List.mem_singleton.mp hm]
    exact hb

/-- Some call of the pool has `P` still, unless it is the one that was replaced. -/
theorem exists_mem_set {P : α → Prop} {l : List α} {i : Nat} {a : α} (b : α) (h : l[i]? = some a)
    (hl : ∃ x ∈ l, P x) : (∃ x ∈ l.set i b, P x) ∨ P a := by
  obtain ⟨x, hx, hP⟩ := hl
  obtain ⟨j, hj⟩ := List.mem_iff_getElem?.mp hx
  by_cases hij : i = j
  · subst hij
    rw [h, Option.some.injEq] at hj
    exact .inr (hj ▸ hP)
  · refine .inl ⟨x, List.mem_iff_getElem?.mpr ⟨j, ?_⟩, hP⟩
    rw [List.getElem?_set_ne hij, hj]

/-- A call of the pool that has `P` after a replacement had it before, or is the new one. -/
theorem exists_of_mem_set {P : α → Prop} {l : List α} {i : Nat} {b : α}
    (hl : ∃ x ∈ l.set i b, P x) : (∃ x ∈ l, P x) ∨ P b := by
  obtain ⟨x, hx, hP⟩ := hl
  rcases List.mem_or_eq_of_mem_set hx with hm | rfl
  · exact .inl ⟨x, hm, hP⟩
  · exact .inr hP

end RemoteX11.Lib
