/-
  Pools whose live calls carry distinct keys.

  `f` says which calls are live, under which key, and what is seen of them; a call with `f a = none` is
  over. While no two live calls share a key (`Keyed`), the pool is a finite map from keys to calls, and
  `locate` reads it: a call starts under a free key (`locate_snoc`) and keeps its key until it ends
  (`locate_set`).
-/
import RemoteX11.Lib.Table

namespace RemoteX11.Lib

universe u v w

variable {α : Type u} {κ : Type v} {β : Type w}

/-- No two live calls share a key. -/
def Keyed (f : α → Option (κ × β)) (l : List α) : Prop :=
  ∀ (i j : Nat) a b k x y, l[i]? = some a → l[j]? = some b → f a = some (k, x) → f b = some (k, y) →
    i = j

theorem keyed_nil (f : α → Option (κ × β)) : Keyed f [] := by
  intro i j a b k x y hi
  simp at hi

variable {f : α → Option (κ × β)} {l : List α} {i : Nat} {a b : α} {k : κ} {x : β} {y : Option β}

theorem get_snoc (h : (l ++ [b])[i]? = some a) :
    l[i]? = some a ∨ i = l.length ∧ a = b := by
  by_cases hi : i < l.length
  · rw [List.getElem?_append_left hi] at h
    exact .inl h
  · have hlen := (List.getElem?_eq_some_iff.mp h).1
    rw [List.length_append, List.length_singleton] at hlen
    obtain rfl : i = l.length := by omega
    rw [List.getElem?_concat_length, Option.some.injEq] at h
    exact .inr ⟨rfl, h.symm⟩

/-- A live call keeps its key or ends. -/
theorem key_of_get_set (ha : l[i]? = some a) (hfb : f b = y.map (Prod.mk k))
    {j : Nat} {c : α} {k' : κ} {z : β} (hc : (l.set i b)[j]? = some c) (hfc : f c = some (k', z)) :
    j ≠ i ∧ l[j]? = some c ∨ j = i ∧ k' = k ∧ y = some z := by
  by_cases hj : i = j
  · subst hj
    rw [List.getElem?_set_self (List.getElem?_eq_some_iff.mp ha).1, Option.some.injEq] at hc
    subst hc
    rw [hfb] at hfc
    cases y with
    | none => contradiction
    | some y =>
      rw [Option.map_some, Option.some.injEq, Prod.mk.injEq] at hfc
      exact .inr ⟨rfl, hfc.1.symm, congrArg some hfc.2⟩
  · rw [List.getElem?_set_ne hj] at hc
    exact .inl ⟨Ne.symm hj, hc⟩

theorem Keyed.set (hl : Keyed f l) (ha : l[i]? = some a) (hfa : f a = some (k, x))
    (hfb : f b = y.map (Prod.mk k)) : Keyed f (l.set i b) := by
  intro j m c d k' z w hc hd hfc hfd
  rcases key_of_get_set ha hfb hc hfc with ⟨hj, hc⟩ | ⟨rfl, rfl, -⟩ <;>
    rcases key_of_get_set ha hfb hd hfd with ⟨hm, hd⟩ | ⟨hm, hk, -⟩
  · exact hl j m c d k' z w hc hd hfc hfd
  · exact absurd (hl j i c a k' z x hc ha hfc (hk ▸ hfa)) hj
  · exact absurd (hl m j d a k' w x hd ha hfd hfa) hm
  · exact hm.symm

variable [DecidableEq κ]

/-- The live call of a key: its number and what is seen of it. -/
def locate (f : α → Option (κ × β)) (l : List α) (k : κ) : Option (Nat × β) :=
  l.zipIdx.findSome? fun e =>
    match f e.1 with
    | some (k', x) => if k' = k then some (e.2, x) else none
    | none => none

/-- What `locate` finds is there. -/
theorem get_of_locate (h : locate f l k = some (i, x)) :
    ∃ a, l[i]? = some a ∧ f a = some (k, x) := by
  obtain ⟨⟨a, j⟩, hmem, hfound⟩ := List.exists_of_findSome?_eq_some h
  rw [List.mem_zipIdx_iff_getElem?] at hmem
  rcases hf : f a with _ | ⟨k', x'⟩
  · simp [hf] at hfound
  · simp only [hf] at hfound
    split at hfound
    · rename_i hk
      simp only [Option.some.injEq, Prod.mk.injEq] at hfound
      obtain ⟨rfl, rfl⟩ := hfound
      exact ⟨a, hmem, by rw [hf, hk]⟩
    · contradiction

/-- In a keyed pool `locate` finds exactly the live calls. -/
theorem locate_iff (hl : Keyed f l) :
    locate f l k = some (i, x) ↔ ∃ a, l[i]? = some a ∧ f a = some (k, x) := by
  refine ⟨get_of_locate, ?_⟩
  rintro ⟨a, ha, hf⟩
  rcases hloc : locate f l k with _ | ⟨j, y⟩
  · have := List.findSome?_eq_none_iff.mp hloc (a, i) (List.mem_zipIdx_iff_getElem?.mpr ha)
    simp [hf] at this
  · obtain ⟨b, hb, hfb⟩ := get_of_locate hloc
    obtain rfl := hl i j a b k x y ha hb hf hfb
    rw [ha, Option.some.injEq] at hb
    subst hb
    rw [hf, Option.some.injEq, Prod.mk.injEq] at hfb
    rw [hfb.2]

theorem locate_of_get (hl : Keyed f l) (ha : l[i]? = some a) (hf : f a = some (k, x)) :
    locate f l k = some (i, x) :=
  (locate_iff hl).mpr ⟨a, ha, hf⟩

/-- A call that takes a free key may join. -/
theorem Keyed.snoc (hl : Keyed f l) (hfb : f b = some (k, x))
    (hfree : locate f l k = none) : Keyed f (l ++ [b]) := by
  have hold : ∀ {i : Nat} {a : α} {y : β}, l[i]? = some a → f a ≠ some (k, y) := by
    intro i a y ha hfa
    rw [locate_of_get hl ha hfa] at hfree
    contradiction
  intro i j a c k' y z ha hc hfa hfc
  rcases get_snoc ha with ha' | ⟨hi, hab⟩ <;> rcases get_snoc hc with hc' | ⟨hj, hcb⟩
  · exact hl i j a c k' y z ha' hc' hfa hfc
  · rw [hcb, hfb, Option.some.injEq, Prod.mk.injEq] at hfc
    exact absurd (hfc.1 ▸ hfa) (hold ha')
  · rw [hab, hfb, Option.some.injEq, Prod.mk.injEq] at hfa
    exact absurd (hfa.1 ▸ hfc) (hold hc')
  · rw [hi, hj]

theorem locate_snoc (hl : Keyed f l) (hfb : f b = some (k, x))
    (hfree : locate f l k = none) (k' : κ) :
    locate f (l ++ [b]) k' = if k' = k then some (l.length, x) else locate f l k' := by
  ext ⟨i, y⟩
  rw [locate_iff (hl.snoc hfb hfree)]
  constructor
  · rintro ⟨a, ha, hfa⟩
    rcases get_snoc ha with ha | ⟨rfl, rfl⟩
    · have hloc := locate_of_get hl ha hfa
      have hk : k' ≠ k := by
        rintro rfl
        rw [hloc] at hfree
        contradiction
      rw [if_neg hk, hloc]
    · rw [hfb, Option.some.injEq, Prod.mk.injEq] at hfa
      rw [if_pos hfa.1.symm, hfa.2]
  · intro h
    split at h
    · rename_i hk
      simp only [Option.some.injEq, Prod.mk.injEq] at h
      obtain ⟨rfl, rfl⟩ := h
      exact ⟨b, by rw [List.getElem?_concat_length], by rw [hfb, hk]⟩
    · obtain ⟨a, ha, hfa⟩ := get_of_locate h
      have hlt := (List.getElem?_eq_some_iff.mp ha).1
      exact ⟨a, by rw [List.getElem?_append_left hlt, ha], hfa⟩

theorem locate_set (hl : Keyed f l) (ha : l[i]? = some a) (hfa : f a = some (k, x))
    (hfb : f b = y.map (Prod.mk k)) (k' : κ) :
    locate f (l.set i b) k' = if k' = k then y.map (Prod.mk i) else locate f l k' := by
  ext ⟨j, z⟩
  rw [locate_iff (hl.set ha hfa hfb)]
  constructor
  · rintro ⟨c, hc, hfc⟩
    rcases key_of_get_set ha hfb hc hfc with ⟨hj, hc⟩ | ⟨rfl, rfl, rfl⟩
    · have hk : k' ≠ k := by
        rintro rfl
        exact hj (hl j i c a k' z x hc ha hfc hfa)
      rw [if_neg hk, locate_of_get hl hc hfc]
    · rw [if_pos rfl, Option.map_some]
  · intro h
    split at h
    · rename_i hk
      obtain ⟨z', rfl, hz⟩ := Option.map_eq_some_iff.mp h
      simp only [Prod.mk.injEq] at hz
      obtain ⟨rfl, rfl⟩ := hz
      refine ⟨b, List.getElem?_set_self (List.getElem?_eq_some_iff.mp ha).1, ?_⟩
      rw [hfb, hk, Option.map_some]
    · rename_i hk
      obtain ⟨c, hc, hfc⟩ := get_of_locate h
      have hj : i ≠ j := by
        rintro rfl
        rw [ha, Option.some.injEq] at hc
        rw [← hc, hfa, Option.some.injEq, Prod.mk.injEq] at hfc
        exact hk hfc.1.symm
      exact ⟨c, by rw [List.getElem?_set_ne hj, hc], hfc⟩

end RemoteX11.Lib
