/-
  A tree kept in an arena: node `i` has the children `children i`, and node 0 is the root.

  `visits step` walks the tree from a node and hands each child a value on the way down. A walk from the root
  visits every node (`visits_total`) once (`visits_nodup`), and every value handed to a child is the one the
  child is visited with (`mem_visits_of_step`). The fuel is the number of nodes.
-/
import Mathlib.Tactic.Common
import Mathlib.Data.List.Nodup

namespace RemoteX11.Lib

universe u

/-- Every node below `n` but the root is the child of one node, once, and has a number above that node's. -/
structure IsTree (n : Nat) (children : Nat → List Nat) : Prop where
  above : ∀ i c, c ∈ children i → i < c
  below : ∀ i c, c ∈ children i → c < n
  nodup : ∀ i, (children i).Nodup
  unique : ∀ i j c, c ∈ children i → c ∈ children j → i = j
  parent : ∀ c, 0 < c → c < n → ∃ i, c ∈ children i

theorem isTree_root {children : Nat → List Nat} (h : ∀ i, children i = []) : IsTree 1 children := by
  have hleaf : ∀ i c, c ∉ children i := by
    intro i c
    rw [h i]
    exact List.not_mem_nil
  constructor
  · exact fun i c hc => absurd hc (hleaf i c)
  · exact fun i c hc => absurd hc (hleaf i c)
  · intro i
    rw [h i]
    exact List.nodup_nil
  · exact fun i _ c hc => absurd hc (hleaf i c)
  · intro c hpos hlt
    omega

/-- A new node under `p`. -/
theorem IsTree.add {n : Nat} {children children' : Nat → List Nat} (tree : IsTree n children) {p : Nat}
    (hp : p < n) (h : ∀ i, children' i = if i = p then children i ++ [n] else children i) :
    IsTree (n + 1) children' := by
  have hmem : ∀ i c, c ∈ children' i ↔ c ∈ children i ∨ (i = p ∧ c = n) := by
    intro i c
    rw [h i]
    by_cases hi : i = p
    · rw [if_pos hi, List.mem_append, List.mem_singleton]
      exact ⟨fun hc => hc.imp_right fun hn => ⟨hi, hn⟩, fun hc => hc.imp_right And.right⟩
    · rw [if_neg hi]
      exact ⟨.inl, fun hc => hc.resolve_right fun hn => hi hn.1⟩
  have hold : ∀ i, n ∉ children i := fun i hn => absurd (tree.below i n hn) (Nat.lt_irrefl n)
  constructor
  · intro i c hc
    obtain hc | ⟨rfl, rfl⟩ := (hmem i c).mp hc
    · exact tree.above i c hc
    · exact hp
  · intro i c hc
    obtain hc | ⟨rfl, rfl⟩ := (hmem i c).mp hc
    · exact Nat.lt_succ_of_lt (tree.below i c hc)
    · exact Nat.lt_succ_self c
  · intro i
    rw [h i]
    split
    · exact (tree.nodup i).append (List.nodup_singleton n) (List.disjoint_singleton.mpr (hold i))
    · exact tree.nodup i
  · intro i j c hi hj
    obtain hi | ⟨rfl, hc⟩ := (hmem i c).mp hi
    · obtain hj | ⟨rfl, rfl⟩ := (hmem j c).mp hj
      · exact tree.unique i j c hi hj
      · exact absurd hi (hold i)
    · obtain hj | ⟨rfl, _⟩ := (hmem j c).mp hj
      · exact absurd (hc ▸ hj) (hold j)
      · rfl
  · intro c hpos hlt
    by_cases hc : c = n
    · exact ⟨p, (hmem p c).mpr (.inr ⟨rfl, hc⟩)⟩
    · obtain ⟨i, hi⟩ := tree.parent c hpos (by omega)
      exact ⟨i, (hmem i c).mpr (.inl hi)⟩

/-! ## Walking down -/

variable {β : Type u}

/-- The nodes in the order of a walk, each with the value it is handed. -/
def visits (step : Nat → β → List (Nat × β)) : Nat → Nat → β → List (Nat × β)
  | 0, _, _ => []
  | fuel + 1, i, b => (i, b) :: (step i b).flatMap fun r => visits step fuel r.1 r.2

theorem mem_visits_succ {step : Nat → β → List (Nat × β)} {fuel i : Nat} {b : β} {r : Nat × β} :
    r ∈ visits step (fuel + 1) i b ↔ r = (i, b) ∨ ∃ s ∈ step i b, r ∈ visits step fuel s.1 s.2 := by
  rw [visits, List.mem_cons, List.mem_flatMap]

/-- What is visited was handed down by a node visited before, but for the first. -/
theorem visits_parent {fuel i : Nat} {b : β} {r : Nat × β} (h : r ∈ visits step fuel i b) :
    r = (i, b) ∨ ∃ s ∈ visits step fuel i b, r ∈ step s.1 s.2 := by
  induction fuel generalizing i b with
  | zero => cases h
  | succ fuel ih =>
    obtain rfl | ⟨s, hs, hr⟩ := mem_visits_succ.mp h
    · exact .inl rfl
    · obtain rfl | ⟨t, ht, hrt⟩ := ih hr
      · exact .inr ⟨(i, b), List.mem_cons_self, hs⟩
      · exact .inr ⟨t, mem_visits_succ.mpr (.inr ⟨s, hs, ht⟩), hrt⟩

section

variable {n : Nat} {children : Nat → List Nat} (tree : IsTree n children)
  {step : Nat → β → List (Nat × β)} (hstep : ∀ i b, (step i b).map Prod.fst = children i)
include hstep

theorem mem_children_of_step {i : Nat} {b : β} {r : Nat × β} (h : r ∈ step i b) : r.1 ∈ children i := by
  rw [← hstep i b]
  exact List.mem_map_of_mem h

include tree

theorem visits_ge {fuel i : Nat} {b : β} {r : Nat × β} (h : r ∈ visits step fuel i b) : i ≤ r.1 := by
  induction fuel generalizing i b with
  | zero => cases h
  | succ fuel ih =>
    obtain rfl | ⟨s, hs, hr⟩ := mem_visits_succ.mp h
    · exact Nat.le_refl i
    · have hlt := tree.above i s.1 (mem_children_of_step hstep hs)
      have := ih hr
      omega

/-- What a visited node hands down is visited. -/
theorem mem_visits_of_step {fuel i : Nat} {b : β} (hfuel : n ≤ i + fuel) {r s : Nat × β}
    (hr : r ∈ visits step fuel i b) (hs : s ∈ step r.1 r.2) : s ∈ visits step fuel i b := by
  induction fuel generalizing i b with
  | zero => cases hr
  | succ fuel ih =>
    obtain rfl | ⟨t, ht, hrt⟩ := mem_visits_succ.mp hr
    · refine mem_visits_succ.mpr (.inr ⟨s, hs, ?_⟩)
      have habove := tree.above _ s.1 (mem_children_of_step hstep hs)
      have hbelow := tree.below _ s.1 (mem_children_of_step hstep hs)
      obtain ⟨rest, rfl⟩ : ∃ rest, fuel = rest + 1 := ⟨fuel - 1, by simp only at habove; omega⟩
      exact List.mem_cons_self
    · have habove := tree.above i t.1 (mem_children_of_step hstep ht)
      exact mem_visits_succ.mpr (.inr ⟨t, ht, ih (by omega) hrt⟩)

/-- The walks from two children of one node do not meet. -/
theorem visits_disjoint {fuel i c d : Nat} {b b' : β} (hc : c ∈ children i) (hd : d ∈ children i) (hne : c ≠ d)
    {x : Nat} (hxc : x ∈ (visits step fuel c b).map Prod.fst) :
    x ∉ (visits step fuel d b').map Prod.fst := by
  induction x using Nat.strongRecOn with
  | ind x ih =>
    intro hxd
    obtain ⟨r, hr, hrx⟩ := List.mem_map.mp hxc
    obtain ⟨s, hs, hsx⟩ := List.mem_map.mp hxd
    -- the one parent of `x` is `i`, or in both walks
    have hchild : ∀ {k : Nat} {a : β} {t : Nat × β}, k ∈ children i → t ∈ visits step fuel k a →
        t.1 ∈ children i → t.1 = k := by
      intro k a t hk ht hti
      obtain rfl | ⟨p, hp, htp⟩ := visits_parent ht
      · rfl
      · have hpi := tree.unique p.1 i t.1 (mem_children_of_step hstep htp) hti
        have hge := visits_ge tree hstep hp
        have hlt := tree.above i k hk
        omega
    obtain rfl | ⟨p, hp, hrp⟩ := visits_parent hr
    · have hxi : s.1 ∈ children i := by
        rw [hsx, ← hrx]
        exact hc
      have hsd := hchild hd hs hxi
      have hcx : c = x := hrx
      omega
    · obtain rfl | ⟨q, hq, hsq⟩ := visits_parent hs
      · have hxi : r.1 ∈ children i := by
          rw [hrx, ← hsx]
          exact hd
        have hrc := hchild hc hr hxi
        have hdx : d = x := hsx
        omega
      · have hpx := mem_children_of_step hstep hrp
        have hqx := mem_children_of_step hstep hsq
        rw [hrx] at hpx
        rw [hsx] at hqx
        have hpq := tree.unique p.1 q.1 x hpx hqx
        refine ih p.1 (tree.above p.1 x hpx) (List.mem_map_of_mem hp) ?_
        rw [hpq]
        exact List.mem_map_of_mem hq

/-- No node is visited twice. -/
theorem visits_nodup (fuel i : Nat) (b : β) : ((visits step fuel i b).map Prod.fst).Nodup := by
  induction fuel generalizing i b with
  | zero => exact List.nodup_nil
  | succ fuel ih =>
    rw [visits, List.map_cons, List.nodup_cons]
    constructor
    · intro hi
      obtain ⟨r, hr, hri⟩ := List.mem_map.mp hi
      obtain ⟨s, hs, hrs⟩ := List.mem_flatMap.mp hr
      have hge := visits_ge tree hstep hrs
      have hlt := tree.above i s.1 (mem_children_of_step hstep hs)
      simp only at hri
      omega
    · rw [List.map_flatMap, List.nodup_flatMap]
      refine ⟨fun s _ => ih s.1 s.2, ?_⟩
      have hdistinct : (step i b).Pairwise fun s t => s.1 ≠ t.1 := by
        have := tree.nodup i
        rw [← hstep i b] at this
        exact List.pairwise_map.mp this
      refine hdistinct.imp_of_mem ?_
      intro s t hs ht hne x hxs hxt
      exact visits_disjoint tree hstep (mem_children_of_step hstep hs) (mem_children_of_step hstep ht) hne hxs hxt

/-- A walk from the root visits every node. -/
theorem visits_total {fuel : Nat} (hfuel : n ≤ fuel) (b : β) {c : Nat} (hc : c < n) :
    ∃ a, (c, a) ∈ visits step fuel 0 b := by
  induction c using Nat.strongRecOn with
  | ind c ih =>
    by_cases hzero : c = 0
    · obtain ⟨rest, rfl⟩ : ∃ rest, fuel = rest + 1 := ⟨fuel - 1, by omega⟩
      exact ⟨b, hzero ▸ List.mem_cons_self⟩
    · obtain ⟨p, hp⟩ := tree.parent c (by omega) hc
      have hlt := tree.above p c hp
      obtain ⟨a, ha⟩ := ih p hlt (by omega)
      rw [← hstep p a] at hp
      obtain ⟨s, hs, hsc⟩ := List.mem_map.mp hp
      have hmem := mem_visits_of_step tree hstep (by omega) ha hs
      exact ⟨s.2, hsc ▸ hmem⟩

end

/-! ## Writing the values down -/

theorem foldl_set_of_not_mem (l : List (Nat × β)) (xs : List β) {k : Nat} (h : k ∉ l.map Prod.fst) :
    (l.foldl (fun acc r => acc.set r.1 r.2) xs)[k]? = xs[k]? := by
  induction l generalizing xs with
  | nil => rfl
  | cons r l ih =>
    rw [List.map_cons, List.mem_cons, not_or] at h
    rw [List.foldl_cons, ih _ h.2, List.getElem?_set_ne (Ne.symm h.1)]

/-- Each number written once holds what was written. -/
theorem foldl_set_of_mem {l : List (Nat × β)} (hl : (l.map Prod.fst).Nodup) {xs : List β} {k : Nat} {b : β}
    (h : (k, b) ∈ l) (hk : k < xs.length) : (l.foldl (fun acc r => acc.set r.1 r.2) xs)[k]? = some b := by
  induction l generalizing xs with
  | nil => cases h
  | cons r l ih =>
    rw [List.map_cons, List.nodup_cons] at hl
    rw [List.foldl_cons]
    obtain rfl | hmem := List.mem_cons.mp h
    · rw [foldl_set_of_not_mem l _ hl.1, List.getElem?_set_self hk]
    · exact ih hl.2 hmem (by rwa [List.length_set])

end RemoteX11.Lib
