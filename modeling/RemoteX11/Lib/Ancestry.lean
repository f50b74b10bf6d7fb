/-
  Chains of parents, for any type and any partial parent function.

  `Ancestry parent x l` says that `l` is `x`, its parent, the parent of that, and so on up to one that has
  none. There is at most one such list (`Ancestry.unique`), so nobody stands in it twice
  (`Ancestry.nodup`). `climb parent n x []` walks up for at most `n` members and stops at one it has seen;
  where there is an ancestry, it gives the first `n` of it (`climb_eq_take`). Where the parents go in a
  circle it is still a chain (`isChain_climb`).
-/
import Mathlib.Data.List.Basic
import Mathlib.Data.List.Chain
import Mathlib.Data.List.Nodup

namespace RemoteX11.Lib

universe u

variable {α : Type u} {parent : α → Option α} {x y : α} {l m : List α}

/-- `x` and its ancestors, nearest first. -/
inductive Ancestry (parent : α → Option α) : α → List α → Prop where
  | top {x : α} : parent x = none → Ancestry parent x [x]
  | step {x y : α} {l : List α} : parent x = some y → Ancestry parent y l → Ancestry parent x (x :: l)

namespace Ancestry

theorem head (h : Ancestry parent x l) : l.head? = some x := by
  cases h <;> rfl

theorem unique (h : Ancestry parent x l) (h' : Ancestry parent x m) : l = m := by
  induction h generalizing m with
  | top htop =>
    cases h' with
    | top => rfl
    | step hstep => rw [htop] at hstep; cases hstep
  | step hstep _ ih =>
    cases h' with
    | top htop => rw [htop] at hstep; cases hstep
    | step hstep' hrest =>
      obtain rfl := Option.some.inj (hstep.symm.trans hstep')
      rw [ih hrest]

/-- What stands behind a member is its own ancestry. -/
theorem suffix {pre : List α} (h : Ancestry parent x (pre ++ y :: l)) : Ancestry parent y (y :: l) := by
  induction pre generalizing x with
  | nil =>
    obtain rfl : y = x := by simpa using h.head
    exact h
  | cons a pre ih =>
    rw [List.cons_append] at h
    cases hrest : pre ++ y :: l with
    | nil => simp at hrest
    | cons b m =>
      rw [hrest] at h
      cases h with
      | step _ hm => exact ih (hrest ▸ hm)

theorem isChain (h : Ancestry parent x l) : l.IsChain fun x y => parent x = some y := by
  induction h with
  | top => exact List.isChain_singleton _
  | step hstep hrest ih =>
    refine List.IsChain.cons ih fun y hy => ?_
    rw [hrest.head] at hy
    obtain rfl := Option.some.inj hy
    exact hstep

theorem nodup (h : Ancestry parent x l) : l.Nodup := by
  induction h with
  | top => exact List.nodup_singleton _
  | @step x y l hstep hrest ih =>
    refine List.nodup_cons.mpr ⟨fun hx => ?_, ih⟩
    -- a second `x` would have the whole list behind it once more
    obtain ⟨pre, post, rfl⟩ := List.append_of_mem hx
    have hlen := congrArg List.length ((step hstep hrest).unique hrest.suffix)
    simp only [List.length_cons, List.length_append] at hlen
    omega

end Ancestry

/-! ## Walking up -/

variable [DecidableEq α]

/-- At most `n` more members from `x` up, behind those that have been seen. -/
def climb (parent : α → Option α) : Nat → α → List α → List α
  | 0, _, seen => seen
  | n + 1, x, seen =>
    if x ∈ seen then seen
    else
      match parent x with
      | none => seen ++ [x]
      | some y => climb parent n y (seen ++ [x])

theorem climb_append (h : Ancestry parent x l) (n : Nat) {seen : List α} (hseen : ∀ y ∈ l, y ∉ seen) :
    climb parent n x seen = seen ++ l.take n := by
  induction h generalizing n seen with
  | @top x htop =>
    cases n with
    | zero => simp [climb]
    | succ n =>
      rw [climb, if_neg (hseen x (by simp)), htop]
      simp
  | @step x y l hstep hrest ih =>
    cases n with
    | zero => simp [climb]
    | succ n =>
      have hx := List.nodup_cons.mp (Ancestry.step hstep hrest).nodup
      have hseen' : ∀ z ∈ l, z ∉ seen ++ [x] := by
        intro z hz hmem
        rcases List.mem_append.mp hmem with hmem | hmem
        · exact hseen z (List.mem_cons_of_mem _ hz) hmem
        · exact hx.1 (List.mem_singleton.mp hmem ▸ hz)
      rw [climb, if_neg (hseen x (by simp)), hstep]
      simp only [ih n hseen', List.take_succ_cons, List.append_assoc, List.singleton_append]

/-- **Walking up** gives the ancestry, as far as the bound goes. -/
theorem climb_eq_take (h : Ancestry parent x l) (n : Nat) : climb parent n x [] = l.take n := by
  rw [climb_append h n (fun _ _ => List.not_mem_nil), List.nil_append]

/-- What has been seen stays in front. -/
theorem prefix_climb (n : Nat) (x : α) (seen : List α) : seen <+: climb parent n x seen := by
  induction n generalizing x seen with
  | zero => exact List.prefix_rfl
  | succ n ih =>
    rw [climb]
    split
    · exact List.prefix_rfl
    · split
      · exact List.prefix_append _ _
      · exact (List.prefix_append _ _).trans (ih _ _)

/-- A walk is a chain, if what was seen before is one that leads to where it begins. -/
theorem isChain_climb {seen : List α} (hseen : seen.IsChain fun x y => parent x = some y)
    (hlast : ∀ y ∈ seen.getLast?, parent y = some x) (n : Nat) :
    (climb parent n x seen).IsChain fun x y => parent x = some y := by
  induction n generalizing x seen with
  | zero => exact hseen
  | succ n ih =>
    have hnext : (seen ++ [x]).IsChain fun x y => parent x = some y := by
      refine List.isChain_append.mpr ⟨hseen, List.isChain_singleton _, fun y hy z hz => ?_⟩
      obtain rfl : x = z := by simpa using hz
      exact hlast y hy
    rw [climb]
    split
    · exact hseen
    · split
      · exact hnext
      · refine ih hnext fun y hy => ?_
        obtain rfl : x = y := by simpa using hy
        assumption

theorem head_climb (n : Nat) (x : α) : (climb parent (n + 1) x []).head? = some x := by
  rw [climb, if_neg List.not_mem_nil]
  split
  · rfl
  · rename_i y _
    have hprefix : [] ++ [x] <+: climb parent n y ([] ++ [x]) := prefix_climb n y _
    obtain ⟨rest, hrest⟩ := hprefix
    rw [← hrest]
    rfl

/-- A walk begins with its first two members. -/
theorem climb_two (h : parent x = some y) (hne : y ≠ x) (n : Nat) : [x, y] <+: climb parent (n + 2) x [] := by
  rw [climb, if_neg List.not_mem_nil, h]
  simp only [List.nil_append]
  rw [climb, if_neg (by simpa using hne)]
  split
  · exact List.prefix_rfl
  · exact prefix_climb _ _ _

end RemoteX11.Lib
