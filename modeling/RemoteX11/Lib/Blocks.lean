/-
  A stream cut into blocks of one size, and a state machine that runs over them.

  `blocks n l` are the whole blocks of `n` in `l`, `remainder n l` is what is left behind them. `machine f s xs`
  runs `f` from the state `s` over the inputs `xs` and returns the last state with the output of every step.
-/
import Mathlib.Tactic.Common

namespace RemoteX11.Lib

universe u v w

variable {α : Type u} {σ : Type v} {ω : Type w}

/-- The whole blocks of `n`. -/
def blocks (n : Nat) (l : List α) : List (List α) :=
  (List.range (l.length / n)).map fun k => (l.drop (n * k)).take n

/-- What is left behind the last whole block. -/
def remainder (n : Nat) (l : List α) : List α := l.drop (n * (l.length / n))

theorem blocks_short {n : Nat} {l : List α} (h : l.length < n) : blocks n l = [] := by
  unfold blocks
  rw [Nat.div_eq_of_lt h]
  rfl

theorem remainder_short {n : Nat} {l : List α} (h : l.length < n) : remainder n l = l := by
  unfold remainder
  rw [Nat.div_eq_of_lt h, Nat.mul_zero, List.drop_zero]

theorem length_drop_div {n : Nat} {l : List α} (hn : 0 < n) (h : n ≤ l.length) :
    l.length / n = (l.drop n).length / n + 1 := by
  rw [List.length_drop]
  exact Nat.div_eq_sub_div hn h

/-- The first block, and those behind it. -/
theorem blocks_step {n : Nat} {l : List α} (hn : 0 < n) (h : n ≤ l.length) :
    blocks n l = l.take n :: blocks n (l.drop n) := by
  unfold blocks
  rw [length_drop_div hn h, List.range_succ_eq_map, List.map_cons, List.map_map, Nat.mul_zero, List.drop_zero]
  congr 1
  refine List.map_congr_left fun k _ => ?_
  rw [Function.comp_apply, List.drop_drop, Nat.mul_succ, Nat.add_comm]

theorem remainder_step {n : Nat} {l : List α} (hn : 0 < n) (h : n ≤ l.length) :
    remainder n l = remainder n (l.drop n) := by
  unfold remainder
  rw [length_drop_div hn h, List.drop_drop, Nat.mul_succ, Nat.add_comm]

theorem length_of_mem_blocks {n : Nat} {l block : List α} (h : block ∈ blocks n l) : block.length = n := by
  obtain ⟨k, hk, rfl⟩ := List.mem_map.mp h
  have hlt := List.mem_range.mp hk
  have hle : n * (k + 1) ≤ n * (l.length / n) := Nat.mul_le_mul_left n hlt
  have hdiv := Nat.div_add_mod l.length n
  rw [Nat.mul_succ] at hle
  rw [List.length_take, List.length_drop]
  omega

theorem flatten_blocks_eq_take (n : Nat) (l : List α) :
    (blocks n l).flatten = l.take (n * (l.length / n)) := by
  unfold blocks
  generalize l.length / n = count
  induction count with
  | zero => simp
  | succ k ih =>
    rw [List.range_succ, List.map_append, List.flatten_append, ih, Nat.mul_succ, List.take_add]
    simp

/-- Nothing is lost, and nothing comes twice. -/
theorem flatten_blocks (n : Nat) (l : List α) : (blocks n l).flatten ++ remainder n l = l := by
  unfold remainder
  rw [flatten_blocks_eq_take, List.take_append_drop]

/-! ## A machine over the blocks -/

/-- The last state and the outputs. -/
def machine (f : σ → α → σ × ω) : σ → List α → σ × List ω
  | s, [] => (s, [])
  | s, x :: xs => ((machine f (f s x).1 xs).1, (f s x).2 :: (machine f (f s x).1 xs).2)

theorem machine_cons (f : σ → α → σ × ω) (s : σ) (x : α) (xs : List α) :
    machine f s (x :: xs) = ((machine f (f s x).1 xs).1, (f s x).2 :: (machine f (f s x).1 xs).2) := rfl

end RemoteX11.Lib
