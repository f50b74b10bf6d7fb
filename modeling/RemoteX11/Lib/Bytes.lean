/-
  Byte strings: fields of a fixed width and in-place writes.

  `beBytes k n` is the `k`-byte big-endian form of `n` (`to_be_bytes`) and `beNat` reads one back
  (`from_be_bytes`); `leBytes` and `leNat` are the little-endian ones. `overwrite bs i d` is
  `copy_from_slice` of `d` into `bs` at offset `i`.

  `readAt`, `slice`, `drain` and `checkedSub` check their bounds: `none` where the access panics.
-/
import Mathlib.Tactic.Common
import Mathlib.Algebra.Ring.Nat
import Mathlib.Data.List.Induction

namespace RemoteX11.Lib

abbrev Bytes := List UInt8

/-! ## Big-endian fields -/

/-- The `k` low bytes of `n`, most significant first. -/
def beBytes : Nat → Nat → Bytes
  | 0, _ => []
  | k + 1, n => beBytes k (n / 256) ++ [UInt8.ofNat n]

/-- The value of a byte string, most significant byte first. -/
def beNat (bs : Bytes) : Nat := bs.foldl (fun n b => 256 * n + b.toNat) 0

@[simp] theorem beBytes_length (k n : Nat) : (beBytes k n).length = k := by
  induction k generalizing n with
  | zero => rfl
  | succ k ih => simp [beBytes, ih]

theorem beNat_append_singleton (bs : Bytes) (b : UInt8) :
    beNat (bs ++ [b]) = 256 * beNat bs + b.toNat := by
  simp [beNat, List.foldl_append]

/-- A field that fits its width is read back. -/
theorem beNat_beBytes (k n : Nat) (h : n < 256 ^ k) : beNat (beBytes k n) = n := by
  induction k generalizing n with
  | zero =>
    have : n = 0 := by simpa using h
    simp [beBytes, beNat, this]
  | succ k ih =>
    have hlt : n / 256 < 256 ^ k := by
      rw [Nat.pow_succ] at h
      exact Nat.div_lt_of_lt_mul (by rwa [Nat.mul_comm])
    rw [beBytes, beNat_append_singleton, ih _ hlt, UInt8.toNat_ofNat']
    exact Nat.div_add_mod n 256

theorem beNat_lt (bs : Bytes) : beNat bs < 256 ^ bs.length := by
  induction bs using List.reverseRecOn with
  | nil => decide
  | append_singleton bs b ih =>
    have hb : b.toNat < 256 := b.toNat_lt
    rw [beNat_append_singleton, List.length_append, List.length_singleton, Nat.pow_succ]
    omega

/-- A field that was read is written as the bytes it was read from. -/
theorem beBytes_beNat (bs : Bytes) : beBytes bs.length (beNat bs) = bs := by
  induction bs using List.reverseRecOn with
  | nil => rfl
  | append_singleton bs b ih =>
    have hb : b.toNat < 256 := b.toNat_lt
    have hhigh : (256 * beNat bs + b.toNat) / 256 = beNat bs := by omega
    have hlow : UInt8.ofNat (256 * beNat bs + b.toNat) = b := by
      apply UInt8.toNat_inj.mp
      rw [UInt8.toNat_ofNat']
      omega
    rw [beNat_append_singleton, List.length_append, List.length_singleton, beBytes, hhigh, hlow, ih]

/-- The field at the head of a string is the bytes it was written as. -/
theorem beNat_take_beBytes (k n : Nat) (rest : Bytes) (h : n < 256 ^ k) :
    beNat ((beBytes k n ++ rest).take k) = n := by
  rw [List.take_left' (beBytes_length k n), beNat_beBytes k n h]

theorem drop_beBytes (k n : Nat) (rest : Bytes) : (beBytes k n ++ rest).drop k = rest :=
  List.drop_left' (beBytes_length k n)

/-! ## Little-endian fields -/

/-- The `k` low bytes of `n`, least significant first. -/
def leBytes (k n : Nat) : Bytes := (beBytes k n).reverse

/-- The value of a byte string, least significant byte first. -/
def leNat (bs : Bytes) : Nat := beNat bs.reverse

@[simp] theorem leBytes_length (k n : Nat) : (leBytes k n).length = k := by
  simp [leBytes]

theorem leNat_leBytes (k n : Nat) (h : n < 256 ^ k) : leNat (leBytes k n) = n := by
  rw [leNat, leBytes, List.reverse_reverse, beNat_beBytes k n h]

/-- The `i`-th of a row of fields. -/
theorem take_drop_leBytes (k : Nat) (fields : List Nat) (rest : Bytes) (i : Nat)
    (hi : i < fields.length) :
    ((fields.flatMap (leBytes k) ++ rest).drop (i * k)).take k = leBytes k fields[i] := by
  induction fields generalizing i with
  | nil => cases hi
  | cons n fields ih =>
    rw [List.flatMap_cons, List.append_assoc]
    cases i with
    | zero =>
      rw [Nat.zero_mul, List.drop_zero]
      exact List.take_left' (leBytes_length k n)
    | succ i =>
      rw [Nat.succ_mul, Nat.add_comm, ← List.drop_drop, List.drop_left' (leBytes_length k n)]
      exact ih i (by simpa using hi)

theorem flatMap_leBytes_length (k : Nat) (fields : List Nat) :
    (fields.flatMap (leBytes k)).length = fields.length * k := by
  induction fields with
  | nil => simp
  | cons n fields ih =>
    rw [List.flatMap_cons, List.length_append, leBytes_length, ih, List.length_cons, Nat.succ_mul,
      Nat.add_comm]

/-! ## In-place writes -/

/-- Write `d` over the bytes of `bs` that start at `i`. -/
def overwrite (bs : Bytes) (i : Nat) (d : Bytes) : Bytes :=
  bs.take i ++ d ++ bs.drop (i + d.length)

/-- Writing the bytes of `new` at `i` into a string that already agrees with `new` before `i`
    makes it agree with `new` up to the end of the write. -/
theorem take_overwrite (bs new : Bytes) (i k : Nat) (hk : i + k ≤ new.length)
    (hb : i ≤ bs.length) (h : bs.take i = new.take i) :
    (overwrite bs i ((new.drop i).take k)).take (i + k) = new.take (i + k) := by
  have hd : ((new.drop i).take k).length = k := by
    rw [List.length_take, List.length_drop]; omega
  have hi : (bs.take i).length = i := by rw [List.length_take]; omega
  rw [overwrite, List.take_left' (by rw [List.length_append, hi, hd]), h, ← List.take_add]

theorem drop_overwrite (bs : Bytes) (i : Nat) (d : Bytes) (hb : i ≤ bs.length) :
    (overwrite bs i d).drop (i + d.length) = bs.drop (i + d.length) := by
  have hi : (bs.take i).length = i := by rw [List.length_take]; omega
  rw [overwrite, List.drop_left' (by rw [List.length_append, hi])]

theorem length_overwrite (bs : Bytes) (i : Nat) (d : Bytes) (h : i + d.length ≤ bs.length) :
    (overwrite bs i d).length = bs.length := by
  simp only [overwrite, List.length_append, List.length_take, List.length_drop]
  omega

/-- A write changes the bytes it covers. -/
theorem getD_overwrite (bs d : Bytes) (i j : Nat) (h : i + d.length ≤ bs.length) :
    (overwrite bs i d).getD j 0 =
      if i ≤ j ∧ j < i + d.length then d.getD (j - i) 0 else bs.getD j 0 := by
  have hi : (bs.take i).length = i := by rw [List.length_take]; omega
  simp only [List.getD_eq_getElem?_getD, overwrite, List.append_assoc]
  by_cases hbefore : j < i
  · rw [if_neg (by omega), List.getElem?_append_left (by omega), List.getElem?_take_of_lt hbefore]
  · rw [List.getElem?_append_right (by omega), hi]
    by_cases hin : j < i + d.length
    · rw [if_pos (by omega), List.getElem?_append_left (by omega)]
    · rw [if_neg (by omega), List.getElem?_append_right (by omega), List.getElem?_drop]
      congr 2
      omega

/-! ## Checked accesses -/

/-- The `k` bytes from `i` on, each read by its index. -/
def readAt (bs : Bytes) (i : Nat) : Nat → Option Bytes
  | 0 => some []
  | k + 1 => bs[i]?.bind fun b => (readAt bs (i + 1) k).map (b :: ·)

/-- `&bs[i..j]`. -/
def slice (bs : Bytes) (i j : Nat) : Option Bytes :=
  if i ≤ j ∧ j ≤ bs.length then some ((bs.drop i).take (j - i)) else none

/-- `bs.drain(..n)`: what it leaves. -/
def drain (bs : Bytes) (n : Nat) : Option Bytes := if n ≤ bs.length then some (bs.drop n) else none

/-- `a - b` of unsigned numbers. -/
def checkedSub (a b : Nat) : Option Nat := if b ≤ a then some (a - b) else none

theorem getElem?_eq_some_getD {bs : Bytes} {i : Nat} (h : i < bs.length) : bs[i]? = some (bs.getD i 0) := by
  rw [List.getD_eq_getElem?_getD, List.getElem?_eq_getElem h, Option.getD_some]

theorem readAt_of_le {bs : Bytes} {i k : Nat} (h : i + k ≤ bs.length) :
    readAt bs i k = some ((bs.drop i).take k) := by
  induction k generalizing i with
  | zero => rw [readAt, List.take_zero]
  | succ k ih =>
    have hi : i < bs.length := by omega
    rw [readAt, List.getElem?_eq_getElem hi, Option.bind_some, ih (by omega), Option.map_some,
      List.drop_eq_getElem_cons hi, List.take_succ_cons]

theorem slice_of_le {bs : Bytes} {i j : Nat} (hij : i ≤ j) (hj : j ≤ bs.length) :
    slice bs i j = some ((bs.drop i).take (j - i)) := if_pos ⟨hij, hj⟩

theorem slice_zero {bs : Bytes} {n : Nat} (h : n ≤ bs.length) : slice bs 0 n = some (bs.take n) :=
  slice_of_le (Nat.zero_le n) h

theorem slice_of_lt {bs : Bytes} {i j : Nat} (h : bs.length < j) : slice bs i j = none :=
  if_neg fun hin => absurd hin.2 (Nat.not_le_of_lt h)

theorem drain_of_le {bs : Bytes} {n : Nat} (h : n ≤ bs.length) : drain bs n = some (bs.drop n) := if_pos h

theorem checkedSub_of_le {a b : Nat} (h : b ≤ a) : checkedSub a b = some (a - b) := if_pos h

theorem drain_eq_some {bs rest : Bytes} {n : Nat} (h : drain bs n = some rest) :
    n ≤ bs.length ∧ rest = bs.drop n := by
  unfold drain at h
  split at h
  · rename_i hn
    exact ⟨hn, (Option.some.inj h).symm⟩
  · cases h

end RemoteX11.Lib
