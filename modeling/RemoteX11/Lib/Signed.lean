/-
  Signed 32-bit numbers where they do not wrap, and scaling by a truncating division.

  `scaled m s r` carries a position `r` of a range of length `s` to a range of length `m`. It keeps the two ends
  and the order, and the order strictly when the second range is no shorter; carried there and back, a position
  is at most one below itself (`scaled_back`).
-/
import Mathlib.Tactic.Common
import Mathlib.Tactic.Linarith

namespace RemoteX11.Lib

/-! ## Numbers that fit -/

/-- `z` is a value of `i32`. -/
def FitsI32 (z : Int) : Prop := -2147483648 ≤ z ∧ z ≤ 2147483647

instance (z : Int) : Decidable (FitsI32 z) := inferInstanceAs (Decidable (_ ∧ _))

theorem fits_toInt (a : Int32) : FitsI32 a.toInt := ⟨a.le_toInt, Int.lt_add_one_iff.mp a.toInt_lt⟩

theorem bmod_of_fits {z : Int} (h : FitsI32 z) : z.bmod (2 ^ 32) = z := by
  obtain ⟨hlo, hhi⟩ := h
  exact Int.bmod_eq_of_le (by omega) (by omega)

theorem toInt_ofInt_of_fits {z : Int} (h : FitsI32 z) : (Int32.ofInt z).toInt = z := by
  rw [Int32.toInt_ofInt]
  exact bmod_of_fits h

theorem toInt_add_of_fits {a b : Int32} (h : FitsI32 (a.toInt + b.toInt)) :
    (a + b).toInt = a.toInt + b.toInt := by
  rw [Int32.toInt_add, bmod_of_fits h]

theorem toInt_sub_of_fits {a b : Int32} (h : FitsI32 (a.toInt - b.toInt)) :
    (a - b).toInt = a.toInt - b.toInt := by
  rw [Int32.toInt_sub, bmod_of_fits h]

/-- What was added comes off again, whether the sum wrapped or not. -/
theorem add_sub_self (a b : Int32) : a + b - a = b := by
  rw [Int32.add_comm, Int32.add_sub_cancel]

/-! ## Scaling -/

def scaled (m s r : Int) : Int := (r * m).tdiv s

theorem scaled_eq_ediv {m s r : Int} (hm : 0 ≤ m) (hr : 0 ≤ r) : scaled m s r = r * m / s :=
  Int.tdiv_eq_ediv_of_nonneg (Int.mul_nonneg hr hm)

theorem scaled_zero (m s : Int) : scaled m s 0 = 0 := by
  rw [scaled, Int.zero_mul, Int.zero_tdiv]

theorem scaled_self {m s : Int} (hs : 0 < s) : scaled m s s = m := by
  rw [scaled, Int.mul_comm]
  exact Int.mul_tdiv_cancel m (by omega)

/-- The position before the division, from both sides. -/
theorem scaled_bounds {m s r : Int} (hm : 0 ≤ m) (hs : 0 < s) (hr : 0 ≤ r) :
    scaled m s r * s ≤ r * m ∧ r * m < (scaled m s r + 1) * s := by
  rw [scaled_eq_ediv hm hr]
  exact ⟨Int.ediv_mul_le _ (by omega), Int.lt_ediv_add_one_mul_self _ hs⟩

theorem scaled_nonneg {m s r : Int} (hm : 0 ≤ m) (hs : 0 < s) (hr : 0 ≤ r) : 0 ≤ scaled m s r := by
  rw [scaled_eq_ediv hm hr]
  exact Int.ediv_nonneg (Int.mul_nonneg hr hm) (by omega)

theorem scaled_mono {m s r r' : Int} (hm : 0 ≤ m) (hs : 0 < s) (hr : 0 ≤ r) (h : r ≤ r') :
    scaled m s r ≤ scaled m s r' := by
  rw [scaled_eq_ediv hm hr, scaled_eq_ediv hm (Int.le_trans hr h)]
  exact Int.ediv_le_ediv hs (Int.mul_le_mul_of_nonneg_right h hm)

theorem scaled_le {m s r : Int} (hm : 0 ≤ m) (hs : 0 < s) (hr : 0 ≤ r) (h : r ≤ s) : scaled m s r ≤ m := by
  have := scaled_mono hm hs hr h
  rwa [scaled_self hs] at this

/-- Each step moves the image when the second range is no shorter. -/
theorem scaled_strictMono {m s r r' : Int} (hs : 0 < s) (hsm : s ≤ m) (hr : 0 ≤ r) (h : r < r') :
    scaled m s r < scaled m s r' := by
  have hbelow := (scaled_bounds (by omega) hs hr (m := m)).1
  have habove := (scaled_bounds (by omega) hs (by omega) (m := m) (r := r')).2
  have hstep : (r + 1) * m ≤ r' * m := Int.mul_le_mul_of_nonneg_right h (by omega)
  by_contra hle
  have hback : scaled m s r' * s ≤ scaled m s r * s :=
    Int.mul_le_mul_of_nonneg_right (Int.not_lt.mp hle) (by omega)
  rw [Int.add_mul] at habove hstep
  omega

/-- There and back: at most one below. -/
theorem scaled_back {m s r : Int} (hs : 0 < s) (hsm : s ≤ m) (hr : 0 ≤ r) :
    r - 1 ≤ scaled s m (scaled m s r) ∧ scaled s m (scaled m s r) ≤ r := by
  have hm : 0 < m := by omega
  obtain ⟨hlo, hhi⟩ := scaled_bounds (by omega) hs hr (m := m)
  have hnonneg := scaled_nonneg (by omega) hs hr (m := m)
  rw [scaled_eq_ediv (by omega) hnonneg]
  constructor
  · refine Int.le_ediv_of_mul_le hm ?_
    rw [Int.add_mul] at hhi
    rw [Int.sub_mul]
    omega
  · exact Int.ediv_le_of_le_mul hm hlo

end RemoteX11.Lib
