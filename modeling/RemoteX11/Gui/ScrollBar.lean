/-
  The scroll bar of a list (`ui/scrollbar.rs`).

  A number of the source is an `i32` here, and its arithmetic wraps as a release build's does; a product is
  taken in `i64`, where it fits, and is an `Int`. `x` and the height of a bar are only painted and hit.

  A page keeps the knob inside `knob_top_range` before it asks `scroll_at` for the offset there, and
  `scroll_at` relies on that as far as the difference to the top goes: it wraps for a position far above
  (`scrollAt_wraps`).
-/
import RemoteX11.Lib.Signed

namespace RemoteX11.Gui

open RemoteX11.Lib

/-- `MIN_THUMB`. -/
def minThumb : Int := 24

structure ScrollBar where
  x : Int32
  top : Int32
  height : Int32
  view : Int32
  thumbTop : Int32
  thumbH : Int32
  maxScroll : Int32
  span : Int32
  deriving DecidableEq

namespace ScrollBar

def new (x top height content view scroll : Int32) : Option ScrollBar :=
  let maxScroll := content - view
  if maxScroll ≤ 0 ∨ height ≤ 0 ∨ content ≤ 0 then none
  else
    let thumbH := Int32.ofInt
      (min (max ((height.toInt * view.toInt).tdiv (max content 1).toInt) minThumb) height.toInt)
    let span := height - thumbH
    let thumbTop := top + Int32.ofInt ((span.toInt * scroll.toInt).tdiv maxScroll.toInt)
    some ⟨x, top, height, view, thumbTop, thumbH, maxScroll, span⟩

/-- `i32::clamp`. -/
def clamp (v lo hi : Int32) : Int32 := if v < lo then lo else if hi < v then hi else v

def scrollAt (b : ScrollBar) (thumbTop : Int32) : Int32 :=
  if b.span ≤ 0 then 0
  else
    let rel := clamp (thumbTop - b.top) 0 b.span
    Int32.ofInt ((rel.toInt * b.maxScroll.toInt).tdiv b.span.toInt)

def knobTopRange (b : ScrollBar) : Int32 × Int32 := (b.top, b.top + b.span)

end ScrollBar

/-! ## The window of rows -/

/-- `list_max_scroll`. A list has fewer rows than would overflow here, so the numbers are plain. -/
def listMaxScroll (total fit : Nat) (rowH : Int) : Int := max ((total : Int) - fit) 0 * rowH

/-- `list_row_window`: the first row, how far it is scrolled past the top, and how many rows to draw. -/
def listRowWindow (scrollPx : Int) (total fit : Nat) (rowH : Int) : Nat × Int × Nat :=
  let first := (max (scrollPx.tdiv rowH) 0).toNat
  let frac := scrollPx.emod rowH
  let count := min (fit + 1) (total - first)
  (first, frac, count)

/-! ## The arithmetic of a bar -/

/-- What `ScrollBar::new` builds, and builds again at another offset. -/
structure Built (x top height content view : Int32) (b : ScrollBar) : Prop where
  top_eq : b.top = top
  maxScroll_pos : 0 < b.maxScroll.toInt
  again : ∀ scroll, ∃ after, ScrollBar.new x top height content view scroll = some after ∧
    after.thumbTop = top + Int32.ofInt (scaled b.span.toInt b.maxScroll.toInt scroll.toInt)

theorem new_built {x top height content view scroll : Int32} {b : ScrollBar}
    (h : ScrollBar.new x top height content view scroll = some b) : Built x top height content view b := by
  unfold ScrollBar.new at h
  simp only at h
  split at h
  · cases h
  · rename_i hshown
    cases h
    refine ⟨rfl, ?_, ?_⟩
    · rw [not_or, Int32.not_le, Int32.lt_iff_toInt_lt] at hshown
      exact hshown.1
    · intro scroll'
      refine ⟨_, if_neg hshown, ?_⟩
      rw [scaled, Int.mul_comm]

theorem clamp_toInt {v lo hi : Int32} (h : lo.toInt ≤ hi.toInt) :
    (ScrollBar.clamp v lo hi).toInt = max lo.toInt (min v.toInt hi.toInt) := by
  unfold ScrollBar.clamp
  simp only [Int32.lt_iff_toInt_lt]
  split
  · omega
  · split <;> omega

/-- How far below the top `scroll_at` takes a position to be. -/
def ScrollBar.below (b : ScrollBar) (p : Int32) : Int := max 0 (min (p - b.top).toInt b.span.toInt)

theorem below_range {b : ScrollBar} (hspan : 0 < b.span.toInt) (p : Int32) :
    0 ≤ b.below p ∧ b.below p ≤ b.span.toInt := by
  unfold ScrollBar.below
  omega

theorem scrollAt_toInt {b : ScrollBar} (hmax : 0 < b.maxScroll.toInt) (hspan : 0 < b.span.toInt) (p : Int32) :
    (b.scrollAt p).toInt = scaled b.maxScroll.toInt b.span.toInt (b.below p) := by
  have hshown : ¬ b.span ≤ 0 := by
    rw [Int32.not_le, Int32.lt_iff_toInt_lt]
    exact hspan
  have hrel : (ScrollBar.clamp (p - b.top) 0 b.span).toInt = b.below p := clamp_toInt (Int.le_of_lt hspan)
  obtain ⟨hlo, hhi⟩ := below_range hspan p
  have hnonneg : 0 ≤ scaled b.maxScroll.toInt b.span.toInt (b.below p) := scaled_nonneg (by omega) hspan hlo
  have hle : scaled b.maxScroll.toInt b.span.toInt (b.below p) ≤ b.maxScroll.toInt :=
    scaled_le (by omega) hspan hlo hhi
  have hmaxFits := (fits_toInt b.maxScroll).2
  have hfits : FitsI32 (scaled b.maxScroll.toInt b.span.toInt (b.below p)) := ⟨by omega, by omega⟩
  unfold ScrollBar.scrollAt
  rw [if_neg hshown]
  simp only [hrel]
  exact toInt_ofInt_of_fits hfits

/-! ## Positions of the knob -/

/-- `p` is inside the track: no higher than its top, and no lower than the knob goes. -/
def ScrollBar.InTrack (b : ScrollBar) (p : Int32) : Prop :=
  b.top.toInt ≤ p.toInt ∧ p.toInt ≤ b.top.toInt + b.span.toInt

theorem below_of_inTrack {b : ScrollBar} {p : Int32} (h : b.InTrack p) : b.below p = p.toInt - b.top.toInt := by
  obtain ⟨hlo, hhi⟩ := h
  have hsub : (p - b.top).toInt = p.toInt - b.top.toInt := by
    have := (fits_toInt b.span).2
    exact toInt_sub_of_fits ⟨by omega, by omega⟩
  unfold ScrollBar.below
  omega

/-- A sum that wraps leaves `knob_top_range` empty. -/
theorem inTrack_of_knobTopRange {b : ScrollBar} (hspan : 0 < b.span.toInt) {p : Int32}
    (hlo : b.knobTopRange.1 ≤ p) (hhi : p ≤ b.knobTopRange.2) : b.InTrack p := by
  unfold ScrollBar.knobTopRange at hlo hhi
  rw [Int32.le_iff_toInt_le] at hlo hhi
  refine ⟨hlo, ?_⟩
  obtain ⟨_, htop⟩ := fits_toInt b.top
  obtain ⟨_, hsum⟩ := fits_toInt b.span
  obtain ⟨hmin, _⟩ := fits_toInt b.top
  by_cases hfits : FitsI32 (b.top.toInt + b.span.toInt)
  · rwa [toInt_add_of_fits hfits] at hhi
  · obtain ⟨_, hp⟩ := fits_toInt p
    unfold FitsI32 at hfits
    omega

/-- The thumb of the bar rebuilt at the offset of `p`. -/
theorem thumbTop_at {x top height content view : Int32} {b : ScrollBar}
    (hb : Built x top height content view b) (hspan : 0 < b.span.toInt)
    (hlong : b.span.toInt ≤ b.maxScroll.toInt) {p : Int32} (hp : b.InTrack p) :
    ∃ after, ScrollBar.new x top height content view (b.scrollAt p) = some after ∧
      p.toInt - 1 ≤ after.thumbTop.toInt ∧ after.thumbTop.toInt ≤ p.toInt := by
  obtain ⟨after, hafter, hthumb⟩ := hb.again (b.scrollAt p)
  have hbelow := below_of_inTrack hp
  obtain ⟨hlo, hhi⟩ := hp
  obtain ⟨hpMin, hpMax⟩ := fits_toInt p
  obtain ⟨htopMin, _⟩ := fits_toInt b.top
  obtain ⟨_, hspanMax⟩ := fits_toInt b.span
  rw [scrollAt_toInt hb.maxScroll_pos hspan] at hthumb
  obtain ⟨hback, hback'⟩ := scaled_back hspan hlong (r := b.below p) (by omega)
  have hnonneg : 0 ≤ scaled b.span.toInt b.maxScroll.toInt (scaled b.maxScroll.toInt b.span.toInt (b.below p)) :=
    scaled_nonneg (by omega) hb.maxScroll_pos (scaled_nonneg (by omega) hspan (by omega))
  generalize scaled b.span.toInt b.maxScroll.toInt (scaled b.maxScroll.toInt b.span.toInt (b.below p)) = back
    at hthumb hback hback' hnonneg
  have hof : (Int32.ofInt back).toInt = back := toInt_ofInt_of_fits ⟨by omega, by omega⟩
  have htop : after.thumbTop.toInt = b.top.toInt + back := by
    rw [hthumb, ← hb.top_eq, toInt_add_of_fits, hof]
    rw [hof]
    exact ⟨by omega, by omega⟩
  exact ⟨after, hafter, by omega, by omega⟩

/-- The offset follows the knob, in order and inside the track strictly, from one end of the list to the other;
    and the thumb of a bar rebuilt at that offset is where the knob was, up to one unit. -/
theorem scrollAt_follows_knob {x top height content view scroll : Int32} {b : ScrollBar}
    (h : ScrollBar.new x top height content view scroll = some b) (hspan : 0 < b.span) :
    (∀ p q : Int32, FitsI32 (p.toInt - top.toInt) → FitsI32 (q.toInt - top.toInt) → p ≤ q →
      b.scrollAt p ≤ b.scrollAt q) ∧
    (b.span ≤ b.maxScroll → ∀ p q : Int32, b.InTrack p → b.InTrack q → p < q →
      b.scrollAt p < b.scrollAt q) ∧
    b.scrollAt b.knobTopRange.1 = 0 ∧ b.scrollAt b.knobTopRange.2 = b.maxScroll ∧
    (b.span ≤ b.maxScroll → ∀ p : Int32, b.knobTopRange.1 ≤ p → p ≤ b.knobTopRange.2 →
      ∃ after, ScrollBar.new x top height content view (b.scrollAt p) = some after ∧
        p.toInt - 1 ≤ after.thumbTop.toInt ∧ after.thumbTop.toInt ≤ p.toInt + 1) := by
  have hb := new_built h
  have hmax := hb.maxScroll_pos
  have hspan' : 0 < b.span.toInt := Int32.lt_iff_toInt_lt.mp hspan
  have hvalue := fun p => scrollAt_toInt hmax hspan' p
  refine ⟨?_, ?_, ?_, ?_, ?_⟩
  · intro p q hp hq hle
    rw [Int32.le_iff_toInt_le] at hle
    rw [← hb.top_eq] at hp hq
    have hbelow : b.below p ≤ b.below q := by
      unfold ScrollBar.below
      rw [toInt_sub_of_fits hp, toInt_sub_of_fits hq]
      omega
    rw [Int32.le_iff_toInt_le, hvalue, hvalue]
    exact scaled_mono (by omega) hspan' (below_range hspan' p).1 hbelow
  · intro hlong p q hp hq hlt
    rw [Int32.lt_iff_toInt_lt] at hlt
    have hbelow : b.below p < b.below q := by
      rw [below_of_inTrack hp, below_of_inTrack hq]
      omega
    rw [Int32.lt_iff_toInt_lt, hvalue, hvalue]
    exact scaled_strictMono hspan' (Int32.le_iff_toInt_le.mp hlong) (below_range hspan' p).1 hbelow
  · have hbelow : b.below b.knobTopRange.1 = 0 := by
      unfold ScrollBar.below ScrollBar.knobTopRange
      rw [Int32.sub_self]
      exact max_eq_left (min_le_of_left_le (Int.le_refl 0))
    apply Int32.toInt_inj.mp
    rw [hvalue, hbelow, scaled_zero]
    rfl
  · have hbelow : b.below b.knobTopRange.2 = b.span.toInt := by
      unfold ScrollBar.below ScrollBar.knobTopRange
      rw [add_sub_self]
      omega
    apply Int32.toInt_inj.mp
    rw [hvalue, hbelow, scaled_self hspan']
  · intro hlong p hlo hhi
    obtain ⟨after, hafter, hbelow, habove⟩ := thumbTop_at hb hspan' (Int32.le_iff_toInt_le.mp hlong)
      (inTrack_of_knobTopRange hspan' hlo hhi)
    exact ⟨after, hafter, hbelow, by omega⟩

/-- The log well: 400 lines of 20 pixels, 24 of them in view. -/
def logWellBar : ScrollBar := ⟨1400, 316, 478, 480, 316, 28, 7520, 450⟩

theorem logWellBar_new : ScrollBar.new 1400 316 478 8000 480 0 = some logWellBar := by decide

/-- Held at 541 the knob stands halfway down the track of the log well. -/
theorem scrollAt_follows_knob_in_log_well :
    logWellBar.scrollAt logWellBar.knobTopRange.2 = 7520 ∧
      ∃ after, ScrollBar.new 1400 316 478 8000 480 (logWellBar.scrollAt 541) = some after ∧
        540 ≤ after.thumbTop.toInt ∧ after.thumbTop.toInt ≤ 542 := by
  obtain ⟨_, _, _, hend, hthumb⟩ := scrollAt_follows_knob logWellBar_new (by decide)
  exact ⟨hend, hthumb (by decide) 541 (by decide) (by decide)⟩

/-- A position from which the difference to the top wraps: it is above every other, and is taken for the far
    end of the list. -/
theorem scrollAt_wraps :
    ∃ b, FitsI32 ((8000 : Int32).toInt - (480 : Int32).toInt) ∧
      ScrollBar.new 1400 316 478 8000 480 0 = some b ∧ 0 < b.span ∧
      ∃ p q : Int32, p ≤ q ∧ ¬ b.scrollAt p ≤ b.scrollAt q :=
  ⟨logWellBar, by decide, logWellBar_new, by decide, Int32.minValue, 316, by decide, by decide⟩

end RemoteX11.Gui
