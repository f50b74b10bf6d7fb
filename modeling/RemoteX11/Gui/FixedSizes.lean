/-
  Which fixed requests the layout pays (`ui/layout.rs`).

  A turn hands out its space from the first child to the last. A `Hug` leaves what the fixed children behind it
  need, and so does the last `Fill`; a `Fill` with another one behind it takes its share of the leftover whatever
  was taken before. `pays_iff_sharesFit`: without an overflow, a turn pays every fixed child if and only if no
  such share goes beyond the leftover, counted with what the hugs and the shares before it ask for.
-/
import RemoteX11.Gui.Layout
import Mathlib.Algebra.Order.Group.Nat

namespace RemoteX11.Gui

open RemoteX11.Lib

/-- The share of a `Fill` that is not the last. -/
def share (leftover : Int) (weights w : Nat) : Int := (leftover * max w 1).tdiv weights

/-- The children from one on, when `before` is what the hugs and the fills ahead of it ask of the leftover: a fill with
    a fill and a fixed request behind it asks for nothing, or stays within the leftover. -/
def sharesFit (leftover : Int) (weights : Nat) : Int → List Size → Bool
  | _, [] => true
  | before, .fixed _ :: rest => sharesFit leftover weights before rest
  | before, .hug v :: rest => sharesFit leftover weights (before + max v 0) rest
  | before, .fill w :: rest =>
    (!(rest.any Size.isFill) || decide (fixedTotal rest ≤ 0) || decide (share leftover weights w = 0) ||
        decide (before + share leftover weights w ≤ leftover)) &&
      sharesFit leftover weights (before + share leftover weights w) rest

/-- The loop of a turn gives each `Fixed` among the sizes what it asks for. -/
def Pays (leftover : Int) (weights : Nat) : List Size → Int → Prop
  | [], _ => True
  | size :: rest, remaining =>
    let take := min (want leftover weights remaining rest size) remaining
    (∀ v, size = .fixed v → take = v) ∧ Pays leftover weights rest (remaining - take)

theorem handOut_pays_iff (l : Layout) (axis : Axis) {gap : Int} (inner : Rect) (leftover : Int) (weights : Nat)
    (children : List Nat) (cursor remaining : Int) :
    (∀ r ∈ l.handOut axis gap inner leftover weights children cursor remaining, ∀ v,
        l.size r.1 = .fixed v → axis.main r.2 = v) ↔
      Pays leftover weights (children.map l.size) remaining := by
  induction children generalizing cursor remaining with
  | nil => exact ⟨fun _ => trivial, fun _ r hr => by cases hr⟩
  | cons child rest ih =>
    rw [List.map_cons, Pays]
    unfold Layout.handOut
    rw [List.forall_mem_cons, main_childRect]
    exact and_congr Iff.rfl (ih _ _)

/-! ## What a turn can pay -/

section

variable {leftover : Int} (hleftover : 0 ≤ leftover) {weights : Nat}

theorem fixedPart_nonneg (size : Size) : 0 ≤ size.fixedPart := by
  cases size with
  | fixed v => exact Int.le_max_right v 0
  | hug v => exact Int.le_refl 0
  | fill w => exact Int.le_refl 0

theorem fixedTotal_cons (size : Size) (rest : List Size) :
    fixedTotal (size :: rest) = size.fixedPart + fixedTotal rest := by
  rw [fixedTotal, List.map_cons, List.sum_cons, fixedTotal]

theorem fixedTotal_nonneg (sizes : List Size) : 0 ≤ fixedTotal sizes :=
  List.sum_nonneg fun x hx => by
    obtain ⟨size, _, rfl⟩ := List.mem_map.mp hx
    exact fixedPart_nonneg size

/-- What the later siblings ask for covers their fixed requests. -/
theorem fixedTotal_le_asked (sizes : List Size) : fixedTotal sizes ≤ (sizes.map Size.asked).sum :=
  List.sum_le_sum fun size _ => by
    cases size with
    | fixed v => exact Int.le_refl _
    | hug v => exact Int.le_max_right v 0
    | fill w => exact Int.le_refl 0

include hleftover

/-- A turn that pays had the space. -/
theorem pays_fixedTotal_le {sizes : List Size} {remaining : Int} (hremaining : 0 ≤ remaining)
    (h : Pays leftover weights sizes remaining) : fixedTotal sizes ≤ remaining := by
  induction sizes generalizing remaining with
  | nil => exact hremaining
  | cons size rest ih =>
    have hwant := want_nonneg hleftover weights remaining rest size
    obtain ⟨hpaid, hrest⟩ := h
    have hle := ih (by omega) hrest
    have hpart : size.fixedPart ≤ min (want leftover weights remaining rest size) remaining := by
      cases size with
      | fixed v =>
        rw [hpaid v rfl]
        have hv : v = min (max v 0) remaining := (hpaid v rfl).symm
        simp only [Size.fixedPart]
        omega
      | hug v => exact Int.le_min.mpr ⟨hwant, hremaining⟩
      | fill w => exact Int.le_min.mpr ⟨hwant, hremaining⟩
    rw [fixedTotal_cons]
    omega

/-- With no fixed request above zero there is nothing to pay. -/
theorem pays_of_no_fixed {sizes : List Size} (hsizes : ∀ size ∈ sizes, size.NonNegative)
    (hfixed : fixedTotal sizes ≤ 0) {remaining : Int} (hremaining : 0 ≤ remaining) :
    Pays leftover weights sizes remaining := by
  induction sizes generalizing remaining with
  | nil => exact trivial
  | cons size rest ih =>
    rw [fixedTotal_cons] at hfixed
    have hpart := fixedPart_nonneg size
    have htotal := fixedTotal_nonneg rest
    have hwant := want_nonneg hleftover weights remaining rest size
    refine ⟨?_, ih (fun s hs => hsizes s (List.mem_cons_of_mem _ hs)) (by omega) (by omega)⟩
    rintro v rfl
    have hv : 0 ≤ v := hsizes (.fixed v) List.mem_cons_self
    simp only [Size.fixedPart, want] at hpart hfixed ⊢
    omega

end

/-- Without a fill every fixed child is paid: a hug leaves what they need. -/
theorem pays_of_no_fill {leftover : Int} {weights : Nat} {sizes : List Size} (hsizes : ∀ size ∈ sizes, size.NonNegative)
    (hfill : sizes.any Size.isFill = false) {remaining : Int} (hfixed : fixedTotal sizes ≤ remaining) :
    Pays leftover weights sizes remaining := by
  induction sizes generalizing remaining with
  | nil => exact trivial
  | cons size rest ih =>
    rw [List.any_cons, Bool.or_eq_false_iff] at hfill
    rw [fixedTotal_cons] at hfixed
    have htotal := fixedTotal_nonneg rest
    have hrest : ∀ s ∈ rest, s.NonNegative := fun s hs => hsizes s (List.mem_cons_of_mem _ hs)
    cases size with
    | fixed v =>
      have hv : 0 ≤ v := hsizes (.fixed v) List.mem_cons_self
      simp only [Size.fixedPart] at hfixed
      refine ⟨?_, ih hrest hfill.2 ?_⟩
      · intro u hu
        cases hu
        simp only [want]
        omega
      · simp only [want]
        omega
    | hug v =>
      simp only [Size.fixedPart] at hfixed
      refine ⟨nofun, ih hrest hfill.2 ?_⟩
      simp only [want]
      omega
    | fill w => cases hfill.1

theorem sharesFit_of_no_fixed {leftover : Int} {weights : Nat} {sizes : List Size} (hfixed : fixedTotal sizes ≤ 0)
    (before : Int) : sharesFit leftover weights before sizes = true := by
  induction sizes generalizing before with
  | nil => rfl
  | cons size rest ih =>
    rw [fixedTotal_cons] at hfixed
    have hpart := fixedPart_nonneg size
    have hrest : fixedTotal rest ≤ 0 := by omega
    cases size with
    | fixed v => exact ih hrest before
    | hug v => exact ih hrest _
    | fill w => rw [sharesFit, ih hrest, decide_eq_true hrest, Bool.or_true, Bool.true_or, Bool.true_or, Bool.and_true]

theorem sharesFit_of_no_fill {leftover : Int} {weights : Nat} {sizes : List Size}
    (hfill : sizes.any Size.isFill = false) (before : Int) : sharesFit leftover weights before sizes = true := by
  induction sizes generalizing before with
  | nil => rfl
  | cons size rest ih =>
    rw [List.any_cons, Bool.or_eq_false_iff] at hfill
    cases size with
    | fixed v => exact ih hfill.2 before
    | hug v => exact ih hfill.2 _
    | fill w => cases hfill.1

/-! ## The shares of the fills -/

/-- A turn with space for the fixed requests, from a child on: `before` is what the hugs and the fills ahead ask of
    the leftover, and what is there beyond the fixed requests is what they left of it. -/
theorem pays_iff_sharesFit {leftover : Int} (hleftover : 0 ≤ leftover) {weights : Nat} {sizes : List Size}
    (hsizes : ∀ size ∈ sizes, size.NonNegative) (hweights : sizes.any Size.isFill = true → weights ≠ 0)
    {before remaining : Int} (hremaining : remaining = fixedTotal sizes + max (leftover - before) 0) :
    Pays leftover weights sizes remaining ↔ sharesFit leftover weights before sizes = true := by
  induction sizes generalizing before remaining with
  | nil => exact ⟨fun _ => rfl, fun _ => trivial⟩
  | cons size rest ih =>
    rw [fixedTotal_cons] at hremaining
    have htotal := fixedTotal_nonneg rest
    have hrest : ∀ s ∈ rest, s.NonNegative := fun s hs => hsizes s (List.mem_cons_of_mem _ hs)
    have hweights' : rest.any Size.isFill = true → weights ≠ 0 := fun h =>
      hweights (by rw [List.any_cons, h, Bool.or_true])
    cases size with
    | fixed v =>
      have hv : 0 ≤ v := hsizes (.fixed v) List.mem_cons_self
      simp only [Size.fixedPart] at hremaining
      have htake : min (want leftover weights remaining rest (.fixed v)) remaining = v := by
        simp only [want]
        omega
      rw [Pays, sharesFit, htake]
      have hpaid : ∀ u, Size.fixed v = Size.fixed u → v = u := fun u hu => Size.fixed.inj hu
      exact (and_iff_right hpaid).trans (ih hrest hweights' (by omega))
    | hug v =>
      have hv : 0 ≤ v := hsizes (.hug v) List.mem_cons_self
      simp only [Size.fixedPart] at hremaining
      rw [Pays, sharesFit]
      refine (and_iff_right nofun).trans (ih hrest hweights' ?_)
      simp only [want]
      omega
    | fill w =>
      simp only [Size.fixedPart] at hremaining
      have hzero : weights ≠ 0 := hweights (by rw [List.any_cons]; rfl)
      rw [Pays, sharesFit]
      refine (and_iff_right nofun).trans ?_
      cases hinner : rest.any Size.isFill with
      | false =>
        -- the last fill leaves what all of its later siblings ask for
        have hlast : (rest.all fun s => !s.isFill) = true := by
          rw [List.all_eq_not_any_not]
          simpa using hinner
        have htrailing := fixedTotal_le_asked rest
        have htake : want leftover weights remaining rest (.fill w) =
            max (remaining - (rest.map Size.asked).sum) 0 := by
          simp only [want, if_neg hzero, if_pos hlast]
        rw [htake, sharesFit_of_no_fill hinner]
        refine ⟨fun _ => rfl, fun _ => pays_of_no_fill hrest hinner ?_⟩
        omega
      | true =>
        have hlast : ¬ (rest.all fun s => !s.isFill) = true := by
          rw [List.all_eq_not_any_not]
          simpa using hinner
        have htake : want leftover weights remaining rest (.fill w) = share leftover weights w := by
          simp only [want, if_neg hzero, if_neg hlast]
          rfl
        have hshare : 0 ≤ share leftover weights w := htake ▸ want_nonneg hleftover weights remaining rest (.fill w)
        rw [htake]
        generalize share leftover weights w = part at hshare ⊢
        by_cases hfixed : fixedTotal rest ≤ 0
        · rw [sharesFit_of_no_fixed hfixed, decide_eq_true hfixed, Bool.or_true, Bool.true_or, Bool.true_or,
            Bool.and_true]
          exact ⟨fun _ => rfl, fun _ => pays_of_no_fixed hleftover hrest hfixed (by omega)⟩
        · rw [decide_eq_false hfixed]
          by_cases hfits : part ≤ max (leftover - before) 0
          · have hallowed : (decide (part = 0) || decide (before + part ≤ leftover)) = true := by
              rw [Bool.or_eq_true, decide_eq_true_iff, decide_eq_true_iff]
              omega
            rw [Bool.not_true, Bool.false_or, Bool.false_or, hallowed, Bool.true_and]
            exact ih hrest hweights' (by omega)
          · -- a share beyond what is left of the leftover is taken from the fixed children behind it
            have hdenied : (decide (part = 0) || decide (before + part ≤ leftover)) = false := by
              rw [Bool.or_eq_false_iff, decide_eq_false_iff_not, decide_eq_false_iff_not]
              omega
            rw [Bool.not_true, Bool.false_or, Bool.false_or, hdenied, Bool.false_and]
            refine ⟨fun hpays => ?_, fun hfalse => by cases hfalse⟩
            have hle := pays_fixedTotal_le hleftover (by omega) hpays
            omega

/-- One turn without an overflow. -/
theorem childRects_pays_iff {l : Layout} (h : l.NonNegative) {id : Nat} {rect : Rect}
    (hoverflow : l.overflows id rect = false) :
    (∀ r ∈ l.childRects id rect, ∀ v, l.size r.1 = .fixed v → (l.node id).axis.main r.2 = v) ↔
      sharesFit (l.leftover id rect) (weightTotal (l.sizes id)) 0 (l.sizes id) = true := by
  have hsizes : ∀ size ∈ l.sizes id, size.NonNegative := by
    intro size hsize
    obtain ⟨c, _, rfl⟩ := List.mem_map.mp hsize
    exact (node_nonNegative h c).2.2.2
  have hweights : (l.sizes id).any Size.isFill = true → weightTotal (l.sizes id) ≠ 0 := by
    intro hany
    obtain ⟨size, hsize, hfill⟩ := List.any_eq_true.mp hany
    have hle : size.weight ≤ weightTotal (l.sizes id) := List.single_le_sum (fun _ _ => Nat.zero_le _) _
      (List.mem_map_of_mem hsize)
    cases size with
    | fixed v => cases hfill
    | hug v => cases hfill
    | fill w =>
      simp only [Size.weight] at hle
      omega
  have hspace : fixedTotal (l.sizes id) ≤ l.available id rect := by
    have := of_decide_eq_false hoverflow
    omega
  have hleftover : l.leftover id rect = l.available id rect - fixedTotal (l.sizes id) := by
    unfold Layout.leftover
    omega
  refine (handOut_pays_iff l _ _ _ _ _ _ _).trans ?_
  exact pays_iff_sharesFit (Int.le_max_right _ 0) hsizes hweights (by omega)

/-- Without an overflow every fixed child gets exactly what it asks for if and only if the shares fit in every call of
    the solver. -/
theorem fixed_paid_iff (l : Layout) (h : l.NonNegative) (rect : Rect) (hoverflow : (l.solve rect).overflow = false) :
    (∀ id, ∀ child ∈ (l.node id).children, ∀ v, l.size child = .fixed v →
        (l.node id).axis.main ((l.solve rect).get child) = v) ↔
      ∀ call ∈ l.calls rect,
        sharesFit (l.leftover call.1 call.2) (weightTotal (l.sizes call.1)) 0 (l.sizes call.1) = true := by
  rw [forall_children_iff l rect fun id _ child r => ∀ v, l.size child = .fixed v → (l.node id).axis.main r = v]
  have hcalls : ∀ call ∈ l.calls rect, l.overflows call.1 call.2 = false := by
    rw [solve_overflow, List.any_eq_false] at hoverflow
    intro call hcall
    exact Bool.eq_false_iff.mpr (hoverflow call hcall)
  constructor
  · intro hpaid call hcall
    exact (childRects_pays_iff h (hcalls call hcall)).mp (hpaid call hcall)
  · intro hfits call hcall
    exact (childRects_pays_iff h (hcalls call hcall)).mpr (hfits call hcall)

/-- A card that hugs, a body that fills, a button of 40 and another body. -/
def buttonPage (card : Int) : Option Layout := do
  let (l, _) ← Layout.column.leaf 0 (.hug card)
  let (l, _) ← l.leaf 0 (.fill 1)
  let (l, _) ← l.leaf 0 (.fixed 40)
  let (l, _) ← l.leaf 0 (.fill 1)
  some l

/-- In a height of 100 the card of 30 and the first body take 60 together, and the button gets its 40. -/
theorem fixed_paid_with_card_30 :
    ∃ l, buttonPage 30 = some l ∧ ((l.solve ⟨0, 0, 10, 100⟩).get 3).h = 40 :=
  ⟨(buttonPage 30).get (by decide), by simp,
    (fixed_paid_iff ((buttonPage 30).get (by decide)) (by decide) ⟨0, 0, 10, 100⟩ (by decide)).mpr (by decide)
      0 3 (by decide) 40 (by decide)⟩

/-- A card of 60 leaves nothing of the leftover, the first body takes its share of 30 all the same, and the button
    gets 10. No overflow is reported. -/
theorem button_squeezed :
    ∃ l rect, buttonPage 60 = some l ∧ l.NonNegative ∧ (l.solve rect).overflow = false ∧
      ∃ id child v, child ∈ (l.node id).children ∧ l.size child = .fixed v ∧
        (l.node id).axis.main ((l.solve rect).get child) ≠ v :=
  ⟨(buttonPage 60).get (by decide), ⟨0, 0, 10, 100⟩, by simp, by decide, by decide, 0, 3, 40, by decide, by decide,
    by decide⟩

end RemoteX11.Gui
