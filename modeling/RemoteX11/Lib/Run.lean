/-
  Runs of a partial step function, for any state and action type.

  `step s a = none` means that the action `a` is not enabled in `s`. `run step s as` takes the
  actions of `as` in order. `Meets step G s as` says that every step of that run satisfies the
  condition `G` in the state it is taken from. An invariant is proved one step at a time
  (`run_inv` for a guarded run, `run_inv_all` for every run); `run_append` and `meets_append`
  split a run at any point, so a fact about the end of every run is a fact about every state
  a run passes through.
-/
import Mathlib.Tactic.Common
import Mathlib.Algebra.Ring.Nat

namespace RemoteX11.Lib

universe u v

variable {σ : Type u} {α : Type v}

/-- The state after the actions `as`, or `none` when one of them is not enabled. -/
def run (step : σ → α → Option σ) : σ → List α → Option σ
  | s, [] => some s
  | s, a :: as => (step s a).bind fun t => run step t as

/-- Every step of the run of `as` from `s` satisfies `G`. -/
def Meets (step : σ → α → Option σ) (G : σ → α → Prop) : σ → List α → Prop
  | _, [] => True
  | s, a :: as => G s a ∧ ∀ t, step s a = some t → Meets step G t as

@[simp] theorem run_nil (step : σ → α → Option σ) (s : σ) : run step s [] = some s := rfl

theorem run_cons (step : σ → α → Option σ) (s : σ) (a : α) (as : List α) :
    run step s (a :: as) = (step s a).bind fun t => run step t as := rfl

/-- A run splits at its first step. -/
theorem run_cons_eq_some {step : σ → α → Option σ} {s u : σ} {a : α} {as : List α} :
    run step s (a :: as) = some u ↔ ∃ t, step s a = some t ∧ run step t as = some u := by
  rw [run_cons, Option.bind_eq_some_iff]

/-- A run splits at any point. -/
theorem run_append {step : σ → α → Option σ} {s u : σ} {as bs : List α} :
    run step s (as ++ bs) = some u ↔ ∃ t, run step s as = some t ∧ run step t bs = some u := by
  induction as generalizing s with
  | nil => simp
  | cons a as ih =>
    rw [List.cons_append, run_cons_eq_some]
    constructor
    · rintro ⟨t, ht, hu⟩
      obtain ⟨w, hw, hu⟩ := ih.mp hu
      exact ⟨w, run_cons_eq_some.mpr ⟨t, ht, hw⟩, hu⟩
    · rintro ⟨w, hw, hu⟩
      obtain ⟨t, ht, hw⟩ := run_cons_eq_some.mp hw
      exact ⟨t, ht, ih.mpr ⟨w, hw, hu⟩⟩

theorem meets_cons {step : σ → α → Option σ} {G : σ → α → Prop} {s t : σ} {a : α} {as : List α}
    (ht : step s a = some t) : Meets step G s (a :: as) ↔ G s a ∧ Meets step G t as := by
  constructor
  · intro h
    exact ⟨h.1, h.2 t ht⟩
  · intro h
    refine ⟨h.1, fun t' ht' => ?_⟩
    rw [ht] at ht'
    exact Option.some.inj ht' ▸ h.2

/-- A guarded run splits at any point. -/
theorem meets_append {step : σ → α → Option σ} {G : σ → α → Prop} {s t : σ} {as bs : List α}
    (ht : run step s as = some t) :
    Meets step G s (as ++ bs) ↔ Meets step G s as ∧ Meets step G t bs := by
  induction as generalizing s with
  | nil =>
    rw [run_nil, Option.some.injEq] at ht
    subst ht
    simp [Meets]
  | cons a as ih =>
    obtain ⟨w, hw, hr⟩ := run_cons_eq_some.mp ht
    rw [List.cons_append, meets_cons hw, meets_cons hw, ih hr, and_assoc]

theorem meets_true (step : σ → α → Option σ) (s : σ) (as : List α) :
    Meets step (fun _ _ => True) s as := by
  induction as generalizing s with
  | nil => trivial
  | cons a as ih => exact ⟨trivial, fun t _ => ih t⟩

/-- A condition that every action of the run satisfies in every state. -/
theorem meets_of_forall {step : σ → α → Option σ} {G : σ → α → Prop} {as : List α}
    (h : ∀ s, ∀ a ∈ as, G s a) (s : σ) : Meets step G s as := by
  induction as generalizing s with
  | nil => trivial
  | cons a as ih =>
    exact ⟨h s a List.mem_cons_self,
      fun t _ => ih (fun s b hb => h s b (List.mem_cons_of_mem _ hb)) t⟩

/-- **Invariant rule for guarded runs.** What every step that satisfies `G` preserves holds at the
    end of every run whose steps all satisfy `G`. -/
theorem run_inv {step : σ → α → Option σ} {G : σ → α → Prop} {I : σ → Prop}
    (hstep : ∀ s a t, I s → G s a → step s a = some t → I t)
    {s t : σ} {as : List α} (hs : I s) (hg : Meets step G s as) (hr : run step s as = some t) :
    I t := by
  induction as generalizing s with
  | nil =>
    rw [run_nil, Option.some.injEq] at hr
    exact hr ▸ hs
  | cons a as ih =>
    obtain ⟨w, hw, hr⟩ := run_cons_eq_some.mp hr
    exact ih (hstep s a w hs hg.1 hw) (hg.2 w hw) hr

/-- **Invariant rule for all runs.** -/
theorem run_inv_all {step : σ → α → Option σ} {I : σ → Prop}
    (hstep : ∀ s a t, I s → step s a = some t → I t)
    {s t : σ} {as : List α} (hs : I s) (hr : run step s as = some t) : I t :=
  run_inv (fun s a t hI _ h => hstep s a t hI h) hs (meets_true step s as) hr

/-- **Guards that are exact, next to a fact that lasts as long.** When `G` says of every step whether it stays
in `I`, given `J`, and the steps that stay in `I` keep `J`, a run stays in `I` in all its states if and only if
all its steps satisfy `G`. -/
theorem states_iff_meets_while {step : σ → α → Option σ} {G : σ → α → Prop} {I J : σ → Prop}
    (hstep : ∀ s a t, J s → I s → step s a = some t → (I t ↔ G s a) ∧ (I t → J t))
    {s u : σ} {as : List α} (hJ : J s) (hs : I s) (hr : run step s as = some u) :
    (∀ pre t, pre <+: as → run step s pre = some t → I t) ↔ Meets step G s as := by
  induction as generalizing s with
  | nil =>
    refine ⟨fun _ => trivial, ?_⟩
    intro _ pre t hpre ht
    rw [List.prefix_nil.mp hpre, run_nil, Option.some.injEq] at ht
    exact ht ▸ hs
  | cons a as ih =>
    obtain ⟨w, hw, hrest⟩ := run_cons_eq_some.mp hr
    obtain ⟨hiff, hJw⟩ := hstep s a w hJ hs hw
    rw [meets_cons hw, ← hiff]
    constructor
    · intro h
      have hIw : I w := h [a] w ⟨as, rfl⟩ (run_cons_eq_some.mpr ⟨w, hw, rfl⟩)
      refine ⟨hIw, (ih (hJw hIw) hIw hrest).mp ?_⟩
      intro pre t hpre ht
      exact h (a :: pre) t (List.cons_prefix_cons.mpr ⟨rfl, hpre⟩)
        (run_cons_eq_some.mpr ⟨w, hw, ht⟩)
    · rintro ⟨hIw, hmeets⟩ pre t hpre ht
      rcases pre with _ | ⟨b, pre⟩
      · rw [run_nil, Option.some.injEq] at ht
        exact ht ▸ hs
      · obtain ⟨rfl, hpre'⟩ := List.cons_prefix_cons.mp hpre
        obtain ⟨w', hw', ht'⟩ := run_cons_eq_some.mp ht
        obtain rfl : w = w' := Option.some.inj (hw.symm.trans hw')
        exact (ih (hJw hIw) hIw hrest).mpr hmeets pre t hpre' ht'

/-- **Guards that are exact, next to an invariant.** When `G` says of every step whether it stays in `I`,
given the invariant `J` that such steps keep, a run stays in `I` in all its states if and only if all its
steps satisfy `G`. -/
theorem states_iff_meets_of_inv {step : σ → α → Option σ} {G : σ → α → Prop} {I J : σ → Prop}
    (hstep : ∀ s a t, J s → I s → step s a = some t → J t ∧ (I t ↔ G s a))
    {s u : σ} {as : List α} (hJ : J s) (hs : I s) (hr : run step s as = some u) :
    (∀ pre t, pre <+: as → run step s pre = some t → I t) ↔ Meets step G s as :=
  states_iff_meets_while
    (fun s a t hJ hI h => ⟨(hstep s a t hJ hI h).2, fun _ => (hstep s a t hJ hI h).1⟩) hJ hs hr

/-- **Guards that are exact.** When `G` says of every step from `I` whether it stays in `I`, a run keeps
`I` in all its states if and only if all its steps satisfy `G`. -/
theorem states_iff_meets {step : σ → α → Option σ} {G : σ → α → Prop} {I : σ → Prop}
    (hstep : ∀ s a t, I s → step s a = some t → (I t ↔ G s a))
    {s u : σ} {as : List α} (hs : I s) (hr : run step s as = some u) :
    (∀ pre t, pre <+: as → run step s pre = some t → I t) ↔ Meets step G s as :=
  states_iff_meets_of_inv (fun s a t _ hI h => ⟨trivial, hstep s a t hI h⟩) trivial hs hr

/-- **Conditions that agree on an invariant.** When `P` and `G` say the same of every step from a state of
`J`, and the steps with `G` keep `J`, a run meets the one if and only if it meets the other. -/
theorem meets_iff_of_inv {step : σ → α → Option σ} {P G : σ → α → Prop} {J : σ → Prop}
    (hiff : ∀ s a, J s → (P s a ↔ G s a))
    (hstep : ∀ s a t, J s → G s a → step s a = some t → J t) {s : σ} (hs : J s) (as : List α) :
    Meets step P s as ↔ Meets step G s as := by
  induction as generalizing s with
  | nil => exact Iff.rfl
  | cons a as ih =>
    constructor
    · intro h
      have hg : G s a := (hiff s a hs).mp h.1
      exact ⟨hg, fun t ht => (ih (hstep s a t hs hg ht)).mp (h.2 t ht)⟩
    · intro h
      exact ⟨(hiff s a hs).mpr h.1, fun t ht => (ih (hstep s a t hs h.1 ht)).mpr (h.2 t ht)⟩

/-- Two conditions that a run meets are met together. -/
theorem Meets.and {step : σ → α → Option σ} {G H : σ → α → Prop} {s : σ} {as : List α}
    (hg : Meets step G s as) (hh : Meets step H s as) : Meets step (fun s a => G s a ∧ H s a) s as := by
  induction as generalizing s with
  | nil => trivial
  | cons a as ih => exact ⟨⟨hg.1, hh.1⟩, fun t ht => ih (hg.2 t ht) (hh.2 t ht)⟩

/-- What no step takes back and does not hold at the end holds nowhere in the run. -/
theorem meets_not_of_final {step : σ → α → Option σ} {P : σ → Prop}
    (hstep : ∀ s a t, P s → step s a = some t → P t) {s u : σ} {as : List α}
    (hr : run step s as = some u) (hu : ¬ P u) :
    Meets step (fun s a => ∀ t, step s a = some t → ¬ P t) s as := by
  induction as generalizing s with
  | nil => trivial
  | cons a as ih =>
    obtain ⟨t, ht, hr⟩ := run_cons_eq_some.mp hr
    refine (meets_cons ht).mpr ⟨fun t' ht' hP => hu ?_, ih hr⟩
    obtain rfl := Option.some.inj (ht.symm.trans ht')
    exact run_inv_all hstep hP hr

/-- **Erasure rule.** The actions that `p` rejects are left out of a run: if `R` survives each of them
    on one side alone, and every other step is matched, the rest is a run that ends in `R`. -/
theorem run_filter {step : σ → α → Option σ} {G : σ → α → Prop} {p : α → Bool} {R : σ → σ → Prop}
    (hskip : ∀ s t a s', R s t → G s a → p a = false → step s a = some s' → R s' t)
    (hkeep : ∀ s t a s', R s t → G s a → p a = true → step s a = some s' →
      ∃ t', step t a = some t' ∧ R s' t')
    {s t s' : σ} {as : List α} (hr : R s t) (hg : Meets step G s as) (hs : run step s as = some s') :
    ∃ t', run step t (as.filter p) = some t' ∧ R s' t' := by
  induction as generalizing s t with
  | nil =>
    rw [run_nil, Option.some.injEq] at hs
    exact ⟨t, rfl, hs ▸ hr⟩
  | cons a as ih =>
    obtain ⟨w, hw, hs⟩ := run_cons_eq_some.mp hs
    cases hp : p a with
    | false =>
      rw [List.filter_cons_of_neg (by simp [hp])]
      exact ih (hskip s t a w hr hg.1 hp hw) (hg.2 w hw) hs
    | true =>
      obtain ⟨v, hv, hr⟩ := hkeep s t a w hr hg.1 hp hw
      obtain ⟨t', ht', hr'⟩ := ih hr (hg.2 w hw) hs
      rw [List.filter_cons_of_pos hp]
      exact ⟨t', run_cons_eq_some.mpr ⟨v, hv, ht'⟩, hr'⟩

/-- **Progress rule for runs.** If from every state with `I` that is not `Done` a run of steps allowed by
    `P` leads to one with `I` and a lower measure, then a run of such steps reaches `Done`. -/
theorem runs_reach {step : σ → α → Option σ} {P : α → Prop} {I Done : σ → Prop} (μ : σ → Nat)
    (hprogress : ∀ s, I s → Done s ∨
      ∃ as t, (∀ a ∈ as, P a) ∧ run step s as = some t ∧ I t ∧ μ t < μ s)
    {s : σ} (hs : I s) :
    ∃ as u, (∀ a ∈ as, P a) ∧ run step s as = some u ∧ I u ∧ Done u := by
  induction hn : μ s using Nat.strongRecOn generalizing s with
  | _ n ih =>
    subst hn
    rcases hprogress s hs with hdone | ⟨as, t, has, hrun, ht, hlt⟩
    · exact ⟨[], s, fun a ha => absurd ha List.not_mem_nil, rfl, hs, hdone⟩
    · obtain ⟨bs, u, hbs, hrun', hu, hdone⟩ := ih (μ t) hlt ht rfl
      refine ⟨as ++ bs, u, ?_, run_append.mpr ⟨t, hrun, hrun'⟩, hu, hdone⟩
      intro b hb
      exact (List.mem_append.mp hb).elim (has b) (hbs b)

/-- **Progress rule.** If every state with `I` that is not `Done` has an enabled step allowed by `P` that
    keeps `I` and lowers the measure, then a run of such steps reaches `Done`. -/
theorem run_reaches {step : σ → α → Option σ} {P : α → Prop} {I Done : σ → Prop} (μ : σ → Nat)
    (hprogress : ∀ s, I s → Done s ∨ ∃ a t, P a ∧ step s a = some t ∧ I t ∧ μ t < μ s)
    {s : σ} (hs : I s) :
    ∃ as u, (∀ a ∈ as, P a) ∧ run step s as = some u ∧ I u ∧ Done u := by
  refine runs_reach μ (fun s hs => (hprogress s hs).imp_right ?_) hs
  rintro ⟨a, t, ha, hstep, ht, hlt⟩
  refine ⟨[a], t, ?_, run_cons_eq_some.mpr ⟨t, hstep, rfl⟩, ht, hlt⟩
  intro b hb
  exact List.mem_singleton.mp hb ▸ ha

/-- The same actions again and again, along a sequence of states. -/
theorem run_replicate {step : σ → α → Option σ} {G : σ → α → Prop} {f : Nat → σ} {as : List α}
    {m k : Nat}
    (h : ∀ i, m ≤ i → i < m + k → run step (f i) as = some (f (i + 1)) ∧ Meets step G (f i) as) :
    run step (f m) (List.replicate k as).flatten = some (f (m + k)) ∧
      Meets step G (f m) (List.replicate k as).flatten := by
  induction k with
  | zero => exact ⟨rfl, trivial⟩
  | succ k ih =>
    obtain ⟨hrun, hmeets⟩ := ih fun i hi hlt => h i hi (by omega)
    obtain ⟨hlast, hlastMeets⟩ := h (m + k) (by omega) (by omega)
    rw [List.replicate_succ', List.flatten_append, List.flatten_singleton]
    exact ⟨run_append.mpr ⟨_, hrun, hlast⟩, (meets_append hrun).mpr ⟨hmeets, hlastMeets⟩⟩

/-- Guarded runs are decidable step by step, so a concrete run is checked by evaluation. -/
instance decMeets (step : σ → α → Option σ) (G : σ → α → Prop) [∀ s a, Decidable (G s a)] :
    (s : σ) → (as : List α) → Decidable (Meets step G s as)
  | _, [] => isTrue trivial
  | s, a :: as =>
    match h : step s a with
    | none => decidable_of_iff (G s a)
        ⟨fun hg => ⟨hg, fun t ht => by rw [h] at ht; cases ht⟩, fun hm => hm.1⟩
    | some t =>
      have := decMeets step G t as
      decidable_of_iff (G s a ∧ Meets step G t as) (meets_cons h).symm

end RemoteX11.Lib
