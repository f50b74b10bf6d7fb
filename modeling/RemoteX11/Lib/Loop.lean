/-
  While loops, for any state type.

  `turn s = none` means that the loop condition fails in `s`; otherwise the body takes `s` to the
  next state. `Halts turn s` says that the loop that is entered in `s` is left. A loop halts when its
  body lowers a measure (`halts_of_measure`), and does not when its condition holds in every state of
  an invariant (`not_halts_of_inv`).
-/
import Mathlib.Tactic.Common

namespace RemoteX11.Lib

universe u

variable {σ : Type u} {turn : σ → Option σ}

/-- The state after `n` turns, when the loop takes that many. -/
def turns (turn : σ → Option σ) : Nat → σ → Option σ
  | 0, s => some s
  | n + 1, s => (turn s).bind (turns turn n)

def Halts (turn : σ → Option σ) (s : σ) : Prop := ∃ n t, turns turn n s = some t ∧ turn t = none

theorem turns_succ {s t : σ} (h : turn s = some t) (n : Nat) : turns turn (n + 1) s = turns turn n t := by
  rw [turns, h, Option.bind_some]

/-- What every turn preserves holds after any number of them. -/
theorem turns_inv {I : σ → Prop} (hturn : ∀ s t, I s → turn s = some t → I t) {n : Nat} {s t : σ}
    (hs : I s) (h : turns turn n s = some t) : I t := by
  induction n generalizing s with
  | zero =>
    cases h
    exact hs
  | succ n ih =>
    obtain ⟨w, hw, h⟩ := Option.bind_eq_some_iff.mp h
    exact ih (hturn s w hs hw) h

/-- **Termination rule.** -/
theorem halts_of_measure {I : σ → Prop} (μ : σ → Nat)
    (hturn : ∀ s t, I s → turn s = some t → I t ∧ μ t < μ s) {s : σ} (hs : I s) : Halts turn s := by
  induction hn : μ s using Nat.strongRecOn generalizing s with
  | _ n ih =>
    subst hn
    cases ht : turn s with
    | none => exact ⟨0, s, rfl, ht⟩
    | some t =>
      obtain ⟨hI, hlt⟩ := hturn s t hs ht
      obtain ⟨n, u, hu, hend⟩ := ih (μ t) hlt hI rfl
      exact ⟨n + 1, u, (turns_succ ht n).trans hu, hend⟩

/-- **Divergence rule.** -/
theorem not_halts_of_inv {I : σ → Prop} (hturn : ∀ s, I s → ∃ t, turn s = some t ∧ I t) {s : σ}
    (hs : I s) : ¬ Halts turn s := by
  rintro ⟨n, t, ht, hend⟩
  have hI : I t := turns_inv (fun s t hs h => by
    obtain ⟨t', ht', hI⟩ := hturn s hs
    rw [h] at ht'
    exact Option.some.inj ht' ▸ hI) hs ht
  obtain ⟨u, hu, -⟩ := hturn t hI
  rw [hend] at hu
  cases hu

end RemoteX11.Lib
