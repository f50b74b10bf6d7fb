/-
  Registers: a part of the state that some actions of a run write and the others keep.

  `foldl_written_iff` says what a register holds after a run that starts with it empty: what the last action that
  writes it wrote, in the state that action was taken in.
-/
import Mathlib.Tactic.Common
import Mathlib.Data.List.Induction

namespace RemoteX11.Lib

universe u v w

variable {σ : Type u} {α : Type v}

/-- Where a list that ends in `a` can be split. -/
theorem split_concat {as before after : List α} {a b : α} (h : as ++ [a] = before ++ b :: after) :
    (after = [] ∧ as = before ∧ a = b) ∨ ∃ rest, after = rest ++ [a] ∧ as = before ++ b :: rest := by
  obtain rfl | ⟨rest, c, rfl⟩ := List.eq_nil_or_concat after
  · obtain ⟨hbefore, hlast⟩ := List.append_inj' h rfl
    exact .inl ⟨rfl, hbefore, List.singleton_inj.mp hlast⟩
  · have h' : as ++ [a] = (before ++ b :: rest) ++ [c] := by
      rw [h]
      simp
    obtain ⟨hbefore, hlast⟩ := List.append_inj' h' rfl
    exact .inr ⟨rest, by rw [List.concat_eq_append, List.singleton_inj.mp hlast], hbefore⟩

/-- **A register that some actions write.** It holds what the last of them wrote. -/
theorem foldl_written_iff {β : Type w} (reg : σ → Option β) {step : σ → α → σ} {writes : α → Bool}
    {value : σ → α → Option β} (hreg : ∀ s a, reg (step s a) = if writes a then value s a else reg s) {s : σ}
    (hs : reg s = none) {as : List α} {v : β} :
    reg (as.foldl step s) = some v ↔
      ∃ before a after, as = before ++ a :: after ∧ writes a = true ∧ (∀ b ∈ after, writes b = false) ∧
        value (before.foldl step s) a = some v := by
  induction as using List.reverseRecOn with
  | nil => simp [hs]
  | append_singleton as a ih =>
    rw [List.foldl_append, List.foldl_cons, List.foldl_nil, hreg]
    by_cases hwrites : writes a = true
    · rw [if_pos hwrites]
      constructor
      · intro hv
        exact ⟨as, a, [], rfl, hwrites, by simp, hv⟩
      · rintro ⟨before, b, after, hsplit, _, hquiet, hv⟩
        obtain ⟨_, rfl, rfl⟩ | ⟨rest, rfl, _⟩ := split_concat hsplit
        · exact hv
        · have := hquiet a (by simp)
          rw [hwrites] at this
          cases this
    · rw [if_neg hwrites, ih]
      constructor
      · rintro ⟨before, b, after, rfl, hb, hquiet, hv⟩
        refine ⟨before, b, after ++ [a], by simp, hb, ?_, hv⟩
        intro c hc
        obtain hc | hc := List.mem_append.mp hc
        · exact hquiet c hc
        · rw [List.mem_singleton.mp hc]
          exact Bool.eq_false_iff.mpr hwrites
      · rintro ⟨before, b, after, hsplit, hb, hquiet, hv⟩
        obtain ⟨_, _, rfl⟩ | ⟨rest, rfl, rfl⟩ := split_concat hsplit
        · exact absurd hb hwrites
        · exact ⟨before, b, rest, rfl, hb, fun d hd => hquiet d (by simp [hd]), hv⟩

end RemoteX11.Lib
