import Mathlib.Data.List.Chain
import Tove.Base.Transition

/-!
# Histories

What is observed of the states of a run, as a list to which an observation is added whenever it
changes.
-/

namespace Transition

universe u v w

namespace System

variable {σ : Type u} {κ : Type v} {τ : Type w} [DecidableEq τ] (S : System σ κ) (f : σ → τ)

/-- The system `S` with the list of the values that `f` has taken. -/
def history : System (σ × List τ) κ where
  init p := S.init p.1 ∧ p.2 = [f p.1]
  step p l q := S.step p.1 l q.1 ∧ q.2 = if f q.1 = f p.1 then p.2 else p.2 ++ [f q.1]

variable {S f} {p : σ × List τ}

/-- A history begins with the value of an initial state and ends with the value of the state
that is reached, which is reachable. -/
theorem ends_of_history (h : (S.history f).Reachable p) :
  S.Reachable p.1 ∧ p.2.getLast? = some (f p.1) ∧ ∃ s, S.init s ∧ p.2.head? = some (f s)
  := by
  apply h.invariant (I := fun p => S.Reachable p.1 ∧ p.2.getLast? = some (f p.1)
    ∧ ∃ s, S.init s ∧ p.2.head? = some (f s))
  · rintro q ⟨hinit, hq⟩
    rw [hq]
    exact ⟨.init hinit, rfl, q.1, hinit, rfl⟩
  · rintro q l q' ⟨hreachable, hlast, s₀, hinit, hhead⟩ ⟨hstep, hq'⟩
    rw [hq']
    refine ⟨hreachable.step hstep, ?_, s₀, hinit, ?_⟩
    · split
      · rename_i hsame
        rw [hlast, hsame]
      · rw [List.getLast?_concat]
    · split
      · apply hhead
      · rw [List.head?_append, hhead]
        rfl

/-- When every step that changes the value goes along a relation, so does the history. -/
theorem isChain_of_history {R : τ → τ → Prop}
    (hstep : S.EveryStep fun s _ t => f t = f s ∨ R (f s) (f t)) (h : (S.history f).Reachable p) :
  p.2.IsChain R
  := by
  obtain ⟨p₀, ls, hp₀, hrun⟩ := h
  induction hrun with
  | nil =>
    rw [hp₀.2]
    exact .singleton _
  | @snoc q q' ls l hrun hl ih =>
    obtain ⟨hreachable, hlast, _⟩ := ends_of_history (p := q) ⟨p₀, ls, hp₀, hrun⟩
    rw [hl.2]
    split
    · apply ih
    · rename_i hne
      rw [List.isChain_append]
      refine ⟨ih, .singleton _, ?_⟩
      intro x hx y hy
      rw [hlast] at hx
      obtain rfl := Option.some.inj hx
      obtain rfl := Option.some.inj hy
      exact (hstep _ _ _ hreachable hl.1).resolve_left hne

end System

end Transition
