import Mathlib.Data.List.Basic

/-!
# What has happened since

In a list of events, an event of one kind has happened, and none of another kind has happened
after it.
-/

universe u

variable {ε : Type u} {p q : ε → Prop} {events : List ε} {e : ε}

/-- A list that is split at an event ends with the event, or it goes on after it. -/
theorem concat_eq_append_cons {before after : List ε} {e e' : ε} :
  events ++ [e] = before ++ e' :: after ↔ (events = before ∧ e = e' ∧ after = [])
    ∨ ∃ after', after = after' ++ [e] ∧ events = before ++ e' :: after'
  := by
  rcases List.eq_nil_or_concat after with rfl | ⟨after', e'', rfl⟩
  · simp
  · rw [List.concat_eq_append, ← List.cons_append, ← List.append_assoc]
    constructor
    · intro heq
      obtain ⟨hinit, hlast⟩ := List.append_inj' heq rfl
      obtain rfl := List.singleton_inj.mp hlast
      exact .inr ⟨after', rfl, hinit⟩
    · rintro (⟨_, _, hnil⟩ | ⟨after'', heq, rfl⟩)
      · simp at hnil
      · obtain ⟨rfl, hlast⟩ := List.append_inj' heq rfl
        rw [hlast]

theorem pairwise_concat {r : ε → ε → Prop} :
  (events ++ [e]).Pairwise r ↔ events.Pairwise r ∧ ∀ e' ∈ events, r e' e
  := by
  simp [List.pairwise_append]

/-- An event with `p` is in the list, and no event with `q` is after it. -/
def Since (p q : ε → Prop) (events : List ε) : Prop :=
  ∃ (before : List ε) (e : ε) (after : List ε), events = before ++ e :: after ∧ p e
    ∧ ∀ e' ∈ after, ¬ q e'

/-- It is the last event, or it was before and the last event is not of the other kind. -/
theorem since_concat :
  Since p q (events ++ [e]) ↔ p e ∨ Since p q events ∧ ¬ q e
  := by
  constructor
  · rintro ⟨before, e', after, heq, hp, hafter⟩
    rcases concat_eq_append_cons.mp heq with ⟨_, rfl, _⟩ | ⟨after', rfl, hinit⟩
    · exact .inl hp
    · refine .inr ⟨⟨before, e', after', hinit, hp, ?_⟩, hafter e (by simp)⟩
      intro e'' he''
      exact hafter e'' (by simp [he''])
  · rintro (hp | ⟨⟨before, e', after, rfl, hp, hafter⟩, hq⟩)
    · exact ⟨events, e, [], rfl, hp, by simp⟩
    · refine ⟨before, e', after ++ [e], by simp, hp, ?_⟩
      intro e'' he''
      rcases List.mem_append.mp he'' with hmem | hmem
      · exact hafter e'' hmem
      · rwa [List.mem_singleton.mp hmem]

theorem Since.now (hp : p e) :
  Since p q (events ++ [e])
  := since_concat.mpr (.inl hp)

theorem Since.later (h : Since p q events) (hq : ¬ q e) :
  Since p q (events ++ [e])
  := since_concat.mpr (.inr ⟨h, hq⟩)
