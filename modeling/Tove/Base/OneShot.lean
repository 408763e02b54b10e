import Tove.Base.Transition

/-!
# One-shot operations

An operation on a remote system is to take effect at most once, and the books record what has become
of it.  It is submitted any number of times; a submission stays live until it takes effect or fades
away, and the books do not see which.  The books may record the operation as done once it has
taken effect, and they may revert it only while it has not, and no submission is live.
-/

namespace OneShot

open Transition

/-- What the books say about the operation. -/
inductive Row where
  | waiting
  | done
  | reverted
  deriving DecidableEq, Repr

/-- The books, whether a submission may still take effect, and whether one has. -/
structure State where
  row : Row
  live : Prop
  effect : Prop

/-- The steps of a one-shot operation. -/
inductive Step : State → Unit → State → Prop where
  | submit {live effect : Prop} : Step ⟨.waiting, live, effect⟩ () ⟨.waiting, True, effect⟩
  | land {row : Row} {live live' effect : Prop} : live → (live' → live) →
      Step ⟨row, live, effect⟩ () ⟨row, live', True⟩
  | fade {row : Row} {live effect : Prop} : Step ⟨row, live, effect⟩ () ⟨row, False, effect⟩
  | confirm {live effect : Prop} : effect →
      Step ⟨.waiting, live, effect⟩ () ⟨.done, live, effect⟩
  | revert {live effect : Prop} : ¬ live → ¬ effect →
      Step ⟨.waiting, live, effect⟩ () ⟨.reverted, live, effect⟩

/-- When fewer submissions are live, either nothing has changed, or they have faded away. -/
theorem Step.of_imp (row : Row) (effect : Prop) {live live' : Prop} (h : live' → live) :
  (⟨row, live', effect⟩ : State) = ⟨row, live, effect⟩
    ∨ ∃ i, Step ⟨row, live, effect⟩ i ⟨row, live', effect⟩
  := by
  by_cases hlive : live'
  · left
    rw [eq_true hlive, eq_true (h hlive)]
  · right
    rw [eq_false hlive]
    exact ⟨(), .fade⟩

/-- The one-shot operation as a transition system. -/
def system : Transition.System State Unit where
  init s := s.row = .waiting ∧ ¬ s.live ∧ ¬ s.effect
  step := Step

/-- The books are right: what is done has taken effect, and what is reverted has not, and will
not. -/
structure Honest (s : State) : Prop where
  done : s.row = .done → s.effect
  reverted : s.row = .reverted → ¬ s.live ∧ ¬ s.effect

theorem Honest.step {s s' : State} (h : Honest s) {l : Unit} (hstep : Step s l s') :
  Honest s'
  := by
  cases hstep with
  | submit => exact ⟨nofun, nofun⟩
  | land hlive _ => exact ⟨fun _ => trivial, fun hrow => absurd hlive (h.reverted hrow).1⟩
  | fade => exact ⟨h.done, fun hrow => ⟨id, (h.reverted hrow).2⟩⟩
  | confirm heffect => exact ⟨fun _ => heffect, nofun⟩
  | revert hlive heffect => exact ⟨nofun, fun _ => ⟨hlive, heffect⟩⟩

/-- In every reachable state the books are right. -/
theorem honest_of_reachable {s : State} (h : system.Reachable s) :
  Honest s
  := by
  apply h.invariant
  · rintro s₀ ⟨hrow, _⟩
    constructor
    · intro hdone
      cases hrow.symm.trans hdone
    · intro hreverted
      cases hrow.symm.trans hreverted
  · intro s l s' hs hstep
    apply hs.step hstep

end OneShot
