import Mathlib.Data.List.Basic
import Tove.Base.Transition

/-!
# Nested calls

A state is changed by calls, which may be nested: while a call is open, others are made, to any
depth. A call that fails is undone, with all that has happened since it was opened. To this end an
open call remembers the state in which it was made.
-/

namespace Nesting

open Transition

universe u v w

variable {σ : Type u} {κ : Type v} {φ : Type w}

/-- A state, and the open calls, the innermost first, each with the state in which it was made. -/
structure Nested (σ : Type u) (φ : Type w) where
  current : σ
  stack : List (σ × φ)

/-- The calls that are open. -/
def Nested.calls (n : Nested σ φ) : List φ := n.stack.map Prod.snd

/-- What calls do: when one may be opened, when the innermost one may be closed, and what else may
happen to the state. -/
structure Calls (σ : Type u) (κ : Type v) (φ : Type w) where
  effect : σ → κ → σ → Prop
  enter : σ → φ → σ → Prop
  leave : σ → φ → σ → Prop

/-- What a step does. -/
inductive Label (κ : Type v) (φ : Type w) where
  | effect (k : κ)
  | enter (f : φ)
  | leave (f : φ)
  | undo (f : φ)

/-- The steps of nested calls. -/
inductive Step (C : Calls σ κ φ) : Nested σ φ → Label κ φ → Nested σ φ → Prop where
  | effect {s s' : σ} {k : κ} {stack : List (σ × φ)} : C.effect s k s' →
      Step C ⟨s, stack⟩ (.effect k) ⟨s', stack⟩
  | enter {s s' : σ} {f : φ} {stack : List (σ × φ)} : C.enter s f s' →
      Step C ⟨s, stack⟩ (.enter f) ⟨s', (s, f) :: stack⟩
  | leave {s s' s₀ : σ} {f : φ} {stack : List (σ × φ)} : C.leave s f s' →
      Step C ⟨s, (s₀, f) :: stack⟩ (.leave f) ⟨s', stack⟩
  | undo {s s₀ : σ} {f : φ} {stack : List (σ × φ)} :
      Step C ⟨s, (s₀, f) :: stack⟩ (.undo f) ⟨s₀, stack⟩

/-- Nested calls as a transition system. -/
def nested (C : Calls σ κ φ) (init : σ → Prop) : System (Nested σ φ) (Label κ φ) where
  init n := init n.current ∧ n.stack = []
  step := Step C

/-- A statement about the state and the open calls holds now, and it held whenever a call was made
that is open. -/
def Throughout (I : σ → List φ → Prop) : σ → List (σ × φ) → Prop
  | s, [] => I s []
  | s, (s₀, f) :: stack => I s (f :: stack.map Prod.snd) ∧ Throughout I s₀ stack

section Invariants

variable {C : Calls σ κ φ} {init : σ → Prop} {I : σ → List φ → Prop} {n n' : Nested σ φ}
  {l : Label κ φ}

/-- The statement holds now. -/
theorem Throughout.current {s : σ} {stack : List (σ × φ)} (h : Throughout I s stack) :
  I s (stack.map Prod.snd)
  := by
  cases stack with
  | nil => apply h
  | cons frame stack => apply h.1

/-- Another state may take the place of the present one. -/
theorem Throughout.replace {s s' : σ} {stack : List (σ × φ)} (h : Throughout I s stack)
    (hI : I s' (stack.map Prod.snd)) :
  Throughout I s' stack
  := by
  cases stack with
  | nil => apply hI
  | cons frame stack => exact ⟨hI, h.2⟩

/-- A statement that the effects keep, and the opening and the closing of calls. -/
structure Kept (C : Calls σ κ φ) (I : σ → List φ → Prop) : Prop where
  effect : ∀ s k s' calls, I s calls → C.effect s k s' → I s' calls
  enter : ∀ s f s' calls, I s calls → C.enter s f s' → I s' (f :: calls)
  leave : ∀ s f s' calls, I s (f :: calls) → C.leave s f s' → I s' calls

/-- A statement that is kept holds throughout after a step. -/
theorem Kept.step (h : Kept C I) (hn : Throughout I n.current n.stack) (hstep : Step C n l n') :
  Throughout I n'.current n'.stack
  := by
  have hcurrent := hn.current
  cases hstep with
  | effect heffect => exact hn.replace (h.effect _ _ _ _ hcurrent heffect)
  | enter henter => exact ⟨h.enter _ _ _ _ hcurrent henter, hn⟩
  | leave hleave => exact hn.2.replace (h.leave _ _ _ _ hcurrent hleave)
  | undo => exact hn.2

/-- A statement that is kept holds throughout every run from where it holds throughout. -/
theorem Kept.run (h : Kept C I) {ls : List (Label κ φ)} (hrun : (nested C init).Run n ls n')
    (hn : Throughout I n.current n.stack) :
  Throughout I n'.current n'.stack
  := hrun.preserves (I := fun n => Throughout I n.current n.stack) (fun _ _ _ => h.step) hn

/-- A statement that is kept, and holds initially, holds in every reachable state. -/
theorem Kept.reachable (h : Kept C I) (hinit : ∀ s, init s → I s [])
    (hn : (nested C init).Reachable n) :
  I n.current n.calls
  := by
  apply Throughout.current
  apply hn.invariant (I := fun n => Throughout I n.current n.stack)
  · rintro ⟨s, stack⟩ ⟨hs, rfl⟩
    apply hinit s hs
  · exact fun _ _ _ => h.step

end Invariants

/-! ### Calls from their opening to their end -/

section Spans

variable {C : Calls σ κ φ} {init : σ → Prop} {s : σ} {stack : List (σ × φ)} {n n' : Nested σ φ}

/-- The steps while a call is open: the calls below it are not touched. -/
def within (C : Calls σ κ φ) (init : σ → Prop) (depth : ℕ) :
    System (Nested σ φ) (Label κ φ) :=
  (nested C init).restrict fun _ _ n => depth < n.stack.length

/-- While a call is open, it and the calls below it stay on the stack. -/
theorem stack_of_within {frame : σ × φ} {ls : List (Label κ φ)}
    (hrun : (within C init stack.length).Run ⟨s, frame :: stack⟩ ls n) :
  ∃ above, n.stack = above ++ frame :: stack
  := by
  apply hrun.preserves (I := fun n => ∃ above, n.stack = above ++ frame :: stack)
  · rintro m l m' ⟨above, habove⟩ ⟨hstep, hdepth⟩
    cases hstep with
    | effect _ => exact ⟨above, habove⟩
    | @enter s _ f _ _ =>
      exact ⟨(s, f) :: above, congrArg ((s, f) :: ·) habove⟩
    | leave _ =>
      cases above with
      | nil =>
        rw [List.nil_append, List.cons.injEq] at habove
        rw [habove.2] at hdepth
        exact absurd hdepth (Nat.lt_irrefl _)
      | cons _ above => exact ⟨above, (List.cons.inj habove).2⟩
    | undo =>
      cases above with
      | nil =>
        rw [List.nil_append, List.cons.injEq] at habove
        rw [habove.2] at hdepth
        exact absurd hdepth (Nat.lt_irrefl _)
      | cons _ above => exact ⟨above, (List.cons.inj habove).2⟩
  · exact ⟨[], rfl⟩

/-- A call that is undone leaves nothing behind. -/
theorem undo_restores {f : φ} {s' : σ} {ls : List (Label κ φ)}
    (hrun : (within C init stack.length).Run ⟨s', (s, f) :: stack⟩ ls n) {g : φ}
    (hundo : Step C n (.undo g) n') (hdepth : n'.stack.length = stack.length) :
  n' = ⟨s, stack⟩
  := by
  obtain ⟨above, habove⟩ := stack_of_within hrun
  cases hundo with
  | @undo t t₀ g stack' =>
    change (t₀, g) :: stack' = _ at habove
    cases above with
    | nil =>
      obtain ⟨hframe, rfl⟩ := List.cons.inj habove
      obtain ⟨rfl, rfl⟩ := Prod.mk.inj hframe
      rfl
    | cons frame above =>
      have hstack := (List.cons.inj habove).2
      change stack'.length = stack.length at hdepth
      simp only [hstack, List.append_eq, List.length_append, List.length_cons] at hdepth
      omega

/-- A call that is closed is the one that was opened. -/
theorem leave_matches {f : φ} {s' : σ} {ls : List (Label κ φ)}
    (hrun : (within C init stack.length).Run ⟨s', (s, f) :: stack⟩ ls n) {g : φ}
    (hleave : Step C n (.leave g) n') (hdepth : n'.stack.length = stack.length) :
  g = f ∧ C.leave n.current f n'.current ∧ n'.stack = stack
  := by
  obtain ⟨above, habove⟩ := stack_of_within hrun
  cases hleave with
  | @leave t t' t₀ g stack' hleave =>
    change (t₀, g) :: stack' = _ at habove
    cases above with
    | nil =>
      obtain ⟨hframe, rfl⟩ := List.cons.inj habove
      obtain ⟨rfl, rfl⟩ := Prod.mk.inj hframe
      exact ⟨rfl, hleave, rfl⟩
    | cons frame above =>
      have hstack := (List.cons.inj habove).2
      change stack'.length = stack.length at hdepth
      simp only [hstack, List.append_eq, List.length_append, List.length_cons] at hdepth
      omega

end Spans

end Nesting
