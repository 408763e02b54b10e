import Mathlib.Data.Nat.Notation
import Mathlib.Logic.Basic
import Mathlib.Order.Notation

/-!
# Transition systems

A system has initial states and labelled steps.  A run is a finite sequence of steps, with the
list of its labels; a state is reachable when a run from an initial state ends in it.
-/

namespace Transition

universe u v

/-- A labelled transition system. -/
structure System (σ : Type u) (κ : Type v) where
  init : σ → Prop
  step : σ → κ → σ → Prop

namespace System

variable {σ : Type u} {κ : Type v} (S : System σ κ)

/-- A finite run, with its labels in the order of the steps. -/
inductive Run : σ → List κ → σ → Prop where
  | nil (s : σ) : Run s [] s
  | snoc {s t t' : σ} {ls : List κ} {l : κ} : Run s ls t → S.step t l t' → Run s (ls ++ [l]) t'

/-- The states in which a run from an initial state ends. -/
def Reachable (s : σ) : Prop := ∃ s₀ ls, S.init s₀ ∧ S.Run s₀ ls s

variable {S}

theorem Reachable.init {s : σ} (h : S.init s) :
  S.Reachable s
  := ⟨s, [], h, .nil s⟩

theorem Reachable.step {s t : σ} {l : κ} (hs : S.Reachable s) (h : S.step s l t) :
  S.Reachable t
  := by
  obtain ⟨s₀, ls, hinit, hrun⟩ := hs
  exact ⟨s₀, ls ++ [l], hinit, .snoc hrun h⟩

/-- What is reached by a run from a reachable state is reachable. -/
theorem Reachable.run {s t : σ} {ls : List κ} (hs : S.Reachable s) (h : S.Run s ls t) :
  S.Reachable t
  := by
  induction h with
  | nil => apply hs
  | snoc _ hl ih => apply ih.step hl

theorem Run.single {s t : σ} {l : κ} (h : S.step s l t) :
  S.Run s [l] t
  := .snoc (.nil s) h

theorem Run.trans {s t t' : σ} {ls ls' : List κ} (h : S.Run s ls t) (h' : S.Run t ls' t') :
  S.Run s (ls ++ ls') t'
  := by
  induction h' with
  | nil => rwa [List.append_nil]
  | snoc _ hstep ih =>
    rw [← List.append_assoc]
    apply Run.snoc ih hstep

theorem Run.of_nil {s t : σ} {ls : List κ} (h : S.Run s ls t) (hls : ls = []) :
  t = s
  := by
  cases h with
  | nil => rfl
  | snoc => simp at hls

/-- A run of one step. -/
theorem Run.of_singleton {s t : σ} {l : κ} {ls : List κ} (h : S.Run s ls t) (hls : ls = [l]) :
  S.step s l t
  := by
  cases h with
  | nil => cases hls
  | @snoc _ _ ls l' hrun hstep =>
    have heq : ls ++ [l'] = [] ++ [l] := hls
    obtain ⟨hnil, hlast⟩ := List.append_inj' heq rfl
    obtain rfl := List.singleton_inj.mp hlast
    obtain rfl := hrun.of_nil hnil
    apply hstep

/-- A run is cut where its labels are. -/
theorem Run.of_append {s t : σ} {ls ls₁ ls₂ : List κ} (h : S.Run s ls t) (hls : ls = ls₁ ++ ls₂) :
  ∃ u, S.Run s ls₁ u ∧ S.Run u ls₂ t
  := by
  induction h generalizing ls₂ with
  | nil =>
    obtain ⟨rfl, rfl⟩ := List.append_eq_nil_iff.mp hls.symm
    exact ⟨s, .nil s, .nil s⟩
  | @snoc t t' ls l hrun hstep ih =>
    rcases List.eq_nil_or_concat ls₂ with rfl | ⟨ls', l', rfl⟩
    · rw [List.append_nil] at hls
      rw [← hls]
      exact ⟨t', .snoc hrun hstep, .nil t'⟩
    · rw [List.concat_eq_append, ← List.append_assoc] at hls
      rw [List.concat_eq_append]
      obtain ⟨hinit, hlast⟩ := List.append_inj' hls rfl
      obtain rfl := List.singleton_inj.mp hlast
      obtain ⟨u, hu, hu'⟩ := ih hinit
      exact ⟨u, hu, .snoc hu' hstep⟩

/-- A run is seen as a run, when every step is seen as a step. -/
theorem Run.map {τ : Type u} {ι : Type v} {T : System τ ι} (f : σ → τ) (g : κ → ι)
    (hstep : ∀ s l t, S.step s l t → T.step (f s) (g l) (f t)) {s t : σ} {ls : List κ}
    (h : S.Run s ls t) :
  T.Run (f s) (ls.map g) (f t)
  := by
  induction h with
  | nil => apply Run.nil
  | snoc _ hl ih =>
    rw [List.map_append, List.map_singleton]
    apply Run.snoc ih (hstep _ _ _ hl)

/-- A property that every step preserves is preserved by every run. -/
theorem Run.preserves {I : σ → Prop} (hstep : ∀ s l t, I s → S.step s l t → I t)
    {s t : σ} {ls : List κ} (h : S.Run s ls t) (hs : I s) :
  I t
  := by
  induction h with
  | nil => apply hs
  | snoc _ hl ih => apply hstep _ _ _ ih hl

/-- A run is at most as long as what the variant loses in it, when every step lowers it. -/
theorem Run.length_add_le {I : σ → Prop} {variant : σ → ℕ}
    (hstep : ∀ s l t, I s → S.step s l t → I t ∧ variant t < variant s)
    {s t : σ} {ls : List κ} (h : S.Run s ls t) (hs : I s) :
  ls.length + variant t ≤ variant s
  := by
  suffices hrun : I t ∧ ls.length + variant t ≤ variant s from hrun.2
  induction h with
  | nil => simpa using hs
  | @snoc t t' ls l _ hl ih =>
    obtain ⟨hI, hle⟩ := ih
    obtain ⟨hI', hlt⟩ := hstep _ _ _ hI hl
    refine ⟨hI', ?_⟩
    rw [List.length_append, List.length_singleton]
    omega

/-- A property of the initial states that every step preserves holds of every reachable
state. -/
theorem Reachable.invariant {I : σ → Prop} (hinit : ∀ s, S.init s → I s)
    (hstep : ∀ s l t, I s → S.step s l t → I t) {s : σ} (h : S.Reachable s) :
  I s
  := by
  obtain ⟨s₀, ls, hs₀, hrun⟩ := h
  apply hrun.preserves hstep (hinit s₀ hs₀)

variable (S)

/-- Every step of every run from an initial state has the property `P`. -/
def EveryStep (P : σ → κ → σ → Prop) : Prop := ∀ s l t, S.Reachable s → S.step s l t → P s l t

/-- The system whose steps are those of `S` that meet a condition. -/
def restrict (condition : σ → κ → σ → Prop) : System σ κ where
  init := S.init
  step s l t := S.step s l t ∧ condition s l t

/-- A run of a restricted system is a run of the system. -/
theorem Run.of_restrict {condition : σ → κ → σ → Prop} {s t : σ} {ls : List κ}
    (h : (S.restrict condition).Run s ls t) :
  S.Run s ls t
  := by
  induction h with
  | nil => apply Run.nil
  | snoc _ hl ih => apply Run.snoc ih hl.1

/-- What a restricted system reaches, the system reaches. -/
theorem Reachable.of_restrict {condition : σ → κ → σ → Prop} {s : σ}
    (h : (S.restrict condition).Reachable s) :
  S.Reachable s
  := by
  apply h.invariant
  · intro s₀ hinit
    apply Reachable.init (S := S) hinit
  · intro s₀ l s₁ hs₀ hstep
    apply hs₀.step hstep.1

end System

/-! ### Refinement -/

section Refinement

variable {σ : Type u} {κ : Type v} {τ : Type u} {ι : Type v} {S : System σ κ} {T : System τ ι}
  {f : σ → τ} {I : σ → Prop}

/-- The system `S` refines the system `T` along `f`: as long as the invariant `I` holds, every
step of `S` is seen by `T` as a step or as no change. -/
structure Refines (S : System σ κ) (T : System τ ι) (f : σ → τ) (I : σ → Prop) : Prop where
  init : ∀ s, S.init s → I s ∧ T.init (f s)
  invariant : ∀ s l s', I s → S.step s l s' → I s'
  step : ∀ s l s', I s → S.step s l s' → f s' = f s ∨ ∃ i, T.step (f s) i (f s')

/-- What is reachable in a refinement is seen as reachable. -/
theorem Refines.reachable (h : Refines S T f I) {s : σ} (hs : S.Reachable s) :
  I s ∧ T.Reachable (f s)
  := by
  apply hs.invariant (I := fun s => I s ∧ T.Reachable (f s))
  · intro s₀ hs₀
    obtain ⟨hI, hinit⟩ := h.init s₀ hs₀
    exact ⟨hI, .init hinit⟩
  · rintro s l s' ⟨hI, hreachable⟩ hstep
    constructor
    · apply h.invariant s l s' hI hstep
    · rcases h.step s l s' hI hstep with heq | ⟨i, hi⟩
      · rw [heq]
        apply hreachable
      · apply hreachable.step hi

end Refinement

end Transition
