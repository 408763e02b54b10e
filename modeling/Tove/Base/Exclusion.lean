import Mathlib.Data.List.Induction
import Mathlib.Data.Option.Basic
import Mathlib.Data.Nat.Notation
import Tove.Base.Transition

/-!
# Mutual exclusion

Sections are entered and left. They exclude each other when a section is entered only while no
one is inside, so that the entries and the exits alternate, and each exit is that of the last one
who has entered.
-/

namespace Exclusion

open Transition

universe u v

/-- A section is entered, or left. -/
inductive Event where
  | enter (n : ℕ)
  | leave (n : ℕ)
  deriving DecidableEq, Repr

/-- The events of sections that exclude each other, with who is inside. -/
inductive Serial : List Event → Option ℕ → Prop where
  | nil : Serial [] none
  | enter {es : List Event} (n : ℕ) : Serial es none → Serial (es ++ [.enter n]) (some n)
  | leave {es : List Event} {n : ℕ} : Serial es (some n) → Serial (es ++ [.leave n]) none

/-- The events of a section. -/
def block (n : ℕ) : List Event := [.enter n, .leave n]

theorem Serial.blocks {es : List Event} {holder : Option ℕ} (h : Serial es holder) :
  ∃ ns : List ℕ, es = ns.flatMap block ++ holder.toList.map .enter
  := by
  induction h with
  | nil => exact ⟨[], rfl⟩
  | enter n _ ih =>
    obtain ⟨ns, rfl⟩ := ih
    exact ⟨ns, by simp⟩
  | @leave _ n _ ih =>
    obtain ⟨ns, rfl⟩ := ih
    exact ⟨ns ++ [n], by simp [block]⟩

section Runs

variable {σ : Type u} {κ : Type v} {S : System σ κ} {s t : σ}

/-- What a step does to those who are inside. -/
inductive Moves (inside inside' : ℕ → Prop) : Option Event → Prop where
  | stay : (∀ m, inside' m ↔ inside m) → Moves inside inside' none
  | enter {n : ℕ} : (∀ m, ¬ inside m) → (∀ m, inside' m ↔ m = n) →
      Moves inside inside' (some (.enter n))
  | leave {n : ℕ} : inside n → (∀ m, inside' m ↔ inside m ∧ m ≠ n) →
      Moves inside inside' (some (.leave n))

/-- When a section is entered only while no one is inside, the events of a run are serial. -/
theorem serial_of_run {I : σ → Prop} (inside : σ → ℕ → Prop) (event : κ → Option Event)
    (hstep : ∀ s l t, I s → S.step s l t → I t ∧ Moves (inside s) (inside t) (event l))
    {ls : List κ} (hrun : S.Run s ls t) (hs : I s) (hnone : ∀ m, ¬ inside s m) :
  ∃ holder, Serial (ls.filterMap event) holder ∧ ∀ m, inside t m ↔ holder = some m
  := by
  suffices hboth : I t ∧ ∃ holder, Serial (ls.filterMap event) holder
      ∧ ∀ m, inside t m ↔ holder = some m from hboth.2
  induction hrun with
  | nil =>
    refine ⟨hs, none, .nil, ?_⟩
    intro m
    exact iff_of_false (hnone m) nofun
  | @snoc t t' ls l _ hl ih =>
    obtain ⟨ht, holder, hserial, hinside⟩ := ih
    obtain ⟨ht', hmoves⟩ := hstep _ _ _ ht hl
    refine ⟨ht', ?_⟩
    rw [List.filterMap_append, List.filterMap_cons, List.filterMap_nil]
    generalize event l = e at hmoves
    cases hmoves with
    | stay hiff =>
      refine ⟨holder, by rwa [List.append_nil], ?_⟩
      intro m
      rw [hiff, hinside]
    | @enter n hnobody hiff =>
      obtain rfl : holder = none := by
        rw [Option.eq_none_iff_forall_ne_some]
        intro m hm
        exact hnobody m ((hinside m).mpr hm)
      refine ⟨some n, hserial.enter n, ?_⟩
      intro m
      rw [hiff, Option.some_inj, eq_comm]
    | @leave n hn hiff =>
      obtain rfl := (hinside n).mp hn
      refine ⟨none, hserial.leave, ?_⟩
      intro m
      rw [hiff, hinside, Option.some_inj]
      exact iff_of_false (fun h => h.2 h.1.symm) nofun

end Runs

end Exclusion
