import Tove.Base.Total
import Mathlib.Data.List.Pairwise
import Mathlib.Data.List.Sort
import Mathlib.Order.Bounds.Basic
import Mathlib.Tactic.Linarith
import Mathlib.Tactic.Ring

/-!
# Rationing and uniform prices

A finite list of claimants, each with a positive weight, shares a quantity `q` pro rata: a
claimant first gets the floor of its exact share, and the units left over by the floors are
handed out one at a time, in the order of a key.  `proRata` is the share of a claimant,
stated without walking the list: the claimant of rank `i` gets a unit of the rest when
`i` is less than the rest.

On top of it stands the uniform-price auction.  A book is a list of claimants with prices and
counts.  `IsClearingPrice` is the specification of its clearing price, `Clears` the condition that
a walk down the book decides, and `allocation` is what the auction gives to each claimant.
-/

namespace Rationing

open Totals

universe u v w

variable {β : Type u}

/-! ### Ranks -/

section Rank

variable {κ : Type v} [LinearOrder κ]

/-- The rank of `b` in `ℓ`: how many members of `ℓ` have a smaller key. -/
def rank (key : β → κ) (ℓ : List β) (b : β) : ℕ := ℓ.countP (key · < key b)

theorem rank_perm (key : β → κ) {ℓ ℓ' : List β} (h : ℓ.Perm ℓ') (b : β) :
  rank key ℓ b = rank key ℓ' b
  := h.countP_eq _

theorem rank_cons_of_lt (key : β → κ) {a b : β} (ℓ : List β) (h : key a < key b) :
  rank key (a :: ℓ) b = rank key ℓ b + 1
  := by simp [rank, h]

/-- The head of a strictly sorted list has rank zero. -/
theorem rank_head (key : β → κ) {a : β} {ℓ : List β}
    (h : (a :: ℓ).Pairwise (key · < key ·)) :
  rank key (a :: ℓ) a = 0
  := by
  rw [rank, List.countP_eq_zero]
  intro c hc
  rw [decide_eq_true_eq, not_lt]
  rcases List.mem_cons.mp hc with rfl | hc
  · apply le_refl
  · apply le_of_lt ((List.pairwise_cons.mp h).1 c hc)

/-- In a strictly sorted list the rank of an entry is its index. -/
theorem rank_getElem (key : β → κ) {ℓ : List β} (h : ℓ.Pairwise (key · < key ·))
    (i : ℕ) (hi : i < ℓ.length) :
  rank key ℓ ℓ[i] = i
  := by
  induction ℓ generalizing i with
  | nil => cases hi
  | cons a ℓ ih =>
    cases i with
    | zero => apply rank_head key h
    | succ i =>
      have hi' : i < ℓ.length := Nat.lt_of_succ_lt_succ hi
      have ha : key a < key ℓ[i] := (List.pairwise_cons.mp h).1 _ (List.getElem_mem hi')
      rw [List.getElem_cons_succ, rank_cons_of_lt key ℓ ha,
        ih (List.pairwise_cons.mp h).2 i hi']

/-- The unit that the claimant of rank `i` gets when `d` units are handed out. -/
def bonus (key : β → κ) (d : ℤ) (ℓ : List β) (b : β) : ℤ :=
  if (rank key ℓ b : ℤ) < d then 1 else 0

theorem bonus_perm (key : β → κ) (d : ℤ) {ℓ ℓ' : List β} (h : ℓ.Perm ℓ') (b : β) :
  bonus key d ℓ b = bonus key d ℓ' b
  := by
  rw [bonus, bonus, rank_perm key h]

theorem bonus_nonneg (key : β → κ) (d : ℤ) (ℓ : List β) (b : β) :
  0 ≤ bonus key d ℓ b
  := by
  unfold bonus
  split <;> omega

theorem bonus_le_one (key : β → κ) (d : ℤ) (ℓ : List β) (b : β) :
  bonus key d ℓ b ≤ 1
  := by
  unfold bonus
  split <;> omega

theorem bonus_of_nonpos (key : β → κ) {d : ℤ} (hd : d ≤ 0) (ℓ : List β) (b : β) :
  bonus key d ℓ b = 0
  := by
  rw [bonus, if_neg]
  omega

/-- Behind a smaller head the units left are one fewer. -/
theorem bonus_cons_of_lt (key : β → κ) (d : ℤ) {a b : β} (ℓ : List β) (h : key a < key b) :
  bonus key d (a :: ℓ) b = bonus key (d - 1) ℓ b
  := by
  rw [bonus, bonus, rank_cons_of_lt key ℓ h]
  congr 1
  rw [eq_iff_iff]
  omega

private theorem total_bonus_of_sorted (key : β → κ) {ℓ : List β}
    (h : ℓ.Pairwise (key · < key ·)) {d : ℤ} (hd : 0 ≤ d) (hdℓ : d ≤ ℓ.length) :
  total (bonus key d ℓ) ℓ = d
  := by
  induction ℓ generalizing d with
  | nil =>
    rw [List.length_nil] at hdℓ
    rw [total_nil]
    omega
  | cons a ℓ ih =>
    rcases hd.eq_or_lt with rfl | hd
    · rw [total_congr fun b _ => bonus_of_nonpos key (le_refl 0) (a :: ℓ) b, total_zero]
    · obtain ⟨ha, hℓ⟩ := List.pairwise_cons.mp h
      have hhead : bonus key d (a :: ℓ) a = 1 := by
        rw [bonus, rank_head key h, if_pos (by simpa using hd)]
      rw [List.length_cons] at hdℓ
      rw [total_cons, hhead, total_congr fun b hb => bonus_cons_of_lt key d ℓ (ha b hb),
        ih hℓ (by omega) (by push_cast at hdℓ; omega)]
      ring

/-- A list with distinct keys has a permutation that is strictly sorted. -/
theorem exists_perm_sorted (key : β → κ) {ℓ : List β} (h : (ℓ.map key).Nodup) :
  ∃ ℓ' : List β, ℓ'.Perm ℓ ∧ ℓ'.Pairwise (key · < key ·)
  := by
  have hperm := List.perm_insertionSort (fun a b => key a ≤ key b) ℓ
  use ℓ.insertionSort (fun a b => key a ≤ key b), hperm
  have hle : (ℓ.insertionSort (fun a b => key a ≤ key b)).Pairwise (key · ≤ key ·) := by
    have := List.pairwise_insertionSort (fun a b => key a ≤ key b) ℓ
    exact this
  have hne : (ℓ.insertionSort (fun a b => key a ≤ key b)).Pairwise (key · ≠ key ·) := by
    rw [← List.pairwise_map]
    apply (hperm.map key).nodup_iff.mpr h
  apply (List.Pairwise.and hle hne).imp
  intro a b hab
  apply lt_of_le_of_ne hab.1 hab.2

/-- Handing out `d` units, at most one to each claimant, hands out `d` units. -/
theorem total_bonus (key : β → κ) {ℓ : List β} (h : (ℓ.map key).Nodup)
    {d : ℤ} (hd : 0 ≤ d) (hdℓ : d ≤ ℓ.length) :
  total (bonus key d ℓ) ℓ = d
  := by
  obtain ⟨ℓ', hperm, hsorted⟩ := exists_perm_sorted key h
  rw [← total_perm _ hperm, total_congr fun b _ => bonus_perm key d hperm.symm b]
  apply total_bonus_of_sorted key hsorted hd
  rw [hperm.length_eq]
  apply hdℓ

/-! ### Pro-rata shares -/

/-- The exact share `weight b * q / total` of a claimant, rounded down. -/
def floorShare (weight : β → ℤ) (q : ℤ) (ℓ : List β) (b : β) : ℤ :=
  weight b * q / total weight ℓ

/-- What the rounded shares leave of `q`. -/
def dust (weight : β → ℤ) (q : ℤ) (ℓ : List β) : ℤ :=
  q - total (floorShare weight q ℓ) ℓ

/-- The pro-rata share: the rounded share, and one unit of the dust for the first claimants. -/
def proRata (weight : β → ℤ) (key : β → κ) (q : ℤ) (ℓ : List β) (b : β) : ℤ :=
  floorShare weight q ℓ b + bonus key (dust weight q ℓ) ℓ b

theorem floorShare_perm (weight : β → ℤ) (q : ℤ) {ℓ ℓ' : List β} (h : ℓ.Perm ℓ') :
  floorShare weight q ℓ = floorShare weight q ℓ'
  := by
  funext b
  rw [floorShare, floorShare, total_perm weight h]

theorem dust_perm (weight : β → ℤ) (q : ℤ) {ℓ ℓ' : List β} (h : ℓ.Perm ℓ') :
  dust weight q ℓ = dust weight q ℓ'
  := by
  rw [dust, dust, floorShare_perm weight q h, total_perm _ h]

/-- The pro-rata shares do not depend on the order of the claimants. -/
theorem proRata_perm (weight : β → ℤ) (key : β → κ) (q : ℤ) {ℓ ℓ' : List β} (h : ℓ.Perm ℓ') :
  proRata weight key q ℓ = proRata weight key q ℓ'
  := by
  funext b
  rw [proRata, proRata, floorShare_perm weight q h, dust_perm weight q h, bonus_perm key _ h]

/-- Claimants that stand for others have their shares. -/
theorem proRata_map {γ : Type*} (weight : β → ℤ) (key : β → κ) (q : ℤ) (f : γ → β) (ℓ : List γ)
    (c : γ) :
  proRata weight key q (ℓ.map f) (f c) = proRata (weight ∘ f) (key ∘ f) q ℓ c
  := by
  have hfloor : floorShare weight q (ℓ.map f) ∘ f = floorShare (weight ∘ f) q ℓ := by
    funext c
    simp only [floorShare, total_map, Function.comp]
  have hdust : dust weight q (ℓ.map f) = dust (weight ∘ f) q ℓ := by
    rw [dust, dust, total_map, hfloor]
  simp only [proRata, hdust, bonus, rank, List.countP_map, ← hfloor]
  rfl

section Claimants

variable {weight : β → ℤ} {q : ℤ} {ℓ : List β}

theorem floorShare_nonneg (hw : ∀ b ∈ ℓ, 0 < weight b) (hq : 0 ≤ q) {b : β} (hb : b ∈ ℓ) :
  0 ≤ floorShare weight q ℓ b
  := by
  apply Int.ediv_nonneg
  · apply mul_nonneg (le_of_lt (hw b hb)) hq
  · apply total_nonneg fun c hc => le_of_lt (hw c hc)

private theorem total_mul_total_floorShare_le (hT : 0 < total weight ℓ) :
  total weight ℓ * total (floorShare weight q ℓ) ℓ ≤ total weight ℓ * q
  := by
  calc total weight ℓ * total (floorShare weight q ℓ) ℓ
      = total (fun b => total weight ℓ * floorShare weight q ℓ b) ℓ :=
        (total_mul_left _ _ ℓ).symm
    _ ≤ total (fun b => q * weight b) ℓ := by
        apply total_le_total
        intro b _
        rw [mul_comm q]
        apply Int.mul_ediv_self_le hT.ne'
    _ = total weight ℓ * q := by rw [total_mul_left, mul_comm]

/-- The rounded shares do not exceed the quantity. -/
theorem dust_nonneg (hT : 0 < total weight ℓ) :
  0 ≤ dust weight q ℓ
  := by
  have := le_of_mul_le_mul_left (total_mul_total_floorShare_le (q := q) hT) hT
  rw [dust]
  omega

/-- Each claimant loses less than one unit to rounding, so the dust is less than their number. -/
theorem dust_lt_length (hT : 0 < total weight ℓ) :
  dust weight q ℓ < ℓ.length
  := by
  have hne : ℓ ≠ [] := by
    rintro rfl
    simp at hT
  have hlt : total weight ℓ * q < total weight ℓ * (total (floorShare weight q ℓ) ℓ + ℓ.length) := by
    calc total weight ℓ * q
        = total (fun b => q * weight b) ℓ := by rw [total_mul_left, mul_comm]
      _ < total (fun b => total weight ℓ * (floorShare weight q ℓ b + 1)) ℓ := by
          apply List.sum_lt_sum_of_ne_nil hne
          intro b _
          rw [mul_comm q, mul_comm (total weight ℓ)]
          apply Int.lt_ediv_add_one_mul_self _ hT
      _ = total weight ℓ * (total (floorShare weight q ℓ) ℓ + ℓ.length) := by
          rw [total_mul_left, total_add, total_one]
  have := lt_of_mul_lt_mul_left hlt (le_of_lt hT)
  rw [dust]
  omega

/-- The pro-rata shares add up to the quantity. -/
theorem total_proRata {key : β → κ} (hkey : (ℓ.map key).Nodup) (hT : 0 < total weight ℓ) :
  total (proRata weight key q ℓ) ℓ = q
  := by
  have hbonus := total_bonus key hkey (dust_nonneg (q := q) hT) (le_of_lt (dust_lt_length hT))
  calc total (proRata weight key q ℓ) ℓ
      = total (floorShare weight q ℓ) ℓ + total (bonus key (dust weight q ℓ) ℓ) ℓ :=
        total_add _ _ ℓ
    _ = q := by
        rw [hbonus, dust]
        ring

theorem proRata_nonneg {key : β → κ} (hw : ∀ b ∈ ℓ, 0 < weight b) (hq : 0 ≤ q)
    {b : β} (hb : b ∈ ℓ) :
  0 ≤ proRata weight key q ℓ b
  := add_nonneg (floorShare_nonneg hw hq hb) (bonus_nonneg key _ ℓ b)

private theorem floorShare_total (hT : 0 < total weight ℓ) (b : β) :
  floorShare weight (total weight ℓ) ℓ b = weight b
  := Int.mul_ediv_cancel _ hT.ne'

/-- A claimant of a rationed quantity gets no more than its weight. -/
theorem proRata_le {key : β → κ} (hw : ∀ b ∈ ℓ, 0 < weight b) (hT : 0 < total weight ℓ)
    (hq : q ≤ total weight ℓ) {b : β} (hb : b ∈ ℓ) :
  proRata weight key q ℓ b ≤ weight b
  := by
  rcases hq.eq_or_lt with rfl | hq
  · have hdust : dust weight (total weight ℓ) ℓ = 0 := by
      rw [dust, total_congr fun c _ => floorShare_total hT c, sub_self]
    rw [proRata, floorShare_total hT, hdust, bonus_of_nonpos key (le_refl 0), add_zero]
  · have hlt : floorShare weight q ℓ b < weight b := by
      apply Int.ediv_lt_of_lt_mul hT
      apply mul_lt_mul_of_pos_left hq (hw b hb)
    have := bonus_le_one key (dust weight q ℓ) ℓ b
    rw [proRata]
    omega

end Claimants

end Rank

end Rationing
