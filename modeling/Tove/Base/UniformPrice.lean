import Tove.Base.Rationing

/-!
# The uniform-price auction

A book is a list of claimants, each with a price, a count and a key.  A quantity `q` is sold at
one price: the greatest price of the book at which the claimants who offer at least that much
ask for at least `q`.  Claimants above the price get their counts, those at the price share the
rest pro rata, those below get nothing.

`IsClearingPrice` is the definition of the price, `Clears` the condition that a walk down a sorted
book decides.  `allocation` is a function of the book as a multiset: it does not depend on the
order in which the claimants are listed.
-/

namespace UniformPrice

open Totals Rationing

universe u v w

variable {β : Type u} {π : Type v} {κ : Type w} [LinearOrder π]

/-- The terms of the claimants: what each offers, how much it asks for, and its key in a tie. -/
structure Terms (β : Type u) (π : Type v) (κ : Type w) where
  price : β → π
  count : β → ℤ
  key : β → κ

namespace Terms

variable (t : Terms β π κ)

/-- The claimants of a book at a given price. -/
def tier (ℓ : List β) (p : π) : List β := ℓ.filter (t.price · = p)

/-- The demand above a price. -/
def demandAbove (ℓ : List β) (p : π) : ℤ := total t.count (ℓ.filter (p < t.price ·))

/-- The demand at a price, or above it. -/
def demand (ℓ : List β) (p : π) : ℤ := total t.count (ℓ.filter (p ≤ t.price ·))

/-- `p` is the greatest price of the book whose demand reaches `q`. -/
def IsClearingPrice (ℓ : List β) (q : ℤ) (p : π) : Prop :=
  IsGreatest { p | (∃ b ∈ ℓ, t.price b = p) ∧ q ≤ t.demand ℓ p } p

/-- The demand crosses `q` at the price `p`. -/
structure Clears (ℓ : List β) (q : ℤ) (p : π) : Prop where
  above_lt : t.demandAbove ℓ p < q
  le_demand : q ≤ t.demand ℓ p

/-- What is left for the claimants at the price `p`. -/
def remaining (ℓ : List β) (q : ℤ) (p : π) : ℤ := q - t.demandAbove ℓ p

/-- The allocation of a claimant when `q` is sold at the price `p`. -/
def allocation [LinearOrder κ] (ℓ : List β) (q : ℤ) (p : π) (b : β) : ℤ :=
  if p < t.price b then t.count b
  else if t.price b = p then proRata t.count t.key (t.remaining ℓ q p) (t.tier ℓ p) b
  else 0

/-! ### The order of the book does not matter -/

section Perm

variable {ℓ ℓ' : List β} (h : ℓ.Perm ℓ')

include h

theorem demandAbove_perm (p : π) :
  t.demandAbove ℓ p = t.demandAbove ℓ' p
  := total_perm _ (h.filter _)

theorem demand_perm (p : π) :
  t.demand ℓ p = t.demand ℓ' p
  := total_perm _ (h.filter _)

theorem clears_perm (q : ℤ) (p : π) :
  t.Clears ℓ q p ↔ t.Clears ℓ' q p
  := by
  constructor
  · rintro ⟨habove, hle⟩
    use t.demandAbove_perm h p ▸ habove, t.demand_perm h p ▸ hle
  · rintro ⟨habove, hle⟩
    use t.demandAbove_perm h p ▸ habove, t.demand_perm h p ▸ hle

/-- The allocation does not depend on the order of the book. -/
theorem allocation_perm [LinearOrder κ] (q : ℤ) (p : π) :
  t.allocation ℓ q p = t.allocation ℓ' q p
  := by
  funext b
  simp only [allocation, remaining, t.demandAbove_perm h]
  have htier : (t.tier ℓ p).Perm (t.tier ℓ' p) := h.filter _
  rw [proRata_perm t.count t.key _ htier]

end Perm

/-! ### Demand and the clearing price -/

/-- The demand at a price is the demand above it and the demand of its tier. -/
theorem demand_eq (ℓ : List β) (p : π) :
  t.demand ℓ p = t.demandAbove ℓ p + total t.count (t.tier ℓ p)
  := by
  rw [demand, demandAbove, tier, total_filter, total_filter, total_filter, ← total_add]
  apply total_congr
  intro b _
  rcases lt_trichotomy p (t.price b) with h | h | h
  · simp [h, h.le, h.ne']
  · simp [h]
  · simp [h.not_ge, h.not_gt, h.ne]

/-- The demand at a higher price is part of the demand above a lower one. -/
theorem demand_le_demandAbove {ℓ : List β} (hcount : ∀ b ∈ ℓ, 0 ≤ t.count b)
    {p p' : π} (h : p < p') :
  t.demand ℓ p' ≤ t.demandAbove ℓ p
  := by
  rw [demand, demandAbove, total_filter, total_filter]
  apply total_le_total
  intro b hb
  by_cases hp : p' ≤ t.price b
  · rw [if_pos hp, if_pos (h.trans_le hp)]
  · rw [if_neg hp]
    split
    · apply hcount b hb
    · apply le_refl

theorem demand_nonneg {ℓ : List β} (hcount : ∀ b ∈ ℓ, 0 ≤ t.count b) (p : π) :
  0 ≤ t.demand ℓ p
  := total_nonneg fun b hb => hcount b (List.mem_of_mem_filter hb)

/-- There is no demand above a price that bounds all prices. -/
theorem demandAbove_eq_zero {ℓ : List β} {p : π} (h : ∀ b ∈ ℓ, t.price b ≤ p) :
  t.demandAbove ℓ p = 0
  := by
  rw [demandAbove, List.filter_eq_nil_iff.mpr, total_nil]
  intro b hb
  rw [decide_eq_true_eq, not_lt]
  apply h b hb

theorem demand_cons_of_le {b : β} {p : π} (ℓ : List β) (h : p ≤ t.price b) :
  t.demand (b :: ℓ) p = t.count b + t.demand ℓ p
  := by
  simp only [demand, List.filter_cons, h, decide_true, if_true, total_cons]

theorem demandAbove_cons_le {b : β} (ℓ : List β) (h : 0 ≤ t.count b) (p : π) :
  t.demandAbove (b :: ℓ) p ≤ t.count b + t.demandAbove ℓ p
  := by
  simp only [demandAbove, List.filter_cons]
  split
  · rw [total_cons]
  · omega

theorem demand_le_total {ℓ : List β} (hcount : ∀ b ∈ ℓ, 0 ≤ t.count b) (p : π) :
  t.demand ℓ p ≤ total t.count ℓ
  := by
  rw [demand, total_filter]
  apply total_le_total
  intro b hb
  split
  · apply le_refl
  · apply hcount b hb

theorem mem_tier {ℓ : List β} {p : π} {b : β} :
  b ∈ t.tier ℓ p ↔ b ∈ ℓ ∧ t.price b = p
  := by simp [tier]

section Clears

variable {t} {ℓ : List β} {q : ℤ} {p : π}

/-- The remaining quantity is positive. -/
theorem Clears.remaining_pos (h : t.Clears ℓ q p) :
  0 < t.remaining ℓ q p
  := sub_pos.mpr h.above_lt

/-- The remaining quantity is no more than the tier asks for. -/
theorem Clears.remaining_le (h : t.Clears ℓ q p) :
  t.remaining ℓ q p ≤ total t.count (t.tier ℓ p)
  := by
  have := h.le_demand
  rw [demand_eq] at this
  rw [remaining]
  omega

theorem Clears.total_tier_pos (h : t.Clears ℓ q p) :
  0 < total t.count (t.tier ℓ p)
  := lt_of_lt_of_le h.remaining_pos h.remaining_le

/-- A crossing price is a price of the book. -/
theorem Clears.exists_mem (h : t.Clears ℓ q p) :
  ∃ b ∈ ℓ, t.price b = p
  := by
  obtain ⟨b, hb⟩ : ∃ b, b ∈ t.tier ℓ p := by
    apply List.exists_mem_of_ne_nil
    intro hnil
    have := h.total_tier_pos
    rw [hnil, total_nil] at this
    apply lt_irrefl _ this
  use b, (t.mem_tier.mp hb).1, (t.mem_tier.mp hb).2

/-- The price at which the demand crosses `q` is the clearing price. -/
theorem Clears.isClearingPrice (h : t.Clears ℓ q p) (hcount : ∀ b ∈ ℓ, 0 ≤ t.count b) :
  t.IsClearingPrice ℓ q p
  := by
  constructor
  · use h.exists_mem, h.le_demand
  · rintro p' ⟨_, hp'⟩
    by_contra hlt
    rw [not_le] at hlt
    have := t.demand_le_demandAbove hcount hlt
    have := h.above_lt
    omega

theorem IsClearingPrice.unique {p' : π} (h : t.IsClearingPrice ℓ q p)
    (h' : t.IsClearingPrice ℓ q p') :
  p = p'
  := IsGreatest.unique h h'

/-! ### The allocation -/

variable [LinearOrder κ]

theorem allocation_of_lt {b : β} (h : p < t.price b) :
  t.allocation ℓ q p b = t.count b
  := if_pos h

theorem allocation_of_eq {b : β} (h : t.price b = p) :
  t.allocation ℓ q p b = proRata t.count t.key (t.remaining ℓ q p) (t.tier ℓ p) b
  := by
  rw [allocation, if_neg (by rw [h]; apply lt_irrefl), if_pos h]

theorem allocation_of_gt {b : β} (h : t.price b < p) :
  t.allocation ℓ q p b = 0
  := by
  rw [allocation, if_neg h.not_gt, if_neg h.ne]

/-- Nobody gets more than it asks for, nor less than nothing. -/
theorem Clears.allocation_mem_Icc (h : t.Clears ℓ q p) (hcount : ∀ b ∈ ℓ, 0 < t.count b)
    {b : β} (hb : b ∈ ℓ) :
  0 ≤ t.allocation ℓ q p b ∧ t.allocation ℓ q p b ≤ t.count b
  := by
  have htier : ∀ c ∈ t.tier ℓ p, 0 < t.count c := fun c hc => hcount c (t.mem_tier.mp hc).1
  rcases lt_trichotomy p (t.price b) with hlt | heq | hgt
  · rw [allocation_of_lt hlt]
    use le_of_lt (hcount b hb)
  · have hbt : b ∈ t.tier ℓ p := t.mem_tier.mpr ⟨hb, heq.symm⟩
    rw [allocation_of_eq heq.symm]
    constructor
    · apply proRata_nonneg htier h.remaining_pos.le hbt
    · apply proRata_le htier h.total_tier_pos h.remaining_le hbt
  · rw [allocation_of_gt hgt]
    use le_refl 0, le_of_lt (hcount b hb)

/-- The allocations add up to the quantity sold. -/
theorem Clears.total_allocation (h : t.Clears ℓ q p) (hkey : (ℓ.map t.key).Nodup) :
  total (t.allocation ℓ q p) ℓ = q
  := by
  have hsplit : total (t.allocation ℓ q p) ℓ = t.demandAbove ℓ p
      + total (proRata t.count t.key (t.remaining ℓ q p) (t.tier ℓ p)) (t.tier ℓ p) := by
    conv_rhs => rw [demandAbove, total_filter]; arg 2; arg 2; rw [tier]
    rw [total_filter, ← total_add]
    apply total_congr
    intro b _
    rcases lt_trichotomy p (t.price b) with hlt | heq | hgt
    · simp [allocation_of_lt hlt, hlt, hlt.ne']
    · rw [allocation_of_eq heq.symm]
      simp [heq]
    · simp [allocation_of_gt hgt, hgt.not_gt, hgt.ne]
  have hnodup : ((t.tier ℓ p).map t.key).Nodup :=
    hkey.sublist (List.filter_sublist.map t.key)
  rw [hsplit, total_proRata hnodup h.total_tier_pos, remaining]
  ring

end Clears

/-! ### Renaming the claimants -/

/-- The terms of claimants that stand for others. -/
def comap {γ : Type*} (t : Terms β π κ) (f : γ → β) : Terms γ π κ where
  price := t.price ∘ f
  count := t.count ∘ f
  key := t.key ∘ f

section Comap

variable {γ : Type*} (t : Terms β π κ) (f : γ → β) (ℓ : List γ)

theorem demandAbove_map (p : π) :
  t.demandAbove (ℓ.map f) p = (t.comap f).demandAbove ℓ p
  := by
  rw [demandAbove, List.filter_map, total_map]
  rfl

theorem demand_map (p : π) :
  t.demand (ℓ.map f) p = (t.comap f).demand ℓ p
  := by
  rw [demand, List.filter_map, total_map]
  rfl

theorem tier_map (p : π) :
  t.tier (ℓ.map f) p = ((t.comap f).tier ℓ p).map f
  := by
  rw [tier, List.filter_map]
  rfl

theorem clears_map (q : ℤ) (p : π) :
  t.Clears (ℓ.map f) q p ↔ (t.comap f).Clears ℓ q p
  := by
  constructor
  · rintro ⟨habove, hle⟩
    use t.demandAbove_map f ℓ p ▸ habove, t.demand_map f ℓ p ▸ hle
  · rintro ⟨habove, hle⟩
    use t.demandAbove_map f ℓ p ▸ habove, t.demand_map f ℓ p ▸ hle

/-- The allocation of a claimant is that of the one it stands for. -/
theorem allocation_map [LinearOrder κ] (q : ℤ) (p : π) (c : γ) :
  t.allocation (ℓ.map f) q p (f c) = (t.comap f).allocation ℓ q p c
  := by
  simp only [allocation, remaining, demandAbove_map, tier_map, proRata_map]
  rfl

end Comap

end Terms

end UniformPrice
