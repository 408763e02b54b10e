import Mathlib.Algebra.BigOperators.Group.List.Lemmas
import Mathlib.Algebra.Order.BigOperators.Group.List
import Mathlib.Data.List.Pairwise
import Mathlib.Tactic.Linarith
import Mathlib.Tactic.Ring

/-!
# Totals

The total of a list of items, each with an integer weight.
-/

namespace Totals

universe u v

variable {β : Type u}

/-- The total weight of a list. -/
def total (weight : β → ℤ) (ℓ : List β) : ℤ := (ℓ.map weight).sum

@[simp]
theorem total_nil (weight : β → ℤ) :
  total weight [] = 0
  := rfl

@[simp]
theorem total_cons (weight : β → ℤ) (b : β) (ℓ : List β) :
  total weight (b :: ℓ) = weight b + total weight ℓ
  := by simp [total]

@[simp]
theorem total_append (weight : β → ℤ) (ℓ ℓ' : List β) :
  total weight (ℓ ++ ℓ') = total weight ℓ + total weight ℓ'
  := by simp [total]

theorem total_map {γ : Type v} (weight : β → ℤ) (f : γ → β) (ℓ : List γ) :
  total weight (ℓ.map f) = total (weight ∘ f) ℓ
  := by simp [total]

theorem total_congr {f g : β → ℤ} {ℓ : List β} (h : ∀ b ∈ ℓ, f b = g b) :
  total f ℓ = total g ℓ
  := by
  rw [total, total, List.map_congr_left h]

/-- A total does not depend on the order of the list. -/
theorem total_perm (weight : β → ℤ) {ℓ ℓ' : List β} (h : ℓ.Perm ℓ') :
  total weight ℓ = total weight ℓ'
  := (h.map weight).sum_eq

theorem total_add (f g : β → ℤ) (ℓ : List β) :
  total (fun b => f b + g b) ℓ = total f ℓ + total g ℓ
  := by
  induction ℓ with
  | nil => rfl
  | cons b ℓ ih =>
    rw [total_cons, ih, total_cons, total_cons]
    ring

theorem total_mul_left (c : ℤ) (f : β → ℤ) (ℓ : List β) :
  total (fun b => c * f b) ℓ = c * total f ℓ
  := by
  induction ℓ with
  | nil => simp
  | cons b ℓ ih =>
    rw [total_cons, ih, total_cons]
    ring

theorem total_one (ℓ : List β) :
  total (fun _ => 1) ℓ = ℓ.length
  := by
  induction ℓ with
  | nil => rfl
  | cons b ℓ ih =>
    rw [total_cons, ih, List.length_cons]
    push_cast
    ring

theorem total_zero (ℓ : List β) :
  total (fun _ => 0) ℓ = 0
  := by
  induction ℓ with
  | nil => rfl
  | cons b ℓ ih => rw [total_cons, ih, add_zero]

theorem total_le_total {f g : β → ℤ} {ℓ : List β} (h : ∀ b ∈ ℓ, f b ≤ g b) :
  total f ℓ ≤ total g ℓ
  := List.sum_le_sum h

/-- Of two weights of which one bounds the other, the totals are the same only if the weights
are. -/
theorem eq_of_total_eq {f g : β → ℤ} {ℓ : List β} (h : ∀ b ∈ ℓ, f b ≤ g b)
    (htotal : total f ℓ = total g ℓ) :
  ∀ b ∈ ℓ, f b = g b
  := by
  induction ℓ with
  | nil => simp
  | cons b ℓ ih =>
    obtain ⟨hb, hℓ⟩ := List.forall_mem_cons.mp h
    rw [total_cons, total_cons] at htotal
    have hle : total f ℓ ≤ total g ℓ := total_le_total hℓ
    rw [List.forall_mem_cons]
    exact ⟨by omega, ih hℓ (by omega)⟩

theorem total_nonneg {f : β → ℤ} {ℓ : List β} (h : ∀ b ∈ ℓ, 0 ≤ f b) :
  0 ≤ total f ℓ
  := by
  rw [← total_zero ℓ]
  apply total_le_total h

/-- A total of natural-weighted items bounds each item. -/
theorem le_total_of_mem {f : β → ℤ} {ℓ : List β} (h : ∀ b ∈ ℓ, 0 ≤ f b) {b : β} (hb : b ∈ ℓ) :
  f b ≤ total f ℓ
  := by
  obtain ⟨s, t, rfl⟩ := List.append_of_mem hb
  have hs : 0 ≤ total f s := total_nonneg fun c hc => h c (by simp [hc])
  have ht : 0 ≤ total f t := total_nonneg fun c hc => h c (by simp [hc])
  rw [total_append, total_cons]
  omega

/-- The total of a part of a list is at most that of the list. -/
theorem total_part_le {f : β → ℤ} {pre ℓ : List β} (hpre : pre <+: ℓ) (h : ∀ b ∈ ℓ, 0 ≤ f b) :
  total f pre ≤ total f ℓ
  := by
  obtain ⟨suffix, rfl⟩ := hpre
  have : 0 ≤ total f suffix := total_nonneg fun b hb => h b (List.mem_append_right pre hb)
  rw [total_append]
  omega

/-- The total over a filtered list is the total of the function cut off outside the filter. -/
theorem total_filter (f : β → ℤ) (p : β → Prop) [DecidablePred p] (ℓ : List β) :
  total f (ℓ.filter p) = total (fun b => if p b then f b else 0) ℓ
  := by
  induction ℓ with
  | nil => rfl
  | cons b ℓ ih => by_cases h : p b <;> simp [h, ih]

/-- The number of the items of a kind is a total. -/
theorem total_countP (p : β → Prop) [DecidablePred p] (ℓ : List β) :
  total (fun b => if p b then 1 else 0) ℓ = (ℓ.countP p : ℤ)
  := by rw [← total_filter, total_one, List.countP_eq_length_filter]

/-- A total cut off outside one member of a list of distinct items. -/
theorem total_single {γ : Type v} [DecidableEq γ] (f : β → ℤ) (g : β → γ) {ℓ : List β}
    (hnodup : (ℓ.map g).Nodup) {b : β} (hb : b ∈ ℓ) :
  total (fun c => if g c = g b then f c else 0) ℓ = f b
  := by
  obtain ⟨s, t, rfl⟩ := List.append_of_mem hb
  have hne : ∀ c ∈ s ++ t, g c ≠ g b := by
    intro c hc heq
    have hperm : (b :: (s ++ t)).Perm (s ++ b :: t) := List.perm_middle.symm
    have hnodup' := (hperm.map g).nodup_iff.mpr hnodup
    rw [List.map_cons, List.nodup_cons] at hnodup'
    apply hnodup'.1
    rw [← heq]
    apply List.mem_map_of_mem hc
  have hzero : ∀ ℓ' : List β, (∀ c ∈ ℓ', g c ≠ g b) →
      total (fun c => if g c = g b then f c else 0) ℓ' = 0 := by
    intro ℓ' h
    rw [total_congr fun c hc => if_neg (h c hc), total_zero]
  rw [total_append, total_cons, if_pos rfl, hzero s fun c hc => hne c (by simp [hc]),
    hzero t fun c hc => hne c (by simp [hc])]
  ring

/-- A list of items of positive weight has no other members than those of a list of distinct
items that it contains and whose total it has. -/
theorem perm_of_total_eq (weight : β → ℤ) {ℓ ℓ' : List β} (hnodup : ℓ.Nodup)
    (hsubset : ℓ ⊆ ℓ') (hpos : ∀ b ∈ ℓ', 0 < weight b) (htotal : total weight ℓ' = total weight ℓ) :
  ℓ'.Perm ℓ
  := by
  obtain ⟨s, hs, hsub⟩ := List.subperm_of_subset hnodup hsubset
  obtain ⟨rest, hperm⟩ := hsub.exists_perm_append
  have hperm' : ℓ'.Perm (ℓ ++ rest) := hperm.trans (hs.append_right rest)
  have hrest : total weight rest = 0 := by
    rw [total_perm weight hperm', total_append] at htotal
    omega
  cases rest with
  | nil => rwa [List.append_nil] at hperm'
  | cons b rest =>
    have hb : 0 < weight b := hpos b (hperm'.mem_iff.mpr (by simp))
    have hrest' : 0 ≤ total weight rest :=
      total_nonneg fun c hc => (hpos c (hperm'.mem_iff.mpr (by simp [hc]))).le
    rw [total_cons] at hrest
    omega

/-- When the weight of one of several distinct items changes, the total changes by as much. -/
theorem total_update {f g : β → ℤ} {ℓ : List β} (hnodup : ℓ.Nodup) {b : β} (hb : b ∈ ℓ)
    (h : ∀ c ∈ ℓ, c ≠ b → g c = f c) :
  total g ℓ = total f ℓ + (g b - f b)
  := by
  obtain ⟨s, t, rfl⟩ := List.append_of_mem hb
  have hperm : (s ++ b :: t).Perm (b :: (s ++ t)) := List.perm_middle
  have hnot : b ∉ s ++ t := (List.nodup_cons.mp (hperm.nodup_iff.mp hnodup)).1
  have hrest : total g (s ++ t) = total f (s ++ t) := by
    apply total_congr
    intro c hc
    apply h c (hperm.mem_iff.mpr (List.mem_cons_of_mem b hc))
    rintro rfl
    apply hnot hc
  rw [total_perm g hperm, total_perm f hperm, total_cons, total_cons, hrest]
  ring

end Totals
