import Mathlib.Algebra.BigOperators.Finprod
import Tove.Base.Ledger

/-!
# Movements of units

A movement takes units from a source to a target. A movement without a source issues the units,
and a movement without a target destroys them. Seen from the outside, which is the account
`none`, every movement is a transfer, so the sum of the balances changes by what a movement
issues.
-/

namespace Ledgers

open Totals

universe u

variable {α : Type u} [DecidableEq α]

/-- A movement of units. -/
structure Movement (α : Type u) where
  source : Option α
  target : Option α
  amount : ℤ
  deriving DecidableEq, Repr

namespace Movement

/-- What a movement adds to the balance of an account, or of the outside. -/
def delta (m : Movement α) (a : Option α) : ℤ :=
  (if m.target = a then m.amount else 0) - if m.source = a then m.amount else 0

/-- The balances after a movement. -/
def post (m : Movement α) (b : Ledger α) : Ledger α := fun a => b a + m.delta (some a)

/-- What a movement adds to the supply. -/
def issued (m : Movement α) : ℤ := - m.delta none

variable (m : Movement α) {a : α} {b : Ledger α}

/-- A movement does not debit an account other than its source. -/
theorem le_post (hm : 0 ≤ m.amount) (h : m.source ≠ some a) :
  b a ≤ m.post b a
  := by
  rw [post, delta, if_neg h]
  split <;> omega

/-- The source of a movement is debited by the amount at most. -/
theorem sub_le_post (hm : 0 ≤ m.amount) :
  b a - m.amount ≤ m.post b a
  := by
  rw [post, delta]
  split <;> split <;> omega

theorem post_nonneg (hm : 0 ≤ m.amount) (hsource : ∀ c, m.source = some c → m.amount ≤ b c)
    (hb : ∀ c, 0 ≤ b c) (a : α) :
  0 ≤ m.post b a
  := by
  by_cases h : m.source = some a
  · have := m.sub_le_post (b := b) (a := a) hm
    have := hsource a h
    omega
  · exact (hb a).trans (m.le_post hm h)

/-- A movement credits only its target. -/
theorem post_le (hm : 0 ≤ m.amount) (h : m.target ≠ some a) :
  m.post b a ≤ b a
  := by
  rw [post, delta, if_neg h]
  split <;> omega

/-- Moving an amount within a ledger is a movement. -/
theorem post_of_transfer (b : Ledger α) (source target : α) (amount : ℤ) :
  (⟨some source, some target, amount⟩ : Movement α).post b = b.move source target amount
  := by
  funext a
  simp only [post, delta, Ledger.move, Function.update_apply, Option.some.injEq]
  split_ifs <;> grind

/-- A movement between two accounts issues nothing. -/
theorem issued_of_transfer {source target : α} (amount : ℤ) :
  (⟨some source, some target, amount⟩ : Movement α).issued = 0
  := by simp [issued, delta]

theorem issued_of_mint {target : α} (amount : ℤ) :
  (⟨none, some target, amount⟩ : Movement α).issued = amount
  := by simp [issued, delta]

theorem issued_of_burn {source : α} (amount : ℤ) :
  (⟨some source, none, amount⟩ : Movement α).issued = - amount
  := by simp [issued, delta]

/-- A movement out of an account issues nothing. -/
theorem issued_nonpos (hm : 0 ≤ m.amount) (h : m.source = some a) :
  m.issued ≤ 0
  := by
  rw [issued, delta, h, if_neg (Option.some_ne_none a), sub_zero, neg_nonpos]
  split
  · apply hm
  · apply le_refl

end Movement

/-! ### Floors -/

/-- A balance is kept above a floor: it does not sink below the floor, and it does not sink
further when it is below. -/
def KeepsFloor (floor before after : ℤ) : Prop := floor ≤ before ∨ after < before → floor ≤ after

theorem KeepsFloor.refl (floor balance : ℤ) :
  KeepsFloor floor balance balance
  := by
  rintro (h | h)
  · apply h
  · exact absurd h (lt_irrefl balance)

/-- What is kept by two changes is kept by both together. -/
theorem KeepsFloor.trans {floor b b' b'' : ℤ} (h : KeepsFloor floor b b')
    (h' : KeepsFloor floor b' b'') :
  KeepsFloor floor b b''
  := by
  rintro (hfloor | hlt)
  · exact h' (.inl (h (.inl hfloor)))
  · rcases lt_or_ge b' b with hsank | hrose
    · exact h' (.inl (h (.inr hsank)))
    · exact h' (.inr (hlt.trans_le hrose))

/-- A movement keeps the floor of an account when it leaves the floor to its source. -/
theorem Movement.keepsFloor (m : Movement α) {a : α} {b : Ledger α} {floor : ℤ}
    (hm : 0 ≤ m.amount) (hfloor : m.source = some a → floor ≤ b a - m.amount) :
  KeepsFloor floor (b a) (m.post b a)
  := by
  intro h
  by_cases hsource : m.source = some a
  · exact (hfloor hsource).trans (m.sub_le_post hm)
  · have hle : b a ≤ m.post b a := m.le_post hm hsource
    rcases h with h | h
    · exact h.trans hle
    · exact absurd h hle.not_gt

/-! ### Replaying movements -/

/-- The balances after a list of movements, which starts from the empty ledger. -/
def replay (ms : List (Movement α)) : Ledger α :=
  ms.foldl (fun b m => m.post b) fun _ => 0

/-- The supply after a list of movements. -/
def supplyOf (ms : List (Movement α)) : ℤ := total Movement.issued ms

@[simp]
theorem replay_nil :
  replay ([] : List (Movement α)) = fun _ => 0
  := rfl

theorem replay_concat (ms : List (Movement α)) (m : Movement α) :
  replay (ms ++ [m]) = m.post (replay ms)
  := by rw [replay, List.foldl_append, List.foldl_cons, List.foldl_nil, replay]

theorem supplyOf_append (ms ms' : List (Movement α)) :
  supplyOf (ms ++ ms') = supplyOf ms + supplyOf ms'
  := by rw [supplyOf, supplyOf, supplyOf, total_append]

/-! ### The sum of the balances -/

/-- The sum of the balances of all accounts. -/
noncomputable def sumOfBalances (b : Ledger α) : ℤ := ∑ᶠ a, b a

/-- Only finitely many accounts have a balance. -/
def FiniteLedger (b : Ledger α) : Prop := (Function.support b).Finite

theorem finite_single (t : Option α) (amount : ℤ) :
  (Function.support fun a => if t = some a then amount else 0).Finite
  := by
  apply Set.Subsingleton.finite
  intro a ha c hc
  rw [Function.mem_support, ne_eq, ite_eq_right_iff, Classical.not_imp] at ha hc
  exact Option.some.inj (ha.1.symm.trans hc.1)

theorem finsum_single (t : Option α) (amount : ℤ) :
  ∑ᶠ a, (if t = some a then amount else 0) = amount - if t = none then amount else 0
  := by
  cases t with
  | none => simp
  | some t =>
    rw [finsum_eq_single _ t]
    · simp
    · intro a ha
      apply if_neg
      simpa using ha.symm

/-- A movement adds what it issues to the sum of the balances. -/
theorem sumOfBalances_post {b : Ledger α} (h : FiniteLedger b) (m : Movement α) :
  FiniteLedger (m.post b) ∧ sumOfBalances (m.post b) = sumOfBalances b + m.issued
  := by
  have htarget := finite_single m.target m.amount
  have hsource := finite_single m.source m.amount
  have hdelta : (Function.support fun a => m.delta (some a)).Finite := by
    apply (htarget.union hsource).subset
    apply Function.support_sub
  constructor
  · apply (h.union hdelta).subset
    apply Function.support_add
  · have hsum : ∑ᶠ a, m.delta (some a) = m.issued := by
      simp only [Movement.delta, Movement.issued]
      rw [finsum_sub_distrib htarget hsource, finsum_single, finsum_single]
      ring
    rw [sumOfBalances, ← hsum]
    apply finsum_add_distrib h hdelta

/-- What is replayed sums up to the supply. -/
theorem sumOfBalances_replay (ms : List (Movement α)) :
  FiniteLedger (replay ms) ∧ sumOfBalances (replay ms) = supplyOf ms
  := by
  induction ms using List.reverseRecOn with
  | nil => simp [FiniteLedger, sumOfBalances, supplyOf]
  | append_singleton ms m ih =>
    obtain ⟨hfinite, hsum⟩ := ih
    rw [replay_concat, supplyOf_append, ← hsum]
    obtain ⟨hfinite', hsum'⟩ := sumOfBalances_post hfinite m
    use hfinite'
    rw [hsum', supplyOf, total_cons, total_nil, add_zero]

end Ledgers
