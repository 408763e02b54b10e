import Mathlib.Data.Set.Card
import Tove.Base.ReadCommitted

/-!
# A bounded number of rows

How many rows with a property are committed. A transaction that changes rows adds none, when
each row with the property that it writes had the property before. One that adds rows has
exclusive leave to add them, and has counted what is committed before. So the rows stay within a
limit: what the others commit in the meantime adds nothing.
-/

namespace ReadCommitted

open Store

universe u v

variable {κ : Type u} {ρ : Type v}

/-- The rows that are committed and have a property. -/
def Store.having (db : Store κ ρ) (q : ρ → Prop) : Set κ :=
  {k | ∃ row, db.committed k = some row ∧ q row}

/-- A transaction adds at most the given rows to those with a property. -/
def Adds (q : ρ → Prop) (db : Store κ ρ) (n : ℕ) (added : Set κ) : Prop :=
  ∀ k row, db.writes n k = some row → q row → k ∈ db.having q ∪ added

/-- A transaction adds nothing, or it has leave to add what is within the limit. -/
def Within (q : ρ → Prop) (limit : ℕ∞) (leave : Prop) (db : Store κ ρ) (n : ℕ) : Prop :=
  ∃ added, Adds q db n added ∧ (added = ∅ ∨ leave ∧ (db.having q ∪ added).encard ≤ limit)

section Capacity

variable {p q : ρ → Prop} {db db' : Store κ ρ} {m n : ℕ} {k : κ} {row row' : ρ} {added : Set κ}
  {limit : ℕ∞} {leave leave' : Prop}

theorem having_commit (h : Adds q db n added) :
  (db.commit n).having q ⊆ db.having q ∪ added
  := by
  rintro k ⟨row, hview, hq⟩
  rcases of_view hview with hwrites | ⟨_, hcommitted⟩
  · exact h k row hwrites hq
  · left
    exact ⟨row, hcommitted, hq⟩

theorem within_of_clean (h : db.writes n = fun _ => none) :
  Within q limit leave db n
  := by
  refine ⟨∅, ?_, .inl rfl⟩
  intro k row hwrites
  rw [h] at hwrites
  cases hwrites

variable [DecidableEq κ]

/-- What is committed after a statement of a transaction was committed, or the transaction adds
it. -/
theorem Acts.having (h : Acts p n db db') (hadds : Adds q db n added) :
  db'.having q ⊆ db.having q ∪ added
  := by
  cases h with
  | commit => exact having_commit hadds
  | _ => exact Set.subset_union_left

/-- What a transaction adds stays so when another one acts. -/
theorem Adds.acts (hc : Consistent p db) (h : Acts p n db db') (hm : m ≠ n)
    (hadds : Adds q db m added) :
  Adds q db' m added
  := by
  intro k row hwrites hq
  rw [h.writes hm] at hwrites
  rcases hadds k row hwrites hq with ⟨row', hcommitted, hq'⟩ | hadded
  · left
    exact ⟨row', by rw [h.committed hc hm hwrites, hcommitted], hq'⟩
  · exact .inr hadded

/-- Nothing is added by another transaction to what one with leave has counted. -/
theorem Within.having (h : Acts p n db db') (hn : Within q limit leave db n) (hleave : ¬ leave) :
  db'.having q ⊆ db.having q
  := by
  obtain ⟨added, hadds, rfl | ⟨hheld, _⟩⟩ := hn
  · have hsubset := h.having hadds
    rwa [Set.union_empty] at hsubset
  · exact absurd hheld hleave

/-- A transaction stays within the limit when another one acts. -/
theorem Within.acts (hc : Consistent p db) (h : Acts p n db db') (hm : m ≠ n)
    (hn : Within q limit leave db n) (hexclusive : leave' → ¬ leave)
    (hwithin : Within q limit leave' db m) :
  Within q limit leave' db' m
  := by
  obtain ⟨added, hadds, hadded⟩ := hwithin
  refine ⟨added, hadds.acts hc h hm, hadded.imp_right ?_⟩
  rintro ⟨hleave, hcard⟩
  have hsubset := hn.having h (hexclusive hleave)
  exact ⟨hleave, (Set.encard_le_encard (Set.union_subset_union_left added hsubset)).trans hcard⟩

/-- What is committed stays within the limit. -/
theorem Within.encard_le (h : Acts p n db db') (hn : Within q limit leave db n)
    (hcard : (db.having q).encard ≤ limit) :
  (db'.having q).encard ≤ limit
  := by
  obtain ⟨added, hadds, rfl | ⟨_, hle⟩⟩ := hn
  · have hsubset := h.having hadds
    rw [Set.union_empty] at hsubset
    exact (Set.encard_le_encard hsubset).trans hcard
  · exact (Set.encard_le_encard (h.having hadds)).trans hle

/-- A row is changed that had the property before, or it does not have it after. -/
theorem Within.write (hwithin : Within q limit leave db n) (hview : db.view n k = some row)
    (hq : q row' → q row) :
  Within q limit leave (db.write n k row') n
  := by
  obtain ⟨added, hadds, hadded⟩ := hwithin
  refine ⟨added, ?_, hadded⟩
  intro k' row₁ hwrites hrow₁
  rcases of_write_writes hwrites with ⟨_, rfl, rfl⟩ | ⟨_, hwrites⟩
  · rcases of_view hview with hbefore | ⟨_, hcommitted⟩
    · exact hadds k' row hbefore (hq hrow₁)
    · exact .inl ⟨row, hcommitted, hq hrow₁⟩
  · exact hadds k' row₁ hwrites hrow₁

/-- A row is added by a transaction that has leave, when there is room for it. -/
theorem within_insert (hclean : db.writes n = fun _ => none) (hleave : leave)
    (hroom : (db.having q).encard < limit) :
  Within q limit leave (db.write n k row) n
  := by
  refine ⟨{k}, ?_, .inr ⟨hleave, ?_⟩⟩
  · intro k' row' hwrites _
    rcases of_write_writes hwrites with ⟨_, rfl, _⟩ | ⟨_, hwrites⟩
    · exact .inr rfl
    · rw [hclean] at hwrites
      cases hwrites
  · calc (db.having q ∪ {k}).encard
      _ ≤ (db.having q).encard + Set.encard {k} := Set.encard_union_le ..
      _ = (db.having q).encard + 1 := by rw [Set.encard_singleton]
      _ ≤ limit := Order.add_one_le_of_lt hroom

end Capacity

end ReadCommitted
