import Mathlib.Data.List.Basic

/-!
# Rows that are updated one by one

A table whose keys are given out in order is a list of rows. A statement inserts a row at the
end, or it updates the row of a key if the row meets a condition.
-/

namespace Rows

universe u

variable {ρ : Type u}

/-- Update the row of a key if the row is there and meets the condition. -/
def compareAndSet (rows : List ρ) (id : ℕ) (p : ρ → Prop) [DecidablePred p] (f : ρ → ρ) :
    Option (List ρ) :=
  match rows[id]? with
  | none => none
  | some row => if p row then some (rows.set id (f row)) else none

theorem compareAndSet_eq_some {rows rows' : List ρ} {id : ℕ} {p : ρ → Prop} [DecidablePred p]
    {f : ρ → ρ} :
  compareAndSet rows id p f = some rows'
    ↔ ∃ row, rows[id]? = some row ∧ p row ∧ rows' = rows.set id (f row)
  := by
  rw [compareAndSet]
  cases rows[id]? with
  | none => simp
  | some row => simp [eq_comm]

/-- What a step does to a table: nothing, or it inserts one row, or it updates one. -/
inductive Change (insert : ρ → Prop) (update : ℕ → ρ → ρ → Prop) : List ρ → List ρ → Prop where
  | same {rows : List ρ} : Change insert update rows rows
  | insert {rows : List ρ} {row : ρ} : insert row → Change insert update rows (rows ++ [row])
  | update {rows : List ρ} {id : ℕ} {row row' : ρ} : rows[id]? = some row → update id row row' →
      Change insert update rows (rows.set id row')

section Change

variable {insert : ρ → Prop} {update : ℕ → ρ → ρ → Prop} {rows rows' : List ρ} {id : ℕ} {row row' : ρ}

/-- What may be inserted and how a row may be updated can be weakened. -/
theorem Change.mono {insert' : ρ → Prop} {update' : ℕ → ρ → ρ → Prop}
    (h : Change insert update rows rows') (hinsert : ∀ row, insert row → insert' row)
    (hupdate : ∀ id row row', update id row row' → update' id row row') :
  Change insert' update' rows rows'
  := by
  cases h with
  | same => apply Change.same
  | insert hrow => apply Change.insert (hinsert _ hrow)
  | update hid hrow => apply Change.update hid (hupdate _ _ _ hrow)

/-- A row that was there is there, as it was or updated. -/
theorem Change.of_before (h : Change insert update rows rows') (hid : rows[id]? = some row) :
  ∃ row', rows'[id]? = some row' ∧ (row' = row ∨ update id row row')
  := by
  cases h with
  | same => exact ⟨row, hid, .inl rfl⟩
  | insert _ =>
    obtain ⟨hlt, _⟩ := List.getElem?_eq_some_iff.mp hid
    exact ⟨row, (List.getElem?_append_left hlt).trans hid, .inl rfl⟩
  | @update id' row₁ row₁' hid' hrow =>
    by_cases hsame : id' = id
    · subst hsame
      obtain rfl := Option.some.inj (hid'.symm.trans hid)
      obtain ⟨hlt, _⟩ := List.getElem?_eq_some_iff.mp hid
      exact ⟨row₁', List.getElem?_set_self hlt, .inr hrow⟩
    · exact ⟨row, (List.getElem?_set_ne hsame).trans hid, .inl rfl⟩

/-- A row that is there was there, or it has been inserted. -/
theorem Change.of_after (h : Change insert update rows rows') (hid : rows'[id]? = some row') :
  (∃ row, rows[id]? = some row ∧ (row' = row ∨ update id row row'))
    ∨ rows[id]? = none ∧ id = rows.length ∧ insert row'
  := by
  cases h with
  | same => exact .inl ⟨row', hid, .inl rfl⟩
  | insert hrow =>
    rcases Nat.lt_trichotomy id rows.length with hlt | rfl | hgt
    · rw [List.getElem?_append_left hlt] at hid
      exact .inl ⟨row', hid, .inl rfl⟩
    · rw [List.getElem?_concat_length] at hid
      obtain rfl := Option.some.inj hid
      exact .inr ⟨List.getElem?_eq_none (Nat.le_refl _), rfl, hrow⟩
    · rw [List.getElem?_eq_none (by rwa [List.length_append])] at hid
      cases hid
  | @update id' row₁ row₁' hid' hrow =>
    by_cases hsame : id' = id
    · subst hsame
      obtain ⟨hlt, _⟩ := List.getElem?_eq_some_iff.mp hid'
      rw [List.getElem?_set_self hlt] at hid
      obtain rfl := Option.some.inj hid
      exact .inl ⟨row₁, hid', .inr hrow⟩
    · rw [List.getElem?_set_ne hsame] at hid
      exact .inl ⟨row', hid, .inl rfl⟩

/-- A compare-and-set updates a row that meets the condition. -/
theorem Change.of_compareAndSet {p : ρ → Prop} [DecidablePred p] {f : ρ → ρ}
    (h : compareAndSet rows id p f = some rows')
    (hupdate : ∀ row, rows[id]? = some row → p row → update id row (f row)) :
  Change insert update rows rows'
  := by
  obtain ⟨row, hid, hp, rfl⟩ := compareAndSet_eq_some.mp h
  apply Change.update hid (hupdate row hid hp)

/-- An update of a row, if it is there. -/
theorem Change.of_modify {f : ρ → ρ} (hupdate : ∀ row, rows[id]? = some row →
    update id row (f row)) :
  Change insert update rows (rows.modify id f)
  := by
  rw [List.modify_eq_set_getElem?]
  cases hid : rows[id]? with
  | none => apply Change.same
  | some row => apply Change.update hid (hupdate row hid)

end Change

end Rows
