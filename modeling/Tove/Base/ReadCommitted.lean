import Mathlib.Logic.Function.Basic
import Mathlib.Data.Nat.Notation

/-!
# Transactions at READ COMMITTED

A table with the versions of rows that transactions have written and not committed. A
transaction sees what is committed, and over it what it has written itself. It holds a row that
it has written: another transaction cannot write the row before it is over. A partial unique
index refuses a version that would be a second row with a property, and makes a transaction wait
for one that has written such a version.

At most one row that is committed has the property. A transaction that has written a row with
it, or no row that had it, sees one when one is committed; so it may be committed.
-/

namespace ReadCommitted

universe u v

variable {κ : Type u} {ρ : Type v}

/-- The rows that are committed, and the versions that each transaction has written. -/
structure Store (κ : Type u) (ρ : Type v) where
  committed : κ → Option ρ
  writes : ℕ → κ → Option ρ

namespace Store

/-- What a transaction sees of a row. -/
def view (db : Store κ ρ) (n : ℕ) (k : κ) : Option ρ := (db.writes n k).or (db.committed k)

/-- No other transaction holds the row. -/
def Free (db : Store κ ρ) (n : ℕ) (k : κ) : Prop := ∀ m, m ≠ n → db.writes m k = none

/-- The index lets a transaction write a row with the property. -/
structure Admits (db : Store κ ρ) (p : ρ → Prop) (n : ℕ) (k : κ) : Prop where
  seen : ∀ k' row, k' ≠ k → db.view n k' = some row → ¬ p row
  held : ∀ m k' row, m ≠ n → db.writes m k' = some row → ¬ p row

/-- A row is written, or deleted, by a statement of its own. -/
def put [DecidableEq κ] (db : Store κ ρ) (k : κ) (row : Option ρ) : Store κ ρ where
  committed := Function.update db.committed k row
  writes := db.writes

/-- A transaction writes a row. -/
def write [DecidableEq κ] (db : Store κ ρ) (n : ℕ) (k : κ) (row : ρ) : Store κ ρ where
  committed := db.committed
  writes := Function.update db.writes n (Function.update (db.writes n) k (some row))

def commit (db : Store κ ρ) (n : ℕ) : Store κ ρ where
  committed := db.view n
  writes := Function.update db.writes n fun _ => none

def abort (db : Store κ ρ) (n : ℕ) : Store κ ρ where
  committed := db.committed
  writes := Function.update db.writes n fun _ => none

section Lemmas

variable {db : Store κ ρ} {m n : ℕ} {k k' : κ} {row row' : ρ}

@[simp] theorem commit_committed :
  (db.commit n).committed = db.view n
  := rfl

@[simp] theorem commit_writes :
  (db.commit n).writes n = fun _ => none
  := Function.update_self ..

theorem commit_writes_of_ne (h : m ≠ n) :
  (db.commit n).writes m = db.writes m
  := Function.update_of_ne h ..

@[simp] theorem abort_writes :
  (db.abort n).writes n = fun _ => none
  := Function.update_self ..

theorem abort_writes_of_ne (h : m ≠ n) :
  (db.abort n).writes m = db.writes m
  := Function.update_of_ne h ..

theorem view_of_writes (h : db.writes n k = some row) :
  db.view n k = some row
  := by rw [view, h, Option.some_or]

theorem view_of_none (h : db.writes n k = none) :
  db.view n k = db.committed k
  := by rw [view, h, Option.none_or]

/-- A transaction that has written nothing sees what is committed. -/
theorem view_of_clean (h : db.writes n = fun _ => none) :
  db.view n = db.committed
  := by
  funext k
  exact view_of_none (congrFun h k)

/-- Nothing changes when a transaction is over that has written nothing. -/
theorem commit_of_clean (h : db.writes n = fun _ => none) :
  db.commit n = db
  := by
  rw [commit, view_of_clean h, ← h, Function.update_eq_self]

theorem abort_of_clean (h : db.writes n = fun _ => none) :
  db.abort n = db
  := by
  rw [abort, ← h, Function.update_eq_self]

/-- A transaction sees a row that is committed, or one that it has written over it. -/
theorem view_of_committed (h : db.committed k = some row) :
  ∃ row', db.view n k = some row'
  := by
  cases hwrites : db.writes n k with
  | some row' => exact ⟨row', view_of_writes hwrites⟩
  | none => exact ⟨row, by rw [view_of_none hwrites, h]⟩

/-- What is seen is written, or it is committed and not written. -/
theorem of_view (h : db.view n k = some row) :
  db.writes n k = some row ∨ db.writes n k = none ∧ db.committed k = some row
  := by
  cases hwrites : db.writes n k with
  | some row' =>
    left
    rw [← h, view_of_writes hwrites]
  | none => exact .inr ⟨rfl, by rw [← h, view_of_none hwrites]⟩

/-- After a commit a transaction has written what it had, unless it is the one that is committed. -/
theorem of_commit_writes (h : (db.commit n).writes m k = some row) :
  m ≠ n ∧ db.writes m k = some row
  := by
  by_cases hm : m = n
  · subst hm
    rw [commit_writes] at h
    cases h
  · rw [commit_writes_of_ne hm] at h
    exact ⟨hm, h⟩

theorem of_abort_writes (h : (db.abort n).writes m k = some row) :
  m ≠ n ∧ db.writes m k = some row
  := of_commit_writes h

variable [DecidableEq κ]

@[simp] theorem write_committed :
  (db.write n k row).committed = db.committed
  := rfl

@[simp] theorem write_writes :
  (db.write n k row).writes n = Function.update (db.writes n) k (some row)
  := Function.update_self ..

theorem write_writes_self :
  (db.write n k row).writes n k = some row
  := by rw [write_writes, Function.update_self]

theorem write_writes_of_ne (h : m ≠ n) :
  (db.write n k row).writes m = db.writes m
  := Function.update_of_ne h ..

/-- What is committed after a statement is what it has put, or was committed before. -/
theorem of_put_committed {row : Option ρ} (h : (db.put k row).committed k' = some row') :
  k' = k ∧ row = some row' ∨ k' ≠ k ∧ db.committed k' = some row'
  := by
  have h : Function.update db.committed k row k' = some row' := h
  rw [Function.update_apply] at h
  split at h
  · rename_i hk
    exact .inl ⟨hk, h⟩
  · rename_i hk
    exact .inr ⟨hk, h⟩

theorem put_committed {row : Option ρ} :
  (db.put k row).committed k = row
  := Function.update_self ..

theorem put_committed_of_ne {row : Option ρ} (h : k' ≠ k) :
  (db.put k row).committed k' = db.committed k'
  := Function.update_of_ne h ..

/-- The writes of the other rows are as they were. -/
theorem write_writes_of_ne_key (h : k' ≠ k) :
  (db.write n k row).writes m k' = db.writes m k'
  := by
  by_cases hm : m = n
  · subst hm
    rw [write_writes, Function.update_of_ne h]
  · rw [write_writes_of_ne hm]

/-- What is dropped is what a transaction has written. -/
theorem abort_write :
  (db.write n k row).abort n = db.abort n
  := by rw [abort, write, abort, Function.update_idem]

theorem view_write :
  (db.write n k row).view n = Function.update (db.view n) k (some row)
  := by
  funext k'
  by_cases hk : k' = k
  · subst hk
    rw [Function.update_self, view_of_writes write_writes_self]
  · rw [Function.update_of_ne hk, view, view, write_writes, Function.update_of_ne hk, write_committed]

theorem view_write_of_ne (h : m ≠ n) :
  (db.write n k row).view m = db.view m
  := by
  funext k'
  rw [view, view, write_writes_of_ne h, write_committed]

/-- What has been written is the row, or it was written before. -/
theorem of_write_writes (h : (db.write n k row).writes m k' = some row') :
  m = n ∧ k' = k ∧ row' = row ∨ (m = n → k' ≠ k) ∧ db.writes m k' = some row'
  := by
  by_cases hm : m = n
  · subst hm
    rw [write_writes] at h
    by_cases hk : k' = k
    · subst hk
      rw [Function.update_self] at h
      exact .inl ⟨rfl, rfl, (Option.some.inj h).symm⟩
    · rw [Function.update_of_ne hk] at h
      exact .inr ⟨fun _ => hk, h⟩
  · rw [write_writes_of_ne hm] at h
    exact .inr ⟨fun hmn => absurd hmn hm, h⟩

end Lemmas

end Store

open Store

/-! ### What a transaction does -/

/-- What a transaction may do in one statement, when the rows with a property are indexed. -/
inductive Acts [DecidableEq κ] (p : ρ → Prop) (n : ℕ) (db : Store κ ρ) : Store κ ρ → Prop where
  | nothing : Acts p n db db
  | write {k : κ} {row : ρ} : db.Free n k → (p row → db.Admits p n k) →
      Acts p n db (db.write n k row)
  | commit : Acts p n db (db.commit n)
  | abort : Acts p n db (db.abort n)

/-- Each row is held by one transaction at most, and the index is respected. -/
structure Consistent (p : ρ → Prop) (db : Store κ ρ) : Prop where
  exclusive : ∀ m n k row row', db.writes m k = some row → db.writes n k = some row' → m = n
  held : ∀ m n k k' row row', db.writes m k = some row → db.writes n k' = some row' →
    p row → p row' →
    m = n
  seen : ∀ n k k' row row', db.writes n k = some row → db.view n k' = some row' → p row → p row' →
    k = k'
  unique : ∀ k k' row row', db.committed k = some row → db.committed k' = some row' →
    p row → p row' →
    k = k'

section Acts

variable {p : ρ → Prop} {db db' : Store κ ρ} {m n : ℕ} {k : κ} {row : ρ}

/-- Before any transaction has written, what is committed decides. -/
theorem consistent_of_clean (hclean : ∀ n, db.writes n = fun _ => none)
    (hunique : ∀ k k' row row', db.committed k = some row → db.committed k' = some row' → p row →
      p row' → k = k') :
  Consistent p db
  := by
  refine ⟨?_, ?_, ?_, hunique⟩
  · intro m n k row row' hwrites
    rw [hclean] at hwrites
    cases hwrites
  · intro m n k k' row row' hwrites
    rw [hclean] at hwrites
    cases hwrites
  · intro n k k' row row' hwrites
    rw [hclean] at hwrites
    cases hwrites

theorem Consistent.commit (hc : Consistent p db) (n : ℕ) :
  Consistent p (db.commit n)
  := by
  constructor
  · intro m m' k row row' hwrites hwrites'
    exact hc.exclusive m m' k row row' (of_commit_writes hwrites).2 (of_commit_writes hwrites').2
  · intro m m' k k' row row' hwrites hwrites'
    exact hc.held m m' k k' row row' (of_commit_writes hwrites).2 (of_commit_writes hwrites').2
  · intro m k k' row row' hwrites hview hp hp'
    obtain ⟨hm, hwrites⟩ := of_commit_writes hwrites
    apply hc.seen m k k' row row' hwrites _ hp hp'
    rcases of_view hview with hwrites' | ⟨hnone, hcommitted⟩
    · exact view_of_writes (of_commit_writes hwrites').2
    · rw [commit_writes_of_ne hm] at hnone
      rw [view_of_none hnone]
      rcases of_view hcommitted with hwrites' | ⟨_, hcommitted⟩
      · exact absurd (hc.held m n k k' row row' hwrites hwrites' hp hp') hm
      · exact hcommitted
  · intro k k' row row' hview hview' hp hp'
    rcases of_view hview with hwrites | ⟨_, hcommitted⟩
    · exact hc.seen n k k' row row' hwrites hview' hp hp'
    · rcases of_view hview' with hwrites' | ⟨_, hcommitted'⟩
      · exact (hc.seen n k' k row' row hwrites' hview hp' hp).symm
      · exact hc.unique k k' row row' hcommitted hcommitted' hp hp'

theorem Consistent.abort (hc : Consistent p db) (n : ℕ) :
  Consistent p (db.abort n)
  := by
  constructor
  · intro m m' k row row' hwrites hwrites'
    exact hc.exclusive m m' k row row' (of_abort_writes hwrites).2 (of_abort_writes hwrites').2
  · intro m m' k k' row row' hwrites hwrites'
    exact hc.held m m' k k' row row' (of_abort_writes hwrites).2 (of_abort_writes hwrites').2
  · intro m k k' row row' hwrites hview hp hp'
    obtain ⟨hm, hwrites⟩ := of_abort_writes hwrites
    apply hc.seen m k k' row row' hwrites _ hp hp'
    rwa [view, abort_writes_of_ne hm] at hview
  · exact hc.unique

variable [DecidableEq κ]

/-- A row is replaced by one without the property. -/
theorem Consistent.replace (hc : Consistent p db) (hrow : ¬ p row) :
  Consistent p { db with committed := Function.update db.committed k (some row) }
  := by
  have hcommitted : ∀ k' row', Function.update db.committed k (some row) k' = some row' → p row' →
      db.committed k' = some row' := by
    intro k' row' h hp
    rw [Function.update_apply] at h
    split at h
    · obtain rfl := Option.some.inj h
      exact absurd hp hrow
    · exact h
  constructor
  · exact hc.exclusive
  · exact hc.held
  · intro n k₁ k₂ row₁ row₂ hwrites hview hp₁ hp₂
    apply hc.seen n k₁ k₂ row₁ row₂ hwrites _ hp₁ hp₂
    rcases of_view hview with hwrites' | ⟨hnone, hafter⟩
    · exact view_of_writes hwrites'
    · have hnone : db.writes n k₂ = none := hnone
      rw [view_of_none hnone]
      exact hcommitted k₂ row₂ hafter hp₂
  · intro k₁ k₂ row₁ row₂ h₁ h₂ hp₁ hp₂
    exact hc.unique k₁ k₂ row₁ row₂ (hcommitted k₁ row₁ h₁ hp₁) (hcommitted k₂ row₂ h₂ hp₂) hp₁ hp₂

theorem Consistent.write (hc : Consistent p db) (hfree : db.Free n k)
    (hadmits : p row → db.Admits p n k) :
  Consistent p (db.write n k row)
  := by
  constructor
  · intro m m' k' row₁ row₂ hwrites₁ hwrites₂
    rcases of_write_writes hwrites₁ with ⟨rfl, rfl, _⟩ | ⟨_, hbefore₁⟩
    · rcases of_write_writes hwrites₂ with ⟨rfl, _⟩ | ⟨_, hbefore₂⟩
      · rfl
      · by_contra hne
        rw [hfree m' (Ne.symm hne)] at hbefore₂
        cases hbefore₂
    · rcases of_write_writes hwrites₂ with ⟨rfl, rfl, _⟩ | ⟨_, hbefore₂⟩
      · by_contra hne
        rw [hfree m hne] at hbefore₁
        cases hbefore₁
      · exact hc.exclusive m m' k' row₁ row₂ hbefore₁ hbefore₂
  · intro m m' k₁ k₂ row₁ row₂ hwrites₁ hwrites₂ hp₁ hp₂
    rcases of_write_writes hwrites₁ with ⟨rfl, rfl, rfl⟩ | ⟨_, hbefore₁⟩
    · rcases of_write_writes hwrites₂ with ⟨rfl, _⟩ | ⟨_, hbefore₂⟩
      · rfl
      · by_contra hne
        exact (hadmits hp₁).held m' k₂ row₂ (Ne.symm hne) hbefore₂ hp₂
    · rcases of_write_writes hwrites₂ with ⟨rfl, rfl, rfl⟩ | ⟨_, hbefore₂⟩
      · by_contra hne
        exact (hadmits hp₂).held m k₁ row₁ hne hbefore₁ hp₁
      · exact hc.held m m' k₁ k₂ row₁ row₂ hbefore₁ hbefore₂ hp₁ hp₂
  · intro m k₁ k₂ row₁ row₂ hwrites hview hp₁ hp₂
    by_cases hm : m = n
    · subst hm
      rw [view_write, Function.update_apply] at hview
      rcases of_write_writes hwrites with ⟨_, rfl, rfl⟩ | ⟨hne, hwrites⟩
      · split at hview
        · rename_i hk
          exact hk.symm
        · rename_i hk
          exact absurd hp₂ ((hadmits hp₁).seen k₂ row₂ hk hview)
      · split at hview
        · obtain rfl := Option.some.inj hview
          exact absurd hp₁ ((hadmits hp₂).seen k₁ row₁ (hne rfl) (view_of_writes hwrites))
        · exact hc.seen m k₁ k₂ row₁ row₂ hwrites hview hp₁ hp₂
    · rw [write_writes_of_ne hm] at hwrites
      rw [view_write_of_ne hm] at hview
      exact hc.seen m k₁ k₂ row₁ row₂ hwrites hview hp₁ hp₂
  · exact hc.unique

/-- The rows stay held, and indexed. -/
theorem Acts.consistent (hc : Consistent p db) (h : Acts p n db db') :
  Consistent p db'
  := by
  cases h with
  | nothing => exact hc
  | write hfree hadmits => exact hc.write hfree hadmits
  | commit => exact hc.commit n
  | abort => exact hc.abort n

/-- The writes of another transaction are left alone. -/
theorem Acts.writes (h : Acts p n db db') (hm : m ≠ n) :
  db'.writes m = db.writes m
  := by
  cases h with
  | nothing => rfl
  | write => exact write_writes_of_ne hm
  | commit => exact commit_writes_of_ne hm
  | abort => exact abort_writes_of_ne hm

/-- A row that a transaction holds is not committed by another. -/
theorem Acts.committed (hc : Consistent p db) (h : Acts p n db db') (hm : m ≠ n)
    (hheld : db.writes m k = some row) :
  db'.committed k = db.committed k
  := by
  cases h with
  | commit =>
    rw [commit_committed]
    cases hwrites : db.writes n k with
    | none => exact view_of_none hwrites
    | some row' => exact absurd (hc.exclusive m n k row row' hheld hwrites) hm
  | _ => rfl

end Acts

/-! ### What may be committed -/

section Covered

variable {p : ρ → Prop} {db db' : Store κ ρ} {m n : ℕ} {k : κ} {row : ρ}

/-- A row with the property is committed. -/
def Designated (p : ρ → Prop) (db : Store κ ρ) : Prop := ∃ k row, db.committed k = some row ∧ p row

/-- A transaction has written a row with the property, or no row that is committed with it. -/
def Covered (p : ρ → Prop) (db : Store κ ρ) (n : ℕ) : Prop :=
  (∃ k row, db.writes n k = some row ∧ p row)
    ∨ ∀ k row row', db.writes n k = some row → db.committed k = some row' → ¬ p row'

theorem covered_of_clean (h : db.writes n = fun _ => none) :
  Covered p db n
  := by
  right
  intro k row row' hwrites
  rw [h] at hwrites
  cases hwrites

/-- A transaction that is covered can be committed. -/
theorem Covered.commit (hd : Designated p db) (h : Covered p db n) :
  Designated p (db.commit n)
  := by
  rcases h with ⟨k, row, hwrites, hp⟩ | hnone
  · exact ⟨k, row, view_of_writes hwrites, hp⟩
  · obtain ⟨k, row, hcommitted, hp⟩ := hd
    refine ⟨k, row, ?_, hp⟩
    cases hwrites : db.writes n k with
    | none => rw [commit_committed, view_of_none hwrites, hcommitted]
    | some row' => exact absurd hp (hnone k row' row hwrites hcommitted)

variable [DecidableEq κ]

/-- A transaction stays covered when another one acts. -/
theorem Covered.acts (hc : Consistent p db) (h : Acts p n db db') (hm : m ≠ n)
    (hcovered : Covered p db m) :
  Covered p db' m
  := by
  rcases hcovered with ⟨k, row, hwrites, hp⟩ | hnone
  · left
    exact ⟨k, row, by rw [h.writes hm, hwrites], hp⟩
  · right
    intro k row row' hwrites hcommitted
    rw [h.writes hm] at hwrites
    rw [h.committed hc hm hwrites] at hcommitted
    exact hnone k row row' hwrites hcommitted

/-- A first write covers a transaction, when it is of a row with the property or over one
without. -/
theorem covered_write (hclean : db.writes n = fun _ => none)
    (hrow : p row ∨ ∀ row', db.committed k = some row' → ¬ p row') :
  Covered p (db.write n k row) n
  := by
  rcases hrow with hp | hnone
  · left
    exact ⟨k, row, write_writes_self, hp⟩
  · right
    intro k' row₁ row₂ hwrites hcommitted
    rcases of_write_writes hwrites with ⟨_, rfl, _⟩ | ⟨_, hwrites⟩
    · exact hnone row₂ hcommitted
    · rw [hclean] at hwrites
      cases hwrites

end Covered

/-! ### What no statement changes -/

section Fixed

universe w

variable {α : Type w} {f : ρ → α} {db : Store κ ρ} {m n : ℕ} {k k' : κ} {row row' : ρ} {a : α}

/-- A version of a row is committed, or a transaction has written it. -/
def Store.Version (db : Store κ ρ) (k : κ) (row : ρ) : Prop :=
  db.committed k = some row ∨ ∃ n, db.writes n k = some row

theorem version_of_view (h : db.view n k = some row) :
  db.Version k row
  := by
  rcases of_view h with hwrites | ⟨_, hcommitted⟩
  · exact .inr ⟨n, hwrites⟩
  · exact .inl hcommitted

theorem version_of_commit (h : (db.commit n).Version k row) :
  db.Version k row
  := by
  rcases h with hview | ⟨m, hwrites⟩
  · exact version_of_view hview
  · exact .inr ⟨m, (of_commit_writes hwrites).2⟩

theorem version_of_abort (h : (db.abort n).Version k row) :
  db.Version k row
  := by
  rcases h with hcommitted | ⟨m, hwrites⟩
  · exact .inl hcommitted
  · exact .inr ⟨m, (of_abort_writes hwrites).2⟩

theorem version_of_write [DecidableEq κ] (h : (db.write n k row).Version k' row') :
  k' = k ∧ row' = row ∨ db.Version k' row'
  := by
  rcases h with hcommitted | ⟨m, hwrites⟩
  · exact .inr (.inl hcommitted)
  · rcases of_write_writes hwrites with ⟨_, hk, hrow⟩ | ⟨_, hbefore⟩
    · exact .inl ⟨hk, hrow⟩
    · exact .inr (.inr ⟨m, hbefore⟩)

/-- All versions of a row agree in what `f` is of them. -/
def Fixed (f : ρ → α) (db : Store κ ρ) : Prop :=
  ∀ k row row', db.Version k row → db.Version k row' → f row = f row'

theorem Fixed.commit (h : Fixed f db) (n : ℕ) :
  Fixed f (db.commit n)
  := fun k row row' hrow hrow' => h k row row' (version_of_commit hrow) (version_of_commit hrow')

theorem Fixed.abort (h : Fixed f db) (n : ℕ) :
  Fixed f (db.abort n)
  := fun k row row' hrow hrow' => h k row row' (version_of_abort hrow) (version_of_abort hrow')

theorem Fixed.write [DecidableEq κ] (h : Fixed f db)
    (hrow : ∀ row', db.Version k row' → f row' = f row) :
  Fixed f (db.write n k row)
  := by
  intro k' row₁ row₂ hversion₁ hversion₂
  rcases version_of_write hversion₁ with ⟨rfl, rfl⟩ | hbefore₁
  · rcases version_of_write hversion₂ with ⟨_, rfl⟩ | hbefore₂
    · rfl
    · exact (hrow row₂ hbefore₂).symm
  · rcases version_of_write hversion₂ with ⟨rfl, rfl⟩ | hbefore₂
    · exact hrow row₁ hbefore₁
    · exact h k' row₁ row₂ hbefore₁ hbefore₂

/-- A row is committed of which `f` is as given. -/
def Store.Has (db : Store κ ρ) (f : ρ → α) (k : κ) (a : α) : Prop :=
  ∃ row, db.committed k = some row ∧ f row = a

/-- What `f` is of a row that is committed stays so. -/
theorem Fixed.has_commit (h : Fixed f db) (hhas : db.Has f k a) :
  (db.commit n).Has f k a
  := by
  obtain ⟨row, hcommitted, rfl⟩ := hhas
  cases hwrites : db.writes n k with
  | none => exact ⟨row, by rw [commit_committed, view_of_none hwrites, hcommitted], rfl⟩
  | some row' =>
    have hview := view_of_writes hwrites
    exact ⟨row', hview, h k row' row (version_of_view hview) (.inl hcommitted)⟩

end Fixed

/-! ### Insertions -/

section Insertions

variable {p : ρ → Prop} {db db' : Store κ ρ} {m n : ℕ} {k : κ} {row : ρ} {written : Option (κ × ρ)}

/-- What a transaction has written is one row at most. -/
def Store.Wrote (db : Store κ ρ) (n : ℕ) (written : Option (κ × ρ)) : Prop :=
  ∀ k row, db.writes n k = some row ↔ written = some (k, row)

theorem wrote_of_clean (h : db.writes n = fun _ => none) :
  db.Wrote n none
  := by
  intro k row
  rw [h]
  exact iff_of_false nofun nofun

theorem Store.Wrote.of_writes (h : db.Wrote n written) (hwrites : db'.writes n = db.writes n) :
  db'.Wrote n written
  := by
  intro k row
  rw [hwrites]
  exact h k row

/-- Nobody has written the row, and it is not committed. -/
theorem free_of_fresh (h : ∀ row, ¬ db.Version k row) :
  db.Free n k
  := by
  intro m _
  rw [Option.eq_none_iff_forall_ne_some]
  intro row hwrites
  exact h row (.inr ⟨m, hwrites⟩)

variable [DecidableEq κ]

theorem Store.Wrote.write (h : db.Wrote n none) :
  (db.write n k row).Wrote n (some (k, row))
  := by
  intro k' row'
  rw [Option.some_inj, Prod.mk.injEq]
  constructor
  · intro hwrites
    rcases of_write_writes hwrites with ⟨_, rfl, rfl⟩ | ⟨_, hbefore⟩
    · exact ⟨rfl, rfl⟩
    · cases (h k' row').mp hbefore
  · rintro ⟨rfl, rfl⟩
    exact write_writes_self

/-- What a transaction may do in one statement to a table into which rows are only inserted, when
the rows with a property are indexed. -/
inductive Inserts (p : ρ → Prop) (n : ℕ) (db : Store κ ρ) : Store κ ρ → Prop where
  | nothing : Inserts p n db db
  | insert {k : κ} {row : ρ} : (∀ row', ¬ db.Version k row') → (p row → db.Admits p n k) →
      Inserts p n db (db.write n k row)
  | commit : Inserts p n db (db.commit n)
  | abort : Inserts p n db (db.abort n)

/-- The index is respected, and what has been written and not committed is new. -/
structure Inserted (p : ρ → Prop) (db : Store κ ρ) : Prop extends Consistent p db where
  fresh : ∀ n k row, db.writes n k = some row → db.committed k = none

theorem Inserts.acts (h : Inserts p n db db') :
  Acts p n db db'
  := by
  cases h with
  | nothing => exact .nothing
  | insert hfresh hadmits => exact .write (free_of_fresh hfresh) hadmits
  | commit => exact .commit
  | abort => exact .abort

theorem Inserted.step (hi : Inserted p db) (h : Inserts p n db db') :
  Inserted p db'
  := by
  refine ⟨h.acts.consistent hi.toConsistent, ?_⟩
  intro m k row hwrites
  cases h with
  | nothing => exact hi.fresh m k row hwrites
  | insert hfresh =>
    rcases of_write_writes hwrites with ⟨_, rfl, _⟩ | ⟨_, hbefore⟩
    · rw [write_committed, Option.eq_none_iff_forall_ne_some]
      exact fun row' hcommitted => hfresh row' (.inl hcommitted)
    · exact hi.fresh m k row hbefore
  | commit =>
    obtain ⟨hm, hbefore⟩ := of_commit_writes hwrites
    rw [commit_committed, view_of_none, hi.fresh m k row hbefore]
    rw [Option.eq_none_iff_forall_ne_some]
    exact fun row' hwrites' => hm (hi.exclusive m n k row row' hbefore hwrites')
  | abort => exact hi.fresh m k row (of_abort_writes hwrites).2

/-- A row that is committed stays. -/
theorem Inserted.keeps (hi : Inserted p db) (h : Inserts p n db db')
    (hcommitted : db.committed k = some row) :
  db'.committed k = some row
  := by
  cases h with
  | commit =>
    rw [commit_committed, view_of_none, hcommitted]
    rw [Option.eq_none_iff_forall_ne_some]
    intro row' hwrites
    rw [hi.fresh n k row' hwrites] at hcommitted
    cases hcommitted
  | _ => exact hcommitted

end Insertions

/-! ### Updates -/

section Updates

variable {p : ρ → Prop} {f : ρ → ρ} {db db' : Store κ ρ} {m n : ℕ} {k : κ} {row : ρ} {hit : Bool}
  {R R' : κ → Option ρ → ρ → Prop}

/-- What an UPDATE does to a row, when it sets those with the property `p` to what `f` makes of
them. It waits for a row that another transaction holds, and looks at it again. The flag says
whether the row has been written. -/
inductive UpdatesRow [DecidableEq κ] (p : ρ → Prop) (f : ρ → ρ) (n : ℕ) (k : κ) (db : Store κ ρ) :
    Bool → Store κ ρ → Prop where
  | hit {row : ρ} : db.Free n k → db.view n k = some row → p row →
      UpdatesRow p f n k db true (db.write n k (f row))
  | miss : (∀ row, db.view n k = some row → ¬ p row) → UpdatesRow p f n k db false db

/-- The rows that an UPDATE of many rows finds when it begins, in the order in which it comes to
them. Those that are committed later it does not see. -/
def Store.Finds (db : Store κ ρ) (p : κ → ρ → Prop) (n : ℕ) (ks : List κ) : Prop :=
  ∀ k, k ∈ ks ↔ ∃ row, db.view n k = some row ∧ p k row

/-- Every row that a transaction has written is related to the row that is committed. -/
def Store.Changes (db : Store κ ρ) (n : ℕ) (R : κ → Option ρ → ρ → Prop) : Prop :=
  ∀ k row, db.writes n k = some row → R k (db.committed k) row

/-- A transaction has written what it had, and what it holds is committed as it was. -/
structure Store.Keeps (db db' : Store κ ρ) (n : ℕ) : Prop where
  writes : db'.writes n = db.writes n
  committed : ∀ k row, db.writes n k = some row → db'.committed k = db.committed k

theorem Store.Keeps.refl (db : Store κ ρ) (n : ℕ) :
  db.Keeps db n
  := ⟨rfl, fun _ _ _ => rfl⟩

/-- A statement of its own changes rows that nobody holds. -/
theorem Store.keeps_of_writes (hwrites : db'.writes = db.writes)
    (hcommitted : ∀ k, db.writes n k ≠ none → db'.committed k = db.committed k) :
  db.Keeps db' n
  := by
  constructor
  · rw [hwrites]
  · intro k row hk
    apply hcommitted
    rw [hk]
    nofun

theorem Store.changes_of_clean (h : db.writes n = fun _ => none) (R : κ → Option ρ → ρ → Prop) :
  db.Changes n R
  := by
  intro k row hwrites
  rw [h] at hwrites
  cases hwrites

/-- A transaction that may not have written anything has not. -/
theorem Store.Changes.clean (h : db.Changes n fun _ _ _ => False) :
  db.writes n = fun _ => none
  := by
  funext k
  rw [Option.eq_none_iff_forall_ne_some]
  exact fun row hwrites => h k row hwrites

theorem Store.Changes.mono (h : db.Changes n R) (hR : ∀ k c row, R k c row → R' k c row) :
  db.Changes n R'
  := fun k row hwrites => hR _ _ _ (h k row hwrites)

theorem Store.Changes.keeps (h : db.Changes n R) (hkeeps : db.Keeps db' n) :
  db'.Changes n R
  := by
  intro k row hwrites
  rw [hkeeps.writes] at hwrites
  rw [hkeeps.committed k row hwrites]
  apply h k row hwrites

/-- Locks are all that matters when no property is indexed. -/
theorem Consistent.of_writes (hc : Consistent (fun _ => False) db) (hwrites : db'.writes = db.writes) :
  Consistent (fun _ => False) db'
  := by
  refine ⟨?_, fun _ _ _ _ _ _ _ _ hp => hp.elim, fun _ _ _ _ _ _ _ hp => hp.elim,
    fun _ _ _ _ _ _ hp => hp.elim⟩
  rw [hwrites]
  exact hc.exclusive

/-- What a transaction sees and has not written is committed, when what it writes does not match
any more. -/
theorem Store.Changes.committed_of_view (h : db.Changes n R)
    (hunmatched : ∀ k c row, R k c row → ¬ p row) (hview : db.view n k = some row) (hp : p row) :
  db.writes n k = none ∧ db.committed k = some row
  := by
  rcases of_view hview with hwrites | hcommitted
  · exact absurd hp (hunmatched k _ row (h k row hwrites))
  · exact hcommitted

variable [DecidableEq κ]

/-- What another transaction does in one statement keeps what a transaction holds. -/
theorem Acts.keeps (hc : Consistent p db) (h : Acts p m db db') (hn : n ≠ m) :
  db.Keeps db' n
  := ⟨h.writes hn, fun _ _ hwrites => h.committed hc hn hwrites⟩

theorem UpdatesRow.acts (h : UpdatesRow p f n k db hit db') :
  Acts (fun _ => False) n db db'
  := by
  cases h with
  | hit hfree _ _ => exact .write hfree False.elim
  | miss _ => exact .nothing

theorem UpdatesRow.committed (h : UpdatesRow p f n k db hit db') :
  db'.committed = db.committed
  := by
  cases h with
  | hit _ _ _ => rfl
  | miss _ => rfl

/-- An UPDATE is run when nobody else holds the row. -/
theorem exists_updatesRow (hfree : db.Free n k) (p : ρ → Prop) (f : ρ → ρ) :
  ∃ hit db', UpdatesRow p f n k db hit db'
  := by
  by_cases hfound : ∃ row, db.view n k = some row ∧ p row
  · obtain ⟨row, hview, hp⟩ := hfound
    exact ⟨true, _, .hit hfree hview hp⟩
  · exact ⟨false, db, .miss fun row hview hp => hfound ⟨row, hview, hp⟩⟩

theorem UpdatesRow.abort (h : UpdatesRow p f n k db hit db') :
  db'.abort n = db.abort n
  := by
  cases h with
  | hit _ _ _ => exact abort_write
  | miss _ => rfl

/-- An UPDATE that has written its row holds it. -/
theorem UpdatesRow.isSome (h : UpdatesRow p f n k db true db') :
  (db'.writes n k).isSome
  := by
  cases h with
  | hit _ _ _ => rw [write_writes_self, Option.isSome_some]

/-- The rows that a transaction held it holds. -/
theorem UpdatesRow.isSome_of_isSome (h : UpdatesRow p f n k db hit db') {k' : κ}
    (hheld : (db.writes n k').isSome) :
  (db'.writes n k').isSome
  := by
  cases h with
  | miss _ => exact hheld
  | hit _ _ _ =>
    by_cases hk : k' = k
    · rw [hk, write_writes_self, Option.isSome_some]
    · rwa [write_writes_of_ne_key hk]

/-- An UPDATE relates what it writes to what is committed. -/
theorem UpdatesRow.changes (h : UpdatesRow p f n k db hit db') (hchanges : db.Changes n R)
    (hunmatched : ∀ k c row, R k c row → ¬ p row) (hmono : ∀ k c row, R k c row → R' k c row)
    (hset : ∀ row, p row → R' k (some row) (f row)) :
  db'.Changes n R'
  := by
  cases h with
  | miss _ => exact hchanges.mono hmono
  | hit _ hview hp =>
    intro k' row' hwrites
    rw [write_committed]
    rcases of_write_writes hwrites with ⟨_, rfl, rfl⟩ | ⟨_, hbefore⟩
    · rw [(hchanges.committed_of_view hunmatched hview hp).2]
      apply hset _ hp
    · exact hmono _ _ _ (hchanges k' row' hbefore)

/-- An UPDATE writes the row when it sees one that matches. -/
theorem UpdatesRow.hit_of_view (h : UpdatesRow p f n k db hit db') (hview : db.view n k = some row)
    (hp : p row) :
  hit = true
  := by
  cases h with
  | hit _ _ _ => rfl
  | miss hmiss => exact absurd hp (hmiss row hview)

end Updates

end ReadCommitted
