import Mathlib.Algebra.Order.Floor.Div
import Mathlib.Data.List.Nodup
import Mathlib.Data.List.Sort
import Mathlib.Order.Interval.Set.Basic

/-!
# Keyset pagination

Rows with distinct keys are read in pages, from the greatest key to the least. A page begins
below the key of the last row of the page before it, and a row more than the page holds is read
to tell whether there is a next page. Between the pages rows may be added: what was there at the
start is read just once nevertheless, and no row is read twice.
-/

namespace Keyset

universe u v

variable {α : Type u} {κ : Type v} [LinearOrder κ] (key : α → κ)

/-- The rows from the greatest key to the least. -/
def descending (rows : List α) : List α := rows.insertionSort fun a b => key b ≤ key a

/-- The rows below a cursor. -/
def after : Option κ → List α → List α
  | none, rows => rows
  | some k, rows => rows.filter fun a => key a < k

/-- A page, and whether there are rows after it. -/
def page (limit : ℕ) (cursor : Option κ) (rows : List α) : List α × Bool :=
  let found := (descending key (after key cursor rows)).take (limit + 1)
  (found.take limit, limit < found.length)

/-- The pages that are read one after the other, each from the rows at its time, and whether the
last one has nothing after it. -/
def walk (limit : ℕ) : Option κ → List (List α) → List (List α) × Bool
  | _, [] => ([], false)
  | cursor, rows :: later =>
    match page key limit cursor rows with
    | (rows', more) =>
      match more, rows'.getLast? with
      | true, some last =>
        let (pages, ended) := walk limit (some (key last)) later
        (rows' :: pages, ended)
      | _, _ => ([rows'], true)

variable {key} {limit : ℕ} {cursor : Option κ} {rows : List α} {a : α}

/-! ### Order -/

section Order

theorem mem_after :
  a ∈ after key cursor rows ↔ a ∈ rows ∧ ∀ k ∈ cursor, key a < k
  := by
  cases cursor with
  | none => simp [after]
  | some k => simp [after, eq_comm]

theorem mem_descending :
  a ∈ descending key rows ↔ a ∈ rows
  := (List.perm_insertionSort _ rows).mem_iff

theorem length_descending (key : α → κ) (rows : List α) :
  (descending key rows).length = rows.length
  := (List.perm_insertionSort _ rows).length_eq

theorem nodup_after (h : (rows.map key).Nodup) (cursor : Option κ) :
  ((after key cursor rows).map key).Nodup
  := by
  cases cursor with
  | none => exact h
  | some k => exact h.sublist (List.filter_sublist.map key)

/-- Rows with distinct keys are put in strictly descending order. -/
theorem pairwise_descending (h : (rows.map key).Nodup) :
  (descending key rows).Pairwise fun a b => key b < key a
  := by
  have hle : (descending key rows).Pairwise fun a b => key b ≤ key a := by
    have hdual := List.pairwise_insertionSort
      (fun a b => OrderDual.toDual (key a) ≤ OrderDual.toDual (key b)) rows
    exact hdual
  have hne : (descending key rows).Pairwise fun a b => key a ≠ key b := by
    have hperm := (List.perm_insertionSort (fun a b => key b ≤ key a) rows).map key
    exact List.pairwise_map.mp (hperm.nodup_iff.mpr h)
  exact (hle.and hne).imp fun h => lt_of_le_of_ne h.1 h.2.symm

/-- Strictly descending rows are determined by what they are. -/
theorem eq_of_descending {ℓ ℓ' : List α} (h : ℓ.Pairwise fun a b => key b < key a)
    (h' : ℓ'.Pairwise fun a b => key b < key a) (hmem : ∀ a, a ∈ ℓ ↔ a ∈ ℓ') :
  ℓ = ℓ'
  := by
  have hnodup : ∀ {ℓ : List α}, (ℓ.Pairwise fun a b => key b < key a) → ℓ.Nodup :=
    fun h => h.imp fun hlt heq => absurd (heq ▸ hlt) (lt_irrefl _)
  have hperm := (List.perm_ext_iff_of_nodup (hnodup h) (hnodup h')).mpr hmem
  refine hperm.eq_of_pairwise ?_ h h'
  intro a b _ _ hab hba
  exact absurd hab hba.asymm

end Order

/-! ### One page -/

section Page

theorem page_fst :
  (page key limit cursor rows).1 = (descending key (after key cursor rows)).take limit
  := by
  rw [page, List.take_take, min_eq_left (Nat.le_succ limit)]

theorem page_snd (key : α → κ) :
  (page key limit cursor rows).2 = true ↔ limit < (after key cursor rows).length
  := by
  simp only [page, List.length_take, length_descending, decide_eq_true_eq]
  omega

theorem pairwise_page (limit : ℕ) (cursor : Option κ) (h : (rows.map key).Nodup) :
  (page key limit cursor rows).1.Pairwise fun a b => key b < key a
  := by
  rw [page_fst]
  exact (pairwise_descending (nodup_after h cursor)).sublist (List.take_sublist _ _)

theorem of_mem_page (ha : a ∈ (page key limit cursor rows).1) :
  a ∈ rows ∧ ∀ k ∈ cursor, key a < k
  := by
  rw [page_fst] at ha
  exact mem_after.mp (mem_descending.mp (List.mem_of_mem_take ha))

/-- The last page has all the rows that are left. -/
theorem mem_page_of_last (hmore : (page key limit cursor rows).2 = false) (ha : a ∈ rows)
    (hcursor : ∀ k ∈ cursor, key a < k) :
  a ∈ (page key limit cursor rows).1
  := by
  have hle : (after key cursor rows).length ≤ limit := by
    rw [← not_lt, ← page_snd key, hmore]
    exact Bool.false_ne_true
  rw [page_fst, List.take_of_length_le (by rwa [length_descending])]
  exact mem_descending.mpr (mem_after.mpr ⟨ha, hcursor⟩)

/-- The last row of a page has the least key of it. -/
theorem le_of_mem_page {last : α} (h : (rows.map key).Nodup)
    (hlast : (page key limit cursor rows).1.getLast? = some last)
    (ha : a ∈ (page key limit cursor rows).1) :
  key last ≤ key a
  := by
  have hpairwise := pairwise_page limit cursor h
  obtain ⟨init, hinit⟩ := List.getLast?_eq_some_iff.mp hlast
  rw [hinit] at hpairwise ha
  rcases List.mem_append.mp ha with ha | ha
  · exact ((List.pairwise_append.mp hpairwise).2.2 a ha last List.mem_cons_self).le
  · rw [List.mem_singleton.mp ha]

/-- What is left after a page is what is below its last row. -/
theorem descending_after_page {last : α} (h : (rows.map key).Nodup)
    (hlast : (page key limit cursor rows).1.getLast? = some last) :
  descending key (after key (some (key last)) rows)
    = (descending key (after key cursor rows)).drop limit
  := by
  have hpairwise := pairwise_descending (nodup_after h cursor)
  have hmem := of_mem_page (List.mem_of_getLast? hlast)
  have hsplit := List.take_append_drop limit (descending key (after key cursor rows))
  rw [← page_fst] at hsplit
  apply eq_of_descending (pairwise_descending (nodup_after h _))
  · exact hpairwise.sublist (List.drop_sublist _ _)
  · intro a
    rw [mem_descending, mem_after]
    constructor
    · rintro ⟨ha, hlt⟩
      have hltlast : key a < key last := hlt _ rfl
      have hafter : a ∈ descending key (after key cursor rows) := by
        rw [mem_descending, mem_after]
        exact ⟨ha, fun k hk => hltlast.trans (hmem.2 k hk)⟩
      rw [← hsplit] at hafter
      apply (List.mem_append.mp hafter).resolve_left
      intro hpage
      exact absurd hltlast (not_lt.mpr (le_of_mem_page h hlast hpage))
    · intro ha
      have hafter := mem_descending.mp (List.mem_of_mem_drop ha)
      refine ⟨(mem_after.mp hafter).1, ?_⟩
      rw [← hsplit, List.pairwise_append] at hpairwise
      rintro k hk
      obtain rfl := Option.some.inj hk
      exact hpairwise.2.2 last (List.mem_of_getLast? hlast) a ha

/-- A page that is not the last one has a last row. -/
theorem exists_getLast (hlimit : 1 ≤ limit) (hmore : (page key limit cursor rows).2 = true) :
  ∃ last, (page key limit cursor rows).1.getLast? = some last
  := by
  have hlt := (page_snd key).mp hmore
  have hne : (page key limit cursor rows).1 ≠ [] := by
    apply List.ne_nil_of_length_pos
    rw [page_fst, List.length_take, length_descending]
    omega
  exact Option.isSome_iff_exists.mp (List.getLast?_isSome.mpr hne)

/-- When greater keys have a property, the last row of a page that is not the last one has it just
when there are as many rows with the property as the page holds. -/
theorem last_iff {last : α} {p : α → Bool} (h : (rows.map key).Nodup)
    (hp : ∀ a b, key a ≤ key b → p a → p b) (hmore : (page key limit cursor rows).2 = true)
    (hlast : (page key limit cursor rows).1.getLast? = some last) :
  p last = true ↔ limit ≤ (after key cursor rows).countP p
  := by
  have hlt := (page_snd key).mp hmore
  have hlength : (page key limit cursor rows).1.length = limit := by
    rw [page_fst, List.length_take, length_descending]
    omega
  have hcount : (after key cursor rows).countP p
      = (page key limit cursor rows).1.countP p
        + (descending key (after key (some (key last)) rows)).countP p := by
    rw [descending_after_page h hlast, page_fst, ← List.countP_append, List.take_append_drop]
    exact ((List.perm_insertionSort _ _).countP_eq p).symm
  constructor
  · intro hplast
    have hall : (page key limit cursor rows).1.countP p = limit := by
      rw [List.countP_eq_length.mpr, hlength]
      intro a ha
      exact hp last a (le_of_mem_page h hlast ha) hplast
    omega
  · intro hle
    by_contra hplast
    have hrest : (descending key (after key (some (key last)) rows)).countP p = 0 := by
      rw [List.countP_eq_zero]
      intro a ha hpa
      have hbelow := (mem_after.mp (mem_descending.mp ha)).2 _ rfl
      exact hplast (hp a last hbelow.le hpa)
    have hall : ∀ a ∈ (page key limit cursor rows).1, p a = true := by
      rw [← List.countP_eq_length]
      have hcountLe := List.countP_le_length (p := p) (l := (page key limit cursor rows).1)
      omega
    exact hplast (hall last (List.mem_of_getLast? hlast))

end Page

/-! ### All pages -/

section Walk

variable {tables : List (List α)}

theorem walk_cons (limit : ℕ) (cursor : Option κ) (rows : List α) (later : List (List α)) :
  walk key limit cursor (rows :: later)
    = match (page key limit cursor rows).2, (page key limit cursor rows).1.getLast? with
      | true, some last =>
        ((page key limit cursor rows).1 :: (walk key limit (some (key last)) later).1,
          (walk key limit (some (key last)) later).2)
      | _, _ => ([(page key limit cursor rows).1], true)
  := rfl

/-- A page that is not the last one is followed by the pages below its last row. -/
theorem walk_of_more {last : α} (hmore : (page key limit cursor rows).2 = true)
    (hlast : (page key limit cursor rows).1.getLast? = some last) (later : List (List α)) :
  walk key limit cursor (rows :: later)
    = ((page key limit cursor rows).1 :: (walk key limit (some (key last)) later).1,
      (walk key limit (some (key last)) later).2)
  := by
  rw [walk_cons]
  simp only [hmore, hlast]

/-- The last page is followed by none. -/
theorem walk_of_end (hend : ∀ last, (page key limit cursor rows).2 = true →
    (page key limit cursor rows).1.getLast? ≠ some last) (later : List (List α)) :
  walk key limit cursor (rows :: later) = ([(page key limit cursor rows).1], true)
  := by
  rw [walk_cons]
  split
  · rename_i last hmore hlast
    exact absurd hlast (hend last hmore)
  · rfl

/-- The pages go on below the cursor. -/
theorem of_mem_walk (ha : a ∈ (walk key limit cursor tables).1.flatten) :
  (∃ rows ∈ tables, a ∈ rows) ∧ ∀ k ∈ cursor, key a < k
  := by
  induction tables generalizing cursor with
  | nil => cases ha
  | cons rows later ih =>
    rw [walk_cons] at ha
    split at ha
    · rename_i last _ hlast
      rcases List.mem_append.mp ha with ha | ha
      · obtain ⟨hrows, hcursor⟩ := of_mem_page ha
        exact ⟨⟨rows, List.mem_cons_self, hrows⟩, hcursor⟩
      · obtain ⟨⟨rows', hrows', hmem⟩, hlt⟩ := ih ha
        have hlast := (of_mem_page (List.mem_of_getLast? hlast)).2
        refine ⟨⟨rows', List.mem_cons_of_mem rows hrows', hmem⟩, fun k hk => ?_⟩
        exact (hlt _ rfl).trans (hlast k hk)
    · rw [List.flatten_singleton] at ha
      obtain ⟨hrows, hcursor⟩ := of_mem_page ha
      exact ⟨⟨rows, List.mem_cons_self, hrows⟩, hcursor⟩

/-- What is read is strictly descending across the pages. -/
theorem pairwise_walk (h : ∀ rows ∈ tables, (rows.map key).Nodup) (cursor : Option κ) :
  (walk key limit cursor tables).1.flatten.Pairwise fun a b => key b < key a
  := by
  induction tables generalizing cursor with
  | nil => exact List.Pairwise.nil
  | cons rows later ih =>
    obtain ⟨hrows, hlater⟩ := List.forall_mem_cons.mp h
    rw [walk_cons]
    split
    · rename_i last _ hlast
      rw [List.flatten_cons, List.pairwise_append]
      refine ⟨pairwise_page limit _ hrows, ih hlater _, ?_⟩
      intro a ha b hb
      exact ((of_mem_walk hb).2 _ rfl).trans_le (le_of_mem_page hrows hlast ha)
    · rw [List.flatten_singleton]
      exact pairwise_page limit _ hrows

/-- When the pages have come to an end, what was there all the time has been read. -/
theorem mem_walk (hlimit : 1 ≤ limit) (h : ∀ rows ∈ tables, (rows.map key).Nodup)
    (hended : (walk key limit cursor tables).2 = true) (ha : ∀ rows ∈ tables, a ∈ rows)
    (hcursor : ∀ k ∈ cursor, key a < k) :
  a ∈ (walk key limit cursor tables).1.flatten
  := by
  induction tables generalizing cursor with
  | nil => cases hended
  | cons rows later ih =>
    obtain ⟨hrows, hlater⟩ := List.forall_mem_cons.mp h
    obtain ⟨hmem, hmemlater⟩ := List.forall_mem_cons.mp ha
    rw [walk_cons] at hended ⊢
    split at hended
    · rename_i last hmore hlast
      rw [List.flatten_cons, List.mem_append]
      rcases lt_or_ge (key a) (key last) with hlt | hge
      · right
        apply ih hlater hended hmemlater
        rintro k hk
        obtain rfl := Option.some.inj hk
        exact hlt
      · left
        rw [page_fst]
        have hafter : a ∈ descending key (after key cursor rows) :=
          mem_descending.mpr (mem_after.mpr ⟨hmem, hcursor⟩)
        rw [← List.take_append_drop limit (descending key (after key cursor rows)),
          ← descending_after_page hrows hlast] at hafter
        apply (List.mem_append.mp hafter).resolve_right
        intro hdrop
        exact absurd ((mem_after.mp (mem_descending.mp hdrop)).2 _ rfl) (not_lt.mpr hge)
    · rename_i hlast
      rw [List.flatten_singleton]
      apply mem_page_of_last _ hmem hcursor
      rw [← Bool.not_eq_true]
      intro hmore
      obtain ⟨last, hsome⟩ := exists_getLast hlimit hmore
      exact hlast last hmore hsome

/-- How many pages there are for a number of rows: there is a page also when there are none. -/
def pageCount (limit n : ℕ) : ℕ := max 1 (n ⌈/⌉ limit)

theorem pageCount_of_le {n : ℕ} (hlimit : 1 ≤ limit) (h : n ≤ limit) :
  pageCount limit n = 1
  := by
  rw [pageCount, max_eq_left_iff, Nat.ceilDiv_eq_add_pred_div]
  apply Nat.lt_succ_iff.mp
  rw [Nat.div_lt_iff_lt_mul hlimit]
  omega

theorem pageCount_of_lt {n : ℕ} (hlimit : 1 ≤ limit) (h : limit < n) :
  pageCount limit n = pageCount limit (n - limit) + 1
  := by
  have hsplit : n + limit - 1 = n - limit + limit - 1 + limit := by omega
  have hpos : 1 ≤ (n - limit) ⌈/⌉ limit := by
    rw [Nat.ceilDiv_eq_add_pred_div]
    apply Nat.div_pos _ hlimit
    omega
  have hceil : n ⌈/⌉ limit = (n - limit) ⌈/⌉ limit + 1 := by
    rw [Nat.ceilDiv_eq_add_pred_div, Nat.ceilDiv_eq_add_pred_div, hsplit]
    exact Nat.add_div_right _ hlimit
  rw [pageCount, pageCount, hceil, max_eq_right hpos]
  exact max_eq_right (Nat.le_add_left 1 _)

/-- When nothing is added, the pages come to an end. -/
theorem walk_replicate (hlimit : 1 ≤ limit) (h : (rows.map key).Nodup) {k : ℕ}
    (hk : pageCount limit (after key cursor rows).length ≤ k) :
  (walk key limit cursor (List.replicate k rows)).2 = true
    ∧ (walk key limit cursor (List.replicate k rows)).1.length
      = pageCount limit (after key cursor rows).length
  := by
  induction k generalizing cursor with
  | zero =>
    have hpos := le_max_left 1 ((after key cursor rows).length ⌈/⌉ limit)
    rw [pageCount] at hk
    omega
  | succ k ih =>
    rw [List.replicate_succ, walk_cons]
    split
    · rename_i last hmore hlast
      have hcount := pageCount_of_lt hlimit ((page_snd key).mp hmore)
      have hleft : (after key (some (key last)) rows).length
          = (after key cursor rows).length - limit := by
        rw [← length_descending key, descending_after_page h hlast, List.length_drop,
          length_descending]
      rw [← hleft] at hcount
      have hkleft : pageCount limit (after key (some (key last)) rows).length ≤ k := by omega
      obtain ⟨hended, hlength⟩ := ih hkleft
      exact ⟨hended, by rw [List.length_cons, hlength, hcount]⟩
    · rename_i hlast
      have hle : (after key cursor rows).length ≤ limit := by
        rw [← not_lt, ← page_snd key]
        intro hmore
        obtain ⟨last, hsome⟩ := exists_getLast hlimit hmore
        exact hlast last hmore hsome
      exact ⟨rfl, (pageCount_of_le hlimit hle).symm⟩

end Walk

end Keyset
