import Tove.Clearing.Compute

/-!
# The clearing is a uniform-price auction

The walk of `computeClearing` stops at the price at which the demand crosses the public float, and
its three loops over the tiers compute the allocation of the uniform-price auction of
`UniformPrice`.  The terms of a bid are its price, its count and, as the key that orders
the bids of a tier, its time and chain id.
-/

namespace Clearing

open Js Totals Rationing UniformPrice

/-- The terms of the bids of a book. -/
def terms : Terms ClearingBidInput ℤ (JsString ×ₗ ℤ) where
  price := ClearingBidInput.priceStroops
  count := ClearingBidInput.count
  key b := toLex (b.createdAt, b.chainBidId)

/-- A book of bids with distinct chain ids, positive prices and counts, and an escrow of
price times count. -/
structure ValidBook (bids : List ClearingBidInput) : Prop where
  nodup : (bids.map ClearingBidInput.chainBidId).Nodup
  price_pos : ∀ b ∈ bids, 0 < b.priceStroops
  count_pos : ∀ b ∈ bids, 0 < b.count
  escrow_eq : ∀ b ∈ bids, b.escrowAmountStroops = b.priceStroops * b.count

theorem ValidBook.perm {bids bids' : List ClearingBidInput} (h : ValidBook bids)
    (hperm : bids'.Perm bids) :
  ValidBook bids'
  where
  nodup := (hperm.map _).nodup_iff.mpr h.nodup
  price_pos b hb := h.price_pos b (hperm.mem_iff.mp hb)
  count_pos b hb := h.count_pos b (hperm.mem_iff.mp hb)
  escrow_eq b hb := h.escrow_eq b (hperm.mem_iff.mp hb)

/-- The checks pass on a valid book. -/
theorem ValidBook.forM_checkBid {bids : List ClearingBidInput} (h : ValidBook bids) :
  bids.forM checkBid = .ok ()
  := by
  rw [List.forM_eq_forM, Checks.forM_eq_ok]
  intro b hb
  have := h.price_pos b hb
  have := h.count_pos b hb
  simp only [checkBid, Checks.check_bind_eq_ok, Checks.rejectIf_eq_ok]
  omega

/-- The bids of a valid book have distinct keys. -/
theorem nodup_key {bids : List ClearingBidInput}
    (h : (bids.map ClearingBidInput.chainBidId).Nodup) :
  (bids.map terms.key).Nodup
  := by
  apply List.Nodup.of_map (fun k => (ofLex k).2)
  rw [List.map_map]
  apply h

/-! ### Sorting the book -/

/-- The key of the sorted book: price descending, then time and chain id ascending. -/
def bookKey (b : ClearingBidInput) : ℤ ×ₗ JsString ×ₗ ℤ :=
  toLex (-b.priceStroops, terms.key b)

theorem compareBids_le_zero (a b : ClearingBidInput) :
  compareBids a b ≤ 0 ↔ bookKey a ≤ bookKey b
  := by
  simp only [bookKey, terms, Prod.Lex.toLex_le_toLex, compareBids]
  rcases lt_trichotomy a.priceStroops b.priceStroops with hp | hp | hp
  · have : ¬ b.priceStroops < a.priceStroops := by omega
    simp [hp.ne, this]
  · rcases lt_trichotomy a.createdAt b.createdAt with ht | ht | ht
    · simp [hp, ht, ht.ne]
    · rcases lt_trichotomy a.chainBidId b.chainBidId with hc | hc | hc
      · simp [hp, ht, hc, hc.le]
      · simp [hp, ht, hc]
      · simp [hp, ht, hc, hc.not_gt, hc.not_ge]
    · simp [hp, ht.ne', ht.not_gt]
  · simp [hp, hp.ne']

/-- The sorted book is sorted by its key. -/
theorem sort_compareBids_pairwise (bids : List ClearingBidInput) :
  (Js.sort compareBids bids).Pairwise (bookKey · ≤ bookKey ·)
  := Js.sort_pairwise compareBids_le_zero bids

/-- The sorted book depends only on which bids there are. -/
theorem sort_compareBids_eq_of_perm {bids bids' : List ClearingBidInput}
    (hnodup : (bids.map ClearingBidInput.chainBidId).Nodup) (h : bids'.Perm bids) :
  Js.sort compareBids bids' = Js.sort compareBids bids
  := by
  have hperm : (Js.sort compareBids bids').Perm bids := (Js.sort_perm _ _).trans h
  apply List.Perm.eq_of_pairwise _ (sort_compareBids_pairwise bids')
    (sort_compareBids_pairwise bids)
  · apply hperm.trans (Js.sort_perm _ _).symm
  · intro a b ha hb hab hba
    have hid : a.chainBidId = b.chainBidId :=
      congrArg (fun k => (ofLex (ofLex k).2).2) (le_antisymm hab hba)
    apply List.inj_on_of_nodup_map hnodup (hperm.mem_iff.mp ha) _ hid
    apply (Js.sort_perm _ _).mem_iff.mp hb

section Sorted

variable {sorted : List ClearingBidInput}

theorem price_antitone (h : sorted.Pairwise (bookKey · ≤ bookKey ·)) :
  sorted.Pairwise (fun a b => b.priceStroops ≤ a.priceStroops)
  := by
  apply h.imp
  intro a b hab
  rcases Prod.Lex.toLex_le_toLex.mp hab with hlt | ⟨heq, _⟩
  · apply neg_le_neg_iff.mp hlt.le
  · apply neg_le_neg_iff.mp (le_of_eq heq)

/-- Within a tier the sorted book is strictly sorted by the key of the tier. -/
theorem tier_pairwise (h : sorted.Pairwise (bookKey · ≤ bookKey ·))
    (hnodup : (sorted.map ClearingBidInput.chainBidId).Nodup) (P : ℤ) :
  (terms.tier sorted P).Pairwise (terms.key · < terms.key ·)
  := by
  have hne : (terms.tier sorted P).Pairwise (terms.key · ≠ terms.key ·) := by
    rw [← List.pairwise_map]
    apply (nodup_key hnodup).sublist (List.filter_sublist.map _)
  apply List.Pairwise.imp_of_mem _ ((h.sublist List.filter_sublist).and hne)
  intro a b ha hb hab
  have hprice : a.priceStroops = b.priceStroops :=
    (terms.mem_tier.mp ha).2.trans (terms.mem_tier.mp hb).2.symm
  rcases Prod.Lex.toLex_le_toLex.mp hab.1 with hlt | ⟨_, hle⟩
  · rw [hprice] at hlt
    cases lt_irrefl _ hlt
  · apply lt_of_le_of_ne hle hab.2

end Sorted

/-! ### The walk -/

/-- The walk down a sorted book ends at the price where the demand crosses what is left of
the public float. -/
theorem walk_clears {publicFloat : ℤ} {sorted : List ClearingBidInput}
    (hsorted : sorted.Pairwise (fun a b => b.priceStroops ≤ a.priceStroops))
    (hcount : ∀ b ∈ sorted, 0 < b.count) (cumulative : ℤ) (hlt : cumulative < publicFloat)
    (hle : publicFloat ≤ cumulative + total ClearingBidInput.count sorted) (p : Option ℤ) :
  ∃ P, walk publicFloat cumulative p sorted = some P
    ∧ terms.Clears sorted (publicFloat - cumulative) P
  := by
  induction sorted generalizing cumulative p with
  | nil =>
    rw [total_nil] at hle
    omega
  | cons s sorted ih =>
    obtain ⟨hs, hsorted⟩ := List.pairwise_cons.mp hsorted
    have hcount' : ∀ b ∈ sorted, 0 < b.count := fun b hb => hcount b (List.mem_cons_of_mem s hb)
    have hdemand : ∀ P ≤ s.priceStroops,
        terms.demand (s :: sorted) P = s.count + terms.demand sorted P :=
      fun P hP => terms.demand_cons_of_le sorted hP
    rw [walk, if_neg (by omega)]
    by_cases hstop : publicFloat ≤ cumulative + s.count
    · use s.priceStroops
      constructor
      · cases sorted with
        | nil => rfl
        | cons s' sorted => rw [walk, if_pos hstop]
      · constructor
        · rw [terms.demandAbove_eq_zero (List.forall_mem_cons.mpr ⟨le_refl s.priceStroops, hs⟩)]
          omega
        · have := terms.demand_nonneg (fun b hb => (hcount' b hb).le) s.priceStroops
          rw [hdemand _ (le_refl _)]
          omega
    · rw [total_cons] at hle
      obtain ⟨P, hwalk, hclears⟩ :=
        ih hsorted hcount' (cumulative + s.count) (by omega) (by omega) (some s.priceStroops)
      obtain ⟨b, hb, hP⟩ := hclears.exists_mem
      use P, hwalk
      constructor
      · have hs_count : 0 ≤ terms.count s := (hcount s List.mem_cons_self).le
        have habove := terms.demandAbove_cons_le sorted hs_count P
        have := hclears.above_lt
        rw [show terms.count s = s.count from rfl] at habove
        omega
      · rw [hdemand _ (hP ▸ hs b hb)]
        have := hclears.le_demand
        omega

/-! ### The tiers -/

private theorem foldl_push (P : ℤ) (sorted : List ClearingBidInput) (tiers : Tiers) :
  sorted.foldl (Tiers.push P) tiers =
    { takes := tiers.takes ++ (sorted.filter (P < ·.priceStroops)).map fun b => ⟨b, b.count⟩
      atP := tiers.atP ++ terms.tier sorted P
      filledAbove := tiers.filledAbove + terms.demandAbove sorted P
      totalAtClearing := tiers.totalAtClearing + total terms.count (terms.tier sorted P) }
  := by
  induction sorted generalizing tiers with
  | nil => simp [Terms.tier, Terms.demandAbove]
  | cons s sorted ih =>
    rw [List.foldl_cons, ih]
    rcases lt_trichotomy P s.priceStroops with hlt | heq | hgt
    · simp [Tiers.push, Terms.tier, Terms.demandAbove, terms, hlt, hlt.ne', add_assoc]
    · simp [Tiers.push, Terms.tier, Terms.demandAbove, terms, heq, add_assoc]
    · simp [Tiers.push, Terms.tier, Terms.demandAbove, terms, hgt.not_gt, hgt.ne]

/-- The partition of the book takes the bids above `P` in full, and collects those at `P`. -/
theorem partitionAt_eq (P : ℤ) (sorted : List ClearingBidInput) :
  partitionAt P sorted =
    { takes := (sorted.filter (P < ·.priceStroops)).map fun b => ⟨b, b.count⟩
      atP := terms.tier sorted P
      filledAbove := terms.demandAbove sorted P
      totalAtClearing := total terms.count (terms.tier sorted P) }
  := by
  rw [partitionAt, foldl_push]
  simp

/-- Handing out the dust gives each bid of a sorted tier its bonus. -/
theorem handOutDust_eq (share : ClearingBidInput → ℤ) {atP : List ClearingBidInput}
    (h : atP.Pairwise (terms.key · < terms.key ·)) (dust : ℤ) :
  handOutDust dust (atP.map fun b => ⟨b, share b⟩)
    = atP.map fun b => ⟨b, share b + bonus terms.key dust atP b⟩
  := by
  induction atP generalizing dust with
  | nil => rfl
  | cons a atP ih =>
    by_cases hdust : dust ≤ 0
    · simp [handOutDust, hdust, bonus_of_nonpos terms.key hdust]
    · obtain ⟨ha, hatP⟩ := List.pairwise_cons.mp h
      have hhead : bonus terms.key dust (a :: atP) a = 1 := by
        rw [bonus, rank_head terms.key h, if_pos (by simpa using hdust)]
      rw [List.map_cons, handOutDust, if_neg hdust, ih hatP, List.map_cons, hhead]
      congr 1
      apply List.map_congr_left
      intro b hb
      rw [bonus_cons_of_lt terms.key dust atP (ha b hb)]

/-- The loops of pass 1c compute the pro-rata shares of a sorted tier. -/
theorem proRataTakes_eq {atP : List ClearingBidInput} {remainingFloat : ℤ}
    (h : atP.Pairwise (terms.key · < terms.key ·)) (hcount : ∀ b ∈ atP, 0 < b.count)
    (hrem : 0 ≤ remainingFloat) :
  proRataTakes remainingFloat (total terms.count atP) atP
    = atP.map fun b => ⟨b, proRata terms.count terms.key remainingFloat atP b⟩
  := by
  have hfloors : atP.map (fun a =>
        Take.mk a ((a.count * remainingFloat).tdiv (total terms.count atP)))
      = atP.map fun a => Take.mk a (floorShare terms.count remainingFloat atP a) := by
    apply List.map_congr_left
    intro a ha
    rw [Int.tdiv_eq_ediv_of_nonneg (mul_nonneg (hcount a ha).le hrem)]
    rfl
  simp only [proRataTakes, hfloors]
  rw [total_map, handOutDust_eq _ h]
  rfl

section Takes

variable {publicFloat P : ℤ} {sorted : List ClearingBidInput}

/-- The bids that the clearing takes are those with a non-zero allocation. -/
theorem takesAt_perm (hsorted : sorted.Pairwise (bookKey · ≤ bookKey ·))
    (hnodup : (sorted.map ClearingBidInput.chainBidId).Nodup)
    (hcount : ∀ b ∈ sorted, 0 < b.count) (h : terms.Clears sorted publicFloat P) :
  (takesAt publicFloat P sorted).Perm
    ((sorted.filter (0 < terms.allocation sorted publicFloat P ·)).map
      fun b => ⟨b, terms.allocation sorted publicFloat P b⟩)
  := by
  set alloc := terms.allocation sorted publicFloat P with halloc
  have habove : ∀ b ∈ sorted, P < b.priceStroops → alloc b = b.count :=
    fun b _ hb => Terms.allocation_of_lt (t := terms) hb
  have hat : proRataTakes (terms.remaining sorted publicFloat P)
        (total terms.count (terms.tier sorted P)) (terms.tier sorted P)
      = (terms.tier sorted P).map fun b => ⟨b, alloc b⟩ := by
    rw [proRataTakes_eq (tier_pairwise hsorted hnodup P) _ h.remaining_pos.le]
    · apply List.map_congr_left
      intro b hb
      rw [halloc, Terms.allocation_of_eq (terms.mem_tier.mp hb).2]
    · intro b hb
      apply hcount b (terms.mem_tier.mp hb).1
  have htakes : takesAt publicFloat P sorted =
      ((sorted.filter (P < ·.priceStroops)) ++ (terms.tier sorted P).filter (0 < alloc ·)).map
        fun b => ⟨b, alloc b⟩ := by
    rw [Terms.remaining] at hat
    simp only [takesAt, partitionAt_eq, hat]
    rw [List.filter_map, List.map_append]
    congr 1
    apply List.map_congr_left
    intro b hb
    obtain ⟨hb, hlt⟩ := List.mem_filter.mp hb
    rw [habove b hb (of_decide_eq_true hlt)]
  rw [htakes]
  apply List.Perm.map
  apply List.Perm.trans _ (List.filter_append_perm (P < ·.priceStroops) _)
  rw [List.filter_filter, List.filter_filter, Terms.tier, List.filter_filter]
  apply List.Perm.of_eq
  congr 1 <;> apply List.filter_congr <;> intro b hb
  · by_cases hlt : P < b.priceStroops
    · simp [hlt, habove b hb hlt, hcount b hb]
    · simp [hlt]
  · rcases lt_trichotomy P b.priceStroops with hlt | heq | hgt
    · simp [hlt, hlt.ne', terms]
    · simp [heq, terms]
    · have : alloc b = 0 := Terms.allocation_of_gt (t := terms) hgt
      simp [this]

/-- The winners of an allocation, each bid with a non-zero share. -/
def winnersOf (bids : List ClearingBidInput) (publicFloat P : ℤ) : List ClearingWinner :=
  ((bids.filter (0 < terms.allocation bids publicFloat P ·)).map
    fun b => ⟨b, terms.allocation bids publicFloat P b⟩).map (Take.winner P)

end Takes

/-! ### The result -/

/-- `r` clears the book at the price `P`: the demand crosses the public float at `P`, and the
winners are the bids with a non-zero allocation. -/
structure ClearedAt (bids : List ClearingBidInput) (publicFloat P : ℤ) (r : ClearingResult) :
    Prop where
  clears : terms.Clears bids publicFloat P
  price_eq : r.clearingPriceStroops = some P
  fullySubscribed_eq : r.fullySubscribed = true
  winners_perm : r.winners.Perm (winnersOf bids publicFloat P)
  proceeds_eq : r.proceedsStroops = P * publicFloat
  fee_eq : r.platformFeeStroops = platformFee (P * publicFloat)
  net_eq : r.artistNetStroops = P * publicFloat - platformFee (P * publicFloat)
  snapshot_perm : r.bidsSnapshot.Perm (bids.map ClearingBidInput.snapshotRow)

theorem winnersOf_perm {bids bids' : List ClearingBidInput} (h : bids'.Perm bids)
    (publicFloat P : ℤ) :
  (winnersOf bids' publicFloat P).Perm (winnersOf bids publicFloat P)
  := by
  rw [winnersOf, terms.allocation_perm h]
  apply ((h.filter _).map _).map

/-- The total of a function of the winners, over the book. -/
theorem total_winnersOf (f : ClearingWinner → ℤ) (bids : List ClearingBidInput)
    (publicFloat P : ℤ) :
  total f (winnersOf bids publicFloat P)
    = total (fun b => if 0 < terms.allocation bids publicFloat P b
        then f (Take.winner P ⟨b, terms.allocation bids publicFloat P b⟩) else 0) bids
  := by
  rw [winnersOf, total_map, total_map, total_filter]
  rfl

section Result

variable {bids : List ClearingBidInput} {publicFloat : ℤ}

/-- Whoever gets something has bid at least the clearing price. -/
theorem le_price_of_pos {P : ℤ} {b : ClearingBidInput}
    (hpos : 0 < terms.allocation bids publicFloat P b) :
  P ≤ b.priceStroops
  := by
  by_contra hlt
  have : terms.allocation bids publicFloat P b = 0 := Terms.allocation_of_gt (not_le.mp hlt)
  omega

/-- The winners are allocated the public float. -/
theorem total_allocated_winnersOf {P : ℤ} (hbook : ValidBook bids)
    (h : terms.Clears bids publicFloat P) :
  total ClearingWinner.allocatedCount (winnersOf bids publicFloat P) = publicFloat
  := by
  conv_rhs => rw [← h.total_allocation (nodup_key hbook.nodup)]
  rw [total_winnersOf]
  apply total_congr
  intro b hb
  have := (h.allocation_mem_Icc hbook.count_pos hb).1
  split
  · rfl
  · omega

/-- An undersubscribed book is reported as such. -/
theorem computeClearing_of_lt (hbook : ValidBook bids) (hfloat : 0 < publicFloat)
    (hlt : total ClearingBidInput.count bids < publicFloat) :
  computeClearing bids publicFloat = .ok (undersubscribed (Js.sort compareBids bids))
  := by
  rw [← total_perm _ (Js.sort_perm compareBids bids)] at hlt
  rw [computeClearing, throwIf, Checks.rejectIf, if_neg (by omega), hbook.forM_checkBid]
  simp only [bind, Except.bind, if_pos hlt]
  rfl

/-- A book that reaches the public float is cleared. -/
theorem computeClearing_of_le (hbook : ValidBook bids) (hfloat : 0 < publicFloat)
    (hle : publicFloat ≤ total ClearingBidInput.count bids) :
  ∃ P r, computeClearing bids publicFloat = .ok r ∧ ClearedAt bids publicFloat P r
  := by
  have hperm := Js.sort_perm compareBids bids
  have hsortedBook := hbook.perm hperm
  have hsorted := sort_compareBids_pairwise bids
  rw [← total_perm _ hperm] at hle
  obtain ⟨P, hwalk, hclears⟩ := walk_clears (price_antitone hsorted) hsortedBook.count_pos
    0 hfloat (by rwa [zero_add]) none
  rw [sub_zero] at hclears
  use P, subscribed publicFloat P (Js.sort compareBids bids)
  constructor
  · rw [computeClearing, throwIf, Checks.rejectIf, if_neg (by omega), hbook.forM_checkBid]
    simp only [bind, Except.bind, if_neg hle.not_gt, hwalk]
    rfl
  · set sorted := Js.sort compareBids bids
    have hwinners : ((takesAt publicFloat P sorted).map (Take.winner P)).Perm
        (winnersOf sorted publicFloat P) :=
      (takesAt_perm hsorted hsortedBook.nodup hsortedBook.count_pos hclears).map _
    have hallocated : total Take.allocated (takesAt publicFloat P sorted) = publicFloat := by
      have := total_perm ClearingWinner.allocatedCount hwinners
      rw [total_allocated_winnersOf hsortedBook hclears, total_map] at this
      apply this
    have hproceeds : total (P * Take.allocated ·) (takesAt publicFloat P sorted)
        = P * publicFloat := by rw [total_mul_left, hallocated]
    constructor
    · apply (terms.clears_perm hperm _ _).mp hclears
    · rfl
    · rfl
    · apply hwinners.trans (winnersOf_perm hperm _ _)
    · apply hproceeds
    · simp only [subscribed, hproceeds]
    · simp only [subscribed, hproceeds]
    · apply hperm.map

/-- A clearing that has a result is one for a positive float. -/
theorem publicFloat_pos_of_eq_ok {r : ClearingResult}
    (hr : computeClearing bids publicFloat = .ok r) :
  0 < publicFloat
  := by
  by_contra hle
  rw [computeClearing, throwIf, Checks.rejectIf, if_pos (by omega)] at hr
  cases hr

/-- A clearing that has a price is the one at that price. -/
theorem clearedAt_of_eq_ok (hbook : ValidBook bids) {P : ℤ} {r : ClearingResult}
    (hr : computeClearing bids publicFloat = .ok r) (hP : r.clearingPriceStroops = some P) :
  ClearedAt bids publicFloat P r
  := by
  have hfloat := publicFloat_pos_of_eq_ok hr
  rcases lt_or_ge (total ClearingBidInput.count bids) publicFloat with hlt | hle
  · obtain rfl := Except.ok.inj (hr.symm.trans (computeClearing_of_lt hbook hfloat hlt))
    cases hP
  · obtain ⟨P', r', hr', hcleared⟩ := computeClearing_of_le hbook hfloat hle
    obtain rfl := Except.ok.inj (hr.symm.trans hr')
    obtain rfl := Option.some.inj (hP.symm.trans hcleared.price_eq)
    exact hcleared

/-! ### Reading the result -/

/-- What a result allocates to a chain id, over all winners with that id. -/
def ClearingResult.allocated (r : ClearingResult) (chainBidId : ℤ) : ℤ :=
  total ClearingWinner.allocatedCount (r.winners.filter (·.chainBidId = chainBidId))

/-- The bids of the book that are not among the winners. -/
def ClearingResult.losers (r : ClearingResult) (bids : List ClearingBidInput) :
    List ClearingBidInput :=
  bids.filter fun b => b.chainBidId ∉ r.winners.map ClearingWinner.chainBidId

section ClearedAt

variable {P : ℤ} {r : ClearingResult} (h : ClearedAt bids publicFloat P r)

include h

theorem ClearedAt.total_winners (f : ClearingWinner → ℤ) :
  total f r.winners = total (fun b => if 0 < terms.allocation bids publicFloat P b
      then f (Take.winner P ⟨b, terms.allocation bids publicFloat P b⟩) else 0) bids
  := by
  rw [total_perm f h.winners_perm, total_winnersOf]

/-- A winner is a bid of the book with its allocation, which is not zero. -/
theorem ClearedAt.mem_winners {w : ClearingWinner} :
  w ∈ r.winners ↔ ∃ b ∈ bids, 0 < terms.allocation bids publicFloat P b
    ∧ Take.winner P ⟨b, terms.allocation bids publicFloat P b⟩ = w
  := by
  rw [h.winners_perm.mem_iff, winnersOf, List.map_map]
  simp [and_assoc]

variable (hbook : ValidBook bids)

include hbook

/-- The chain ids of the winners are distinct. -/
theorem ClearedAt.winners_nodup :
  (r.winners.map ClearingWinner.chainBidId).Nodup
  := by
  rw [(h.winners_perm.map _).nodup_iff, winnersOf, List.map_map, List.map_map]
  apply hbook.nodup.sublist (List.filter_sublist.map _)

/-- A bid is a winner when its allocation is not zero. -/
theorem ClearedAt.mem_winners_iff {b : ClearingBidInput} (hb : b ∈ bids) :
  b.chainBidId ∈ r.winners.map ClearingWinner.chainBidId
    ↔ 0 < terms.allocation bids publicFloat P b
  := by
  rw [List.mem_map]
  constructor
  · rintro ⟨w, hw, hid⟩
    obtain ⟨c, hc, hpos, rfl⟩ := (h.mem_winners).mp hw
    obtain rfl := List.inj_on_of_nodup_map hbook.nodup hc hb hid
    apply hpos
  · intro hpos
    use Take.winner P ⟨b, terms.allocation bids publicFloat P b⟩
    constructor
    · apply (h.mem_winners).mpr
      use b, hb, hpos
    · rfl

/-- The result allocates to each bid of the book its allocation. -/
theorem ClearedAt.allocated_eq {b : ClearingBidInput} (hb : b ∈ bids) :
  r.allocated b.chainBidId = terms.allocation bids publicFloat P b
  := by
  rw [ClearingResult.allocated, total_filter, h.total_winners,
    ← total_single (terms.allocation bids publicFloat P) _ hbook.nodup hb]
  apply total_congr
  intro c hc
  have := (h.clears.allocation_mem_Icc hbook.count_pos hc).1
  split
  · rfl
  · split <;> omega

/-- The winners pay no more than they have in escrow. -/
theorem ClearedAt.refund_nonneg {b : ClearingBidInput} (hb : b ∈ bids)
    (hpos : 0 < terms.allocation bids publicFloat P b) :
  0 ≤ b.escrowAmountStroops - P * terms.allocation bids publicFloat P b
  := by
  have hP := le_price_of_pos hpos
  have hle := (h.clears.allocation_mem_Icc hbook.count_pos hb).2
  have hcount := (hbook.count_pos b hb).le
  have := hbook.price_pos b hb
  rw [hbook.escrow_eq b hb, sub_nonneg]
  apply mul_le_mul hP hle hpos.le (by omega)

/-- What the winners get back, what the losers get back, and the proceeds are what is held in
escrow. -/
theorem ClearedAt.conserved :
  total ClearingWinner.refundStroops r.winners
      + total ClearingBidInput.escrowAmountStroops (r.losers bids)
      + r.platformFeeStroops + r.artistNetStroops
    = total ClearingBidInput.escrowAmountStroops bids
  := by
  have hlosers : total ClearingBidInput.escrowAmountStroops (r.losers bids)
      = total (fun b => if 0 < terms.allocation bids publicFloat P b
          then 0 else b.escrowAmountStroops) bids := by
    rw [ClearingResult.losers, total_filter]
    apply total_congr
    intro b hb
    simp only [h.mem_winners_iff hbook hb, ite_not]
  have hsold : total (fun b => P * terms.allocation bids publicFloat P b) bids
      = P * publicFloat := by
    rw [total_mul_left, h.clears.total_allocation (nodup_key hbook.nodup)]
  have hsplit : total ClearingWinner.refundStroops r.winners
      + total ClearingBidInput.escrowAmountStroops (r.losers bids) + P * publicFloat
      = total ClearingBidInput.escrowAmountStroops bids := by
    rw [h.total_winners, hlosers, ← hsold, ← total_add, ← total_add]
    apply total_congr
    intro b hb
    have := (h.clears.allocation_mem_Icc hbook.count_pos hb).1
    split
    · simp [Take.winner]
    · rw [show terms.allocation bids publicFloat P b = 0 by omega]
      ring
  rw [h.fee_eq, h.net_eq, ← hsplit]
  ring

end ClearedAt

end Result

/-! ### The main result -/

/-- The uniform-price clearing of a book at the price `P`, read off the result. -/
structure UniformPriceClearing (bids : List ClearingBidInput) (publicFloat P : ℤ)
    (r : ClearingResult) : Prop where
  price_eq : r.clearingPriceStroops = some P
  isGreatest : IsGreatest { p | (∃ b ∈ bids, b.priceStroops = p)
    ∧ publicFloat ≤ total ClearingBidInput.count (bids.filter (p ≤ ·.priceStroops)) } P
  above : ∀ b ∈ bids, P < b.priceStroops → r.allocated b.chainBidId = b.count
  below : ∀ b ∈ bids, b.priceStroops < P → r.allocated b.chainBidId = 0
  marginal : ∀ b ∈ bids, b.priceStroops = P →
    let atP := bids.filter (·.priceStroops = P)
    let marginTotal := total ClearingBidInput.count atP
    let rem := publicFloat - total ClearingBidInput.count (bids.filter (P < ·.priceStroops))
    let dust := rem - total (fun c => c.count * rem / marginTotal) atP
    let earlier := atP.countP fun c =>
      toLex (c.createdAt, c.chainBidId) < toLex (b.createdAt, b.chainBidId)
    r.allocated b.chainBidId
      = b.count * rem / marginTotal + if (earlier : ℤ) < dust then 1 else 0
  sold : total ClearingWinner.allocatedCount r.winners = publicFloat
  winner_nodup : (r.winners.map ClearingWinner.chainBidId).Nodup
  winner_mem : ∀ w ∈ r.winners, ∃ b ∈ bids, w = Take.winner P ⟨b, w.allocatedCount⟩
  allocated_pos : ∀ w ∈ r.winners, 0 < w.allocatedCount
  allocated_le : ∀ w ∈ r.winners, w.allocatedCount ≤ w.count
  refund_nonneg : ∀ w ∈ r.winners, 0 ≤ w.refundStroops
  conserved : total ClearingWinner.refundStroops r.winners
      + total ClearingBidInput.escrowAmountStroops (r.losers bids)
      + r.platformFeeStroops + r.artistNetStroops
    = total ClearingBidInput.escrowAmountStroops bids

/-- What the clearing of a book for a public float has to be. -/
structure ClearingSpec (bids : List ClearingBidInput) (publicFloat : ℤ) (r : ClearingResult) :
    Prop where
  undersubscribed_iff :
    r.fullySubscribed = false ↔ total ClearingBidInput.count bids < publicFloat
  of_undersubscribed : total ClearingBidInput.count bids < publicFloat →
    r.clearingPriceStroops = none ∧ r.winners = []
  of_subscribed : publicFloat ≤ total ClearingBidInput.count bids →
    ∃ P, UniformPriceClearing bids publicFloat P r

/-- A cleared book is a uniform-price clearing. -/
theorem ClearedAt.uniformPriceClearing {bids : List ClearingBidInput} {publicFloat P : ℤ}
    {r : ClearingResult} (hbook : ValidBook bids) (h : ClearedAt bids publicFloat P r) :
  UniformPriceClearing bids publicFloat P r
  where
  price_eq := h.price_eq
  isGreatest := h.clears.isClearingPrice fun b hb => (hbook.count_pos b hb).le
  above b hb hlt := by
    rw [h.allocated_eq hbook hb]
    apply Terms.allocation_of_lt hlt
  below b hb hlt := by
    rw [h.allocated_eq hbook hb]
    apply Terms.allocation_of_gt hlt
  marginal b hb heq := by
    rw [h.allocated_eq hbook hb, Terms.allocation_of_eq heq]
    rfl
  sold := by
    rw [total_perm _ h.winners_perm, total_allocated_winnersOf hbook h.clears]
  winner_nodup := h.winners_nodup hbook
  winner_mem w hw := by
    obtain ⟨b, hb, _, rfl⟩ := (h.mem_winners).mp hw
    use b, hb
    rfl
  allocated_pos w hw := by
    obtain ⟨b, hb, hpos, rfl⟩ := (h.mem_winners).mp hw
    apply hpos
  allocated_le w hw := by
    obtain ⟨b, hb, _, rfl⟩ := (h.mem_winners).mp hw
    apply (h.clears.allocation_mem_Icc hbook.count_pos hb).2
  refund_nonneg w hw := by
    obtain ⟨b, hb, hpos, rfl⟩ := (h.mem_winners).mp hw
    apply h.refund_nonneg hbook hb hpos
  conserved := h.conserved hbook

/-- The result of the clearing depends only on which bids there are. -/
theorem computeClearing_perm {bids bids' : List ClearingBidInput} (hbook : ValidBook bids)
    (h : bids'.Perm bids) (publicFloat : ℤ) :
  computeClearing bids' publicFloat = computeClearing bids publicFloat
  := by
  simp only [computeClearing, hbook.forM_checkBid, (hbook.perm h).forM_checkBid,
    sort_compareBids_eq_of_perm hbook.nodup h]

/-- The clearing of a valid book is its uniform-price clearing, and it is the same for every
order of the bids. -/
theorem computeClearing_spec {bids : List ClearingBidInput} (hbook : ValidBook bids)
    {publicFloat : ℤ} (hfloat : 0 < publicFloat) :
  ∃ r, computeClearing bids publicFloat = .ok r
    ∧ ClearingSpec bids publicFloat r
    ∧ ∀ bids', bids'.Perm bids → computeClearing bids' publicFloat = .ok r
  := by
  rcases lt_or_ge (total ClearingBidInput.count bids) publicFloat with hlt | hle
  · have hr := computeClearing_of_lt hbook hfloat hlt
    use undersubscribed (Js.sort compareBids bids), hr
    constructor
    · constructor
      · apply iff_of_true rfl hlt
      · intro _
        constructor <;> rfl
      · intro hle
        omega
    · intro bids' hperm
      rw [computeClearing_perm hbook hperm, hr]
  · obtain ⟨P, r, hr, hcleared⟩ := computeClearing_of_le hbook hfloat hle
    use r, hr
    constructor
    · constructor
      · apply iff_of_false _ hle.not_gt
        simp [hcleared.fullySubscribed_eq]
      · intro hlt
        omega
      · intro _
        exact ⟨P, hcleared.uniformPriceClearing hbook⟩
    · intro bids' hperm
      rw [computeClearing_perm hbook hperm, hr]

/-- A book with a tie at the clearing price, listed out of order. -/
def tieBook : List ClearingBidInput :=
  [⟨[1], 1, [1], 5, 3, [20], 15⟩, ⟨[2], 2, [2], 7, 2, [30], 14⟩, ⟨[3], 3, [1], 5, 3, [10], 15⟩]

theorem tieBook_valid :
  ValidBook tieBook
  where
  nodup := by decide
  price_pos := by decide
  count_pos := by decide
  escrow_eq := by decide

/-- Five units of the tied book: the bid above the price gets two, the earlier of the tied bids
gets the odd unit. -/
theorem computeClearing_spec_tieBook :
  ∃ r, computeClearing tieBook 5 = .ok r
    ∧ ClearingSpec tieBook 5 r
    ∧ ∀ bids', bids'.Perm tieBook → computeClearing bids' 5 = .ok r
  := computeClearing_spec tieBook_valid (by decide)

end Clearing
