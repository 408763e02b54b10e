import Tove.Clearing.Belt

/-!
# The belt never blocks a healthy clearing

Whatever `computeClearing` returns for a valid book passes the checks of the belt, as soon as the
number of bids, the clearing price and the proceeds are within the limits.  There is no other way
to fail: the price is the least one of a winner because something of the tier is sold, the loser
check passes because a bid above the price is filled, and the belt splits the tier as the clearing
did.
-/

namespace Clearing

open Js Totals Rationing UniformPrice
open Soroban (MAX_I128 MAX_STROOPS)

/-! ### The checks of the winners -/

/-- The loop over winners with positive allocations and no negative refund stops only at the
limit. -/
theorem foldlM_checkWinner_eq_ok {P : ℤ} (hP : 0 < P) {winners : List ClearingWinner}
    {sums sums' : ℤ × ℤ} (hpos : ∀ w ∈ winners, 0 < w.allocatedCount)
    (hrefund : ∀ w ∈ winners, 0 ≤ w.refundStroops) (hnonneg : 0 ≤ sums.2)
    (hmax : sums.2 ≤ MAX_I128) :
  winners.foldlM (checkWinner P) sums = .ok sums'
    ↔ sums.2 + P * total ClearingWinner.allocatedCount winners ≤ MAX_I128
      ∧ (sums.1 + total ClearingWinner.allocatedCount winners,
          sums.2 + P * total ClearingWinner.allocatedCount winners) = sums'
  := by
  induction winners generalizing sums with
  | nil =>
    rw [List.foldlM_nil, Checks.pure_eq_ok]
    simp [hmax]
  | cons w winners ih =>
    rw [List.forall_mem_cons] at hpos hrefund
    have hpaid : 0 < P * w.allocatedCount := mul_pos hP hpos.1
    have hrest : 0 ≤ P * total ClearingWinner.allocatedCount winners :=
      mul_nonneg hP.le (total_nonneg fun v hv => (hpos.2 v hv).le)
    have hround : ∀ t, checkWinner P sums w = .ok t
        ↔ sums.2 + P * w.allocatedCount ≤ MAX_I128
          ∧ (sums.1 + w.allocatedCount, sums.2 + P * w.allocatedCount) = t := by
      intro t
      simp only [checkWinner, throwIf, Checks.check_bind_eq_ok, Checks.rejectIf_eq_ok,
        Checks.pure_eq_ok, gt_iff_lt, not_lt, not_le]
      constructor
      · rintro ⟨_, _, _, hle, ht⟩
        use hle, ht
      · rintro ⟨hle, ht⟩
        use hpos.1, by omega, hrefund.1, hle, ht
    rw [List.foldlM_cons, Checks.bind_eq_ok, total_cons, mul_add, ← add_assoc, ← add_assoc]
    constructor
    · rintro ⟨t, ht, h⟩
      obtain ⟨hle, rfl⟩ := (hround t).mp ht
      apply (ih hpos.2 hrefund.2 (by omega) hle).mp h
    · rintro ⟨hle, h⟩
      have hle' : sums.2 + P * w.allocatedCount ≤ MAX_I128 := by omega
      use (sums.1 + w.allocatedCount, sums.2 + P * w.allocatedCount), (hround _).mpr ⟨hle', rfl⟩
      apply (ih hpos.2 hrefund.2 (by omega) hle').mpr ⟨hle, h⟩

private theorem foldl_lowest (winners : List ClearingWinner) (p : ℤ) :
  winners.foldl (fun lowest w =>
      match lowest with
      | none => some w.priceStroops
      | some p => if w.priceStroops < p then some w.priceStroops else some p) (some p)
    = some ((winners.map ClearingWinner.priceStroops).foldl min p)
  := by
  induction winners generalizing p with
  | nil => rfl
  | cons w winners ih =>
    simp only [List.foldl_cons, List.map_cons]
    by_cases hlt : w.priceStroops < p
    · rw [if_pos hlt, ih, min_eq_right hlt.le]
    · rw [if_neg hlt, ih, min_eq_left (not_lt.mp hlt)]

theorem minWinnerPrice_eq (winners : List ClearingWinner) :
  minWinnerPrice winners = (winners.map ClearingWinner.priceStroops).min?
  := by
  cases winners with
  | nil => rfl
  | cons w winners => apply foldl_lowest

private theorem foldl_setAlloc_of_not_mem {winners : List ClearingWinner} {alloc : ℤ → Option ℤ}
    {chainBidId : ℤ} (h : chainBidId ∉ winners.map ClearingWinner.chainBidId) :
  winners.foldl setAlloc alloc chainBidId = alloc chainBidId
  := by
  induction winners generalizing alloc with
  | nil => rfl
  | cons w winners ih =>
    rw [List.map_cons, List.mem_cons, not_or] at h
    rw [List.foldl_cons, ih h.2, setAlloc, Function.update_of_ne h.1]

theorem winnerAlloc_of_not_mem {winners : List ClearingWinner} {chainBidId : ℤ}
    (h : chainBidId ∉ winners.map ClearingWinner.chainBidId) :
  winnerAlloc winners chainBidId = none
  := foldl_setAlloc_of_not_mem h

/-- Winners with distinct chain ids are all in the map. -/
theorem winnerAlloc_of_mem {winners : List ClearingWinner}
    (hnodup : (winners.map ClearingWinner.chainBidId).Nodup) {w : ClearingWinner}
    (hw : w ∈ winners) :
  winnerAlloc winners w.chainBidId = some w.allocatedCount
  := by
  obtain ⟨s, t, rfl⟩ := List.append_of_mem hw
  rw [List.map_append, List.nodup_append, List.map_cons, List.nodup_cons] at hnodup
  rw [winnerAlloc, List.foldl_append, List.foldl_cons, foldl_setAlloc_of_not_mem hnodup.2.1.1,
    setAlloc, Function.update_self]

/-! ### A cleared book passes -/

section ClearedAt

variable {bids : List ClearingBidInput} {publicFloat P : ℤ} {r : ClearingResult}
  (h : ClearedAt bids publicFloat P r)

include h

/-- A row of the snapshot is that of a bid, and has the allocation of that bid. -/
theorem ClearedAt.exists_bid {row : ClearingBidSnapshotRow} (hrow : row ∈ r.bidsSnapshot) :
  ∃ b ∈ bids, b.snapshotRow = row ∧ rowTerms.allocation r.bidsSnapshot publicFloat P row
    = terms.allocation bids publicFloat P b
  := by
  obtain ⟨b, hb, rfl⟩ := List.mem_map.mp (h.snapshot_perm.mem_iff.mp hrow)
  use b, hb, rfl
  rw [rowTerms.allocation_perm h.snapshot_perm, rowTerms.allocation_map, rowTerms_comap]

variable (hbook : ValidBook bids)

include hbook

/-- The map of the winners holds the allocation of each bid. -/
theorem ClearedAt.holdsShare {b : ClearingBidInput} (hb : b ∈ bids) :
  holdsShare (winnerAlloc r.winners) b.chainBidId (terms.allocation bids publicFloat P b)
  := by
  by_cases hpos : 0 < terms.allocation bids publicFloat P b
  · have hw := h.mem_winners.mpr ⟨b, hb, hpos, rfl⟩
    rw [Clearing.holdsShare, if_neg hpos.ne']
    apply winnerAlloc_of_mem (h.winners_nodup hbook) hw
  · have := (h.clears.allocation_mem_Icc hbook.count_pos hb).1
    rw [Clearing.holdsShare, if_pos (by omega), winnerAlloc_of_not_mem]
    rwa [h.mem_winners_iff hbook hb]

/-- Something of the tier at the clearing price is sold. -/
theorem ClearedAt.exists_marginal :
  ∃ b ∈ bids, b.priceStroops = P ∧ 0 < terms.allocation bids publicFloat P b
  := by
  by_contra hnone
  push Not at hnone
  have htier : ∀ b ∈ terms.tier bids P, terms.allocation bids publicFloat P b = 0 := by
    intro b hb
    obtain ⟨hmem, hprice⟩ := terms.mem_tier.mp hb
    have := hnone b hmem hprice
    have := (h.clears.allocation_mem_Icc hbook.count_pos hmem).1
    omega
  have hkey : ((terms.tier bids P).map terms.key).Nodup :=
    (nodup_key hbook.nodup).sublist (List.filter_sublist.map _)
  have hsold := total_proRata (q := terms.remaining bids publicFloat P) hkey h.clears.total_tier_pos
  have := h.clears.remaining_pos
  rw [total_congr fun b hb => (Terms.allocation_of_eq (terms.mem_tier.mp hb).2).symm.trans
    (htier b hb), total_zero] at hsold
  omega

theorem ClearedAt.minWinnerPrice_eq :
  minWinnerPrice r.winners = some P
  := by
  rw [Clearing.minWinnerPrice_eq, List.min?_eq_some_iff]
  constructor
  · obtain ⟨b, hb, rfl, hpos⟩ := h.exists_marginal hbook
    apply List.mem_map_of_mem (h.mem_winners.mpr ⟨b, hb, hpos, rfl⟩)
  · intro p hp
    obtain ⟨w, hw, rfl⟩ := List.mem_map.mp hp
    obtain ⟨b, hb, hpos, rfl⟩ := h.mem_winners.mp hw
    apply le_price_of_pos hpos

/-- The clearing price is positive. -/
theorem ClearedAt.price_pos :
  0 < P
  := by
  obtain ⟨b, hb, rfl, _⟩ := h.exists_marginal hbook
  apply hbook.price_pos b hb

/-- The result of clearing a valid book passes the belt exactly within the limits. -/
theorem ClearedAt.assertClearingInvariants_iff {band : ClearingBand} {bidCount maxBids : ℤ} :
  assertClearingInvariants r band publicFloat bidCount maxBids = .ok ()
    ↔ bidCount ≤ maxBids ∧ P ≤ MAX_STROOPS
      ∧ (band.lowPriceStroops ≤ P ∧ P ≤ band.highPriceStroops)
      ∧ P * publicFloat ≤ MAX_I128
  := by
  have hP := h.price_pos hbook
  have hsold : total ClearingWinner.allocatedCount r.winners = publicFloat := by
    rw [total_perm _ h.winners_perm, total_allocated_winnersOf hbook h.clears]
  have hsums : ∀ sums, r.winners.foldlM (checkWinner P) (0, 0) = .ok sums
      ↔ P * publicFloat ≤ MAX_I128 ∧ (publicFloat, P * publicFloat) = sums := by
    intro sums
    rw [foldlM_checkWinner_eq_ok hP, hsold, zero_add, zero_add]
    · intro w hw
      obtain ⟨b, hb, hpos, rfl⟩ := h.mem_winners.mp hw
      apply hpos
    · intro w hw
      obtain ⟨b, hb, hpos, rfl⟩ := h.mem_winners.mp hw
      apply h.refund_nonneg hbook hb hpos
    · apply le_refl
    · decide
  have hlosers : ∀ row ∈ r.bidsSnapshot,
      checkLoser P (r.winners.map ClearingWinner.chainBidId) row = .ok () := by
    intro row hrow
    obtain ⟨b, hb, rfl, _⟩ := h.exists_bid hrow
    rw [checkLoser, throwIf, Checks.rejectIf_eq_ok, not_and']
    intro hlt
    rw [not_not]
    apply (h.mem_winners_iff hbook hb).mpr
    rw [Terms.allocation_of_lt (t := terms) hlt]
    apply hbook.count_pos b hb
  have hfilled : ∀ row ∈ r.bidsSnapshot, P < row.priceStroops →
      winnerAlloc r.winners row.chainBidId = some row.count := by
    intro row hrow hlt
    obtain ⟨b, hb, rfl, _⟩ := h.exists_bid hrow
    have hcount : terms.count b ≠ 0 := (hbook.count_pos b hb).ne'
    have hshare := h.holdsShare hbook hb
    rw [Terms.allocation_of_lt (t := terms) hlt, Clearing.holdsShare, if_neg hcount] at hshare
    apply hshare
  have htier : checkTier (winnerAlloc r.winners) publicFloat
      ⟨rowTerms.demandAbove r.bidsSnapshot P,
        total rowTerms.count (rowTerms.tier r.bidsSnapshot P),
        rowTerms.tier r.bidsSnapshot P⟩ = .ok () := by
    have hids : (r.bidsSnapshot.map ClearingBidSnapshotRow.chainBidId).Perm
        (bids.map ClearingBidInput.chainBidId) := by
      have := h.snapshot_perm.map ClearingBidSnapshotRow.chainBidId
      rwa [List.map_map] at this
    rw [checkTier_eq_ok (hids.nodup_iff.mpr hbook.nodup)]
    · constructor
      · rw [rowTerms.clears_perm h.snapshot_perm, rowTerms.clears_map, rowTerms_comap]
        apply h.clears
      · intro row hrow
        obtain ⟨b, hb, rfl, halloc⟩ := h.exists_bid (rowTerms.mem_tier.mp hrow).1
        rw [halloc]
        apply h.holdsShare hbook hb
    · intro row hrow
      obtain ⟨b, hb, rfl, _⟩ := h.exists_bid hrow
      apply hbook.count_pos b hb
  simp only [assertClearingInvariants, h.fullySubscribed_eq, h.price_eq, throwIf,
    Checks.bind_eq_ok, Checks.rejectIf_eq_ok, hsums, exists_const,
    gt_iff_lt, not_lt, not_or, not_le, not_not, and_assoc, exists_and_left, exists_eq_left',
    h.fee_eq, h.net_eq, h.minWinnerPrice_eq hbook, List.forM_eq_forM, Checks.forM_eq_ok,
    foldlM_checkAbove, zero_add, List.nil_append, true_and]
  constructor
  · rintro ⟨hcount, _, hmax, hlow, hhigh, hproceeds, _⟩
    use hcount, hmax, hlow, hhigh
  · rintro ⟨hcount, hmax, hlow, hhigh, hproceeds⟩
    use hcount, hP, hmax, hlow, hhigh, hproceeds, hlosers
    exact ⟨hfilled, _, rfl, htier⟩

end ClearedAt

/-- The belt is complete: a valid book that reaches the public float is cleared, and the belt
accepts the result exactly when the number of bids, the price and the proceeds are within the
limits. -/
theorem assertClearingInvariants_complete {bids : List ClearingBidInput} (hbook : ValidBook bids)
    {publicFloat : ℤ} (hfloat : 0 < publicFloat)
    (hle : publicFloat ≤ total ClearingBidInput.count bids) :
  ∃ P r, computeClearing bids publicFloat = .ok r ∧ r.clearingPriceStroops = some P
    ∧ ∀ (band : ClearingBand) (maxBids : ℤ),
      assertClearingInvariants r band publicFloat bids.length maxBids = .ok ()
        ↔ bids.length ≤ maxBids ∧ P ≤ MAX_STROOPS
          ∧ (band.lowPriceStroops ≤ P ∧ P ≤ band.highPriceStroops)
          ∧ P * publicFloat ≤ MAX_I128
  := by
  obtain ⟨P, r, hr, hcleared⟩ := computeClearing_of_le hbook hfloat hle
  use P, r, hr, hcleared.price_eq
  intro band maxBids
  apply hcleared.assertClearingInvariants_iff hbook

/-- The tied book, cleared for five units. -/
theorem assertClearingInvariants_complete_tieBook :
  ∃ P r, computeClearing tieBook 5 = .ok r ∧ r.clearingPriceStroops = some P
    ∧ ∀ (band : ClearingBand) (maxBids : ℤ),
      assertClearingInvariants r band 5 tieBook.length maxBids = .ok ()
        ↔ tieBook.length ≤ maxBids ∧ P ≤ MAX_STROOPS
          ∧ (band.lowPriceStroops ≤ P ∧ P ≤ band.highPriceStroops)
          ∧ P * 5 ≤ MAX_I128
  := assertClearingInvariants_complete tieBook_valid (by decide) (by decide)

end Clearing
