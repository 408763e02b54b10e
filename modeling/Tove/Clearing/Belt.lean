import Tove.Clearing.Correct
import Tove.Soroban

/-!
# The safety belt of the clearing

`assertClearingInvariants` of `offerings/clearing.ts` checks a clearing result before any money
moves.  It looks only at the result: the winners and the snapshot of the book.  The checks are
made one after the other, each with an error of its own.

An accepted result is the uniform-price clearing of its snapshot.  No single check says so.  The
checks of the tiers find a winner for each bid with a non-zero allocation, the check of the sum
says that the winners together have the public float, which is what these bids have already;
hence there is no other winner, and none is listed twice.
-/

namespace Clearing

open Js Totals Rationing UniformPrice
open Soroban (MAX_I128 MAX_STROOPS)

/-- The price band of an offering. -/
structure ClearingBand where
  lowPriceStroops : ℤ
  highPriceStroops : ℤ
  deriving DecidableEq, Repr

/-! ### The checks -/

/-- One round of the loop over the winners, with the sums of allocations and payments so far. -/
def checkWinner (P : ℤ) (sums : ℤ × ℤ) (w : ClearingWinner) : Except RangeError (ℤ × ℤ) := do
  let allocated := w.allocatedCount
  throwIf (allocated ≤ 0) "winner has non-positive allocation"
  let paid := P * allocated
  throwIf (paid > MAX_I128) "winner paid amount overflows i128"
  throwIf (w.refundStroops < 0) "winner refund is negative (clearing price above bid price)"
  let sumAllocated := sums.1 + allocated
  let proceeds := sums.2 + paid
  throwIf (proceeds > MAX_I128) "proceeds overflow i128"
  return (sumAllocated, proceeds)

/-- The smallest price of a winner. -/
def minWinnerPrice (winners : List ClearingWinner) : Option ℤ :=
  winners.foldl (fun lowest w =>
    match lowest with
    | none => some w.priceStroops
    | some p => if w.priceStroops < p then some w.priceStroops else some p) none

/-- Enter a winner in the map from chain ids to allocations. -/
def setAlloc (m : ℤ → Option ℤ) (w : ClearingWinner) : ℤ → Option ℤ :=
  Function.update m w.chainBidId (some w.allocatedCount)

/-- The map from chain ids to allocations; of two winners with one id the later one counts. -/
def winnerAlloc (winners : List ClearingWinner) : ℤ → Option ℤ :=
  winners.foldl setAlloc fun _ => none

/-- How a price or an allocation that may be missing is printed. -/
def showOption (missing : String) : Option ℤ → String
  | none => missing
  | some x => toString x

/-- A bid that is not a winner is not priced above the clearing price. -/
def checkLoser (P : ℤ) (winnerBidIds : List ℤ) (b : ClearingBidSnapshotRow) :
    Except RangeError Unit :=
  throwIf (b.chainBidId ∉ winnerBidIds ∧ b.priceStroops > P)
    s!"losing bid {b.chainBidId} priced {b.priceStroops} above the clearing price {P}"

/-- What the loop over the snapshot collects: the demand above the clearing price, and the tier
at the price with its demand. -/
structure Margin where
  filledAbove : ℤ
  totalAtClearing : ℤ
  atClearing : List ClearingBidSnapshotRow
  deriving DecidableEq

/-- One round of the loop over the snapshot: a bid above the clearing price has to be filled. -/
def checkAbove (P : ℤ) (alloc : ℤ → Option ℤ) (m : Margin) (b : ClearingBidSnapshotRow) :
    Except RangeError Margin :=
  if b.priceStroops > P then do
    throwIf (alloc b.chainBidId ≠ some b.count)
      s!"above-clearing bid {b.chainBidId} is not fully filled"
    return { m with filledAbove := m.filledAbove + b.count }
  else if b.priceStroops = P then
    return { m with
      totalAtClearing := m.totalAtClearing + b.count
      atClearing := m.atClearing ++ [b] }
  else return m

/-- The comparator of a tier: time, then chain id. -/
def compareRows (a b : ClearingBidSnapshotRow) : ℤ :=
  if a.createdAt ≠ b.createdAt then if a.createdAt < b.createdAt then -1 else 1
  else if a.chainBidId < b.chainBidId then -1
  else if a.chainBidId > b.chainBidId then 1
  else 0

/-- The bid at index `i` of the sorted tier has its share; a bid with a share of zero is not a
winner. -/
def checkShare (alloc : ℤ → Option ℤ) (bases : List ℤ) (dust : ℤ)
    (entry : ClearingBidSnapshotRow × ℕ) : Except RangeError Unit :=
  let b := entry.1
  let i := entry.2
  let expected := bases.getD i 0 + if (i : ℤ) < dust then 1 else 0
  let actual := alloc b.chainBidId
  if expected = 0 then
    throwIf (actual ≠ none)
      s!"clearing bid {b.chainBidId} should be excluded (zero pro-rata allocation)"
  else
    let actualText := showOption "undefined" actual
    throwIf (actual ≠ some expected)
      s!"clearing bid {b.chainBidId} allocated {actualText} != pro-rata {expected}"

/-- The pro-rata belt: the allocation of the tier at the clearing price, derived anew from the
snapshot. -/
def checkTier (alloc : ℤ → Option ℤ) (publicFloat : ℤ) (m : Margin) : Except RangeError Unit := do
  throwIf (m.totalAtClearing ≤ 0) "no bid at the clearing price (corrupt snapshot)"
  let remainingFloat := publicFloat - m.filledAbove
  throwIf (remainingFloat ≤ 0 ∨ remainingFloat > m.totalAtClearing)
    s!"remaining float {remainingFloat} outside (0, {m.totalAtClearing}]"
  let atClearingSorted := Js.sort compareRows m.atClearing
  let bases := atClearingSorted.map fun b => (b.count * remainingFloat).tdiv m.totalAtClearing
  let dust := remainingFloat - bases.sum
  let last := (atClearingSorted.length : ℤ) - 1
  throwIf (dust < 0 ∨ dust ≥ atClearingSorted.length) s!"dust {dust} outside [0, {last}]"
  atClearingSorted.zipIdx.forM (checkShare alloc bases dust)

/-- The belt: all checks of a clearing result. -/
def assertClearingInvariants (result : ClearingResult) (band : ClearingBand)
    (publicFloat bidCount maxBids : ℤ) : Except RangeError Unit := do
  throwIf (bidCount > maxBids)
    s!"escrowed bid count {bidCount} exceeds MAX_BIDS_PER_OFFERING {maxBids}"
  match result.fullySubscribed, result.clearingPriceStroops with
  | true, some P => do
    let low := band.lowPriceStroops
    let high := band.highPriceStroops
    throwIf (P ≤ 0 ∨ P > MAX_STROOPS) "clearing price out of stroop range"
    throwIf (P < low ∨ P > high) s!"clearing price {P} outside band [{low}, {high}]"
    let (sumAllocated, proceeds) ← result.winners.foldlM (checkWinner P) (0, 0)
    throwIf (sumAllocated ≠ publicFloat)
      s!"Σ allocated {sumAllocated} != public_float {publicFloat}"
    let expectedFee := platformFee proceeds
    throwIf (result.platformFeeStroops ≠ expectedFee)
      "platform fee is not the floor split of proceeds"
    throwIf (result.artistNetStroops ≠ proceeds - expectedFee)
      "artist net is not proceeds minus platform fee"
    let lowest := minWinnerPrice result.winners
    let lowestText := showOption "null" lowest
    throwIf (lowest ≠ some P)
      s!"clearing price {P} is not the marginal winning price {lowestText}"
    let winnerBidIds := result.winners.map ClearingWinner.chainBidId
    result.bidsSnapshot.forM (checkLoser P winnerBidIds)
    let alloc := winnerAlloc result.winners
    let margin ← result.bidsSnapshot.foldlM (checkAbove P alloc) ⟨0, 0, []⟩
    checkTier alloc publicFloat margin
  | _, _ => throw ⟨"offering is not fully subscribed — cannot settle"⟩

/-! ### What the checks establish -/

/-- The terms of the rows of a snapshot. -/
def rowTerms : Terms ClearingBidSnapshotRow ℤ (JsString ×ₗ ℤ) where
  price := ClearingBidSnapshotRow.priceStroops
  count := ClearingBidSnapshotRow.count
  key b := toLex (b.createdAt, b.chainBidId)

/-- A bid has the terms of its snapshot row. -/
theorem rowTerms_comap :
  rowTerms.comap ClearingBidInput.snapshotRow = terms
  := rfl

theorem foldlM_checkWinner {P : ℤ} {winners : List ClearingWinner} {sums sums' : ℤ × ℤ}
    (h : winners.foldlM (checkWinner P) sums = .ok sums') :
  (∀ w ∈ winners, 0 < w.allocatedCount)
    ∧ sums'.1 = sums.1 + total ClearingWinner.allocatedCount winners
    ∧ sums'.2 = sums.2 + P * total ClearingWinner.allocatedCount winners
  := by
  induction winners generalizing sums with
  | nil =>
    obtain rfl : sums = sums' := by simpa using h
    simp
  | cons w winners ih =>
    rw [List.foldlM_cons, Checks.bind_eq_ok] at h
    obtain ⟨sums₁, hw, h⟩ := h
    simp only [checkWinner, throwIf, Checks.check_bind_eq_ok, Checks.rejectIf_eq_ok,
      Checks.pure_eq_ok] at hw
    obtain ⟨hpos, _, _, _, rfl⟩ := hw
    obtain ⟨ihpos, ih₁, ih₂⟩ := ih h
    simp only [List.forall_mem_cons, total_cons, ih₁, ih₂]
    use ⟨by omega, ihpos⟩
    constructor <;> ring

/-- The winners of an accepted result are allocated the public float. -/
theorem assertClearingInvariants_sold {r : ClearingResult} {band : ClearingBand}
    {publicFloat bidCount maxBids : ℤ}
    (h : assertClearingInvariants r band publicFloat bidCount maxBids = .ok ()) :
  total ClearingWinner.allocatedCount r.winners = publicFloat
  := by
  rw [assertClearingInvariants, Checks.check_bind_eq_ok] at h
  obtain ⟨_, h⟩ := h
  split at h
  · simp only [throwIf, Checks.bind_eq_ok, Checks.rejectIf_eq_ok, exists_const, not_not] at h
    obtain ⟨_, _, sums, hsums, hsold, _⟩ := h
    obtain ⟨_, hfst, _⟩ := foldlM_checkWinner hsums
    rw [← hsold, hfst, zero_add]
  · cases h

/-- The loop over the snapshot passes when every bid above the clearing price is filled, and
collects the demand above the price and the tier at it. -/
theorem foldlM_checkAbove {P : ℤ} {alloc : ℤ → Option ℤ} {rows : List ClearingBidSnapshotRow}
    {m m' : Margin} :
  rows.foldlM (checkAbove P alloc) m = .ok m'
    ↔ (∀ b ∈ rows, P < b.priceStroops → alloc b.chainBidId = some b.count)
      ∧ m' = ⟨m.filledAbove + rowTerms.demandAbove rows P,
          m.totalAtClearing + total rowTerms.count (rowTerms.tier rows P),
          m.atClearing ++ rowTerms.tier rows P⟩
  := by
  induction rows generalizing m with
  | nil =>
    rw [List.foldlM_nil, Checks.pure_eq_ok, eq_comm]
    simp [Terms.demandAbove, Terms.tier]
  | cons b rows ih =>
    simp only [List.foldlM_cons, Checks.bind_eq_ok, ih, List.forall_mem_cons]
    rcases lt_trichotomy P b.priceStroops with hlt | heq | hgt
    · simp only [checkAbove, gt_iff_lt, hlt, if_true, throwIf, Checks.check_bind_eq_ok,
        Checks.rejectIf_eq_ok, Checks.pure_eq_ok, not_not, and_assoc, exists_and_left,
        exists_eq_left', forall_const]
      simp [Terms.demandAbove, Terms.tier, rowTerms, hlt, hlt.ne', add_assoc]
    · simp only [checkAbove, gt_iff_lt, ← heq, lt_irrefl, if_false, if_true, Checks.pure_eq_ok,
        exists_eq_left', false_imp_iff, true_and]
      simp [Terms.demandAbove, Terms.tier, rowTerms, ← heq, add_assoc]
    · simp only [checkAbove, gt_iff_lt, hgt.not_gt, hgt.ne, if_false, Checks.pure_eq_ok,
        exists_eq_left', false_imp_iff, true_and]
      simp [Terms.demandAbove, Terms.tier, rowTerms, hgt.not_gt, hgt.ne]

theorem compareRows_le_zero (a b : ClearingBidSnapshotRow) :
  compareRows a b ≤ 0 ↔ rowTerms.key a ≤ rowTerms.key b
  := by
  simp only [compareRows, rowTerms, Prod.Lex.toLex_le_toLex]
  rcases lt_trichotomy a.createdAt b.createdAt with ht | ht | ht
  · simp [ht, ht.ne]
  · rcases lt_trichotomy a.chainBidId b.chainBidId with hc | hc | hc
    · simp [ht, hc, hc.le]
    · simp [ht, hc]
    · simp [ht, hc, hc.not_gt, hc.not_ge]
  · simp [ht.ne', ht.not_gt]

/-- The map of the winners holds a share: nothing for a share of zero. -/
def holdsShare (alloc : ℤ → Option ℤ) (chainBidId share : ℤ) : Prop :=
  alloc chainBidId = if share = 0 then none else some share

theorem checkShare_eq_ok {alloc : ℤ → Option ℤ} {bases : List ℤ} {dust : ℤ}
    {entry : ClearingBidSnapshotRow × ℕ} :
  checkShare alloc bases dust entry = .ok ()
    ↔ holdsShare alloc entry.1.chainBidId
        (bases.getD entry.2 0 + if (entry.2 : ℤ) < dust then 1 else 0)
  := by
  simp only [checkShare, holdsShare]
  generalize bases.getD entry.2 0 + (if (entry.2 : ℤ) < dust then 1 else 0) = expected
  by_cases hzero : expected = 0
  · rw [if_pos hzero, if_pos hzero, Checks.rejectIf_eq_ok, not_not]
  · rw [if_neg hzero, if_neg hzero, Checks.rejectIf_eq_ok, not_not]

section Tier

variable {rows : List ClearingBidSnapshotRow} {publicFloat P : ℤ} {alloc : ℤ → Option ℤ}

/-- The rows of a tier in the order of the belt are strictly sorted by the key of the tier. -/
theorem sort_compareRows_pairwise {tier : List ClearingBidSnapshotRow}
    (hnodup : (tier.map ClearingBidSnapshotRow.chainBidId).Nodup) :
  (Js.sort compareRows tier).Pairwise (rowTerms.key · < rowTerms.key ·)
  := by
  have hperm : (Js.sort compareRows tier).Perm tier := Js.sort_perm compareRows tier
  have hkey : ((Js.sort compareRows tier).map rowTerms.key).Nodup := by
    apply List.Nodup.of_map (fun k => (ofLex k).2)
    rw [List.map_map, (hperm.map _).nodup_iff]
    apply hnodup
  apply ((Js.sort_pairwise compareRows_le_zero tier).and (List.pairwise_map.mp hkey)).imp
  intro a c hac
  apply lt_of_le_of_ne hac.1 hac.2

/-- The pro-rata belt accepts exactly when the clearing price is where the demand crosses the
public float, and each bid of the tier has its pro-rata share. -/
theorem checkTier_eq_ok (hnodup : (rows.map ClearingBidSnapshotRow.chainBidId).Nodup)
    (hcount : ∀ b ∈ rows, 0 < b.count) :
  checkTier alloc publicFloat ⟨rowTerms.demandAbove rows P,
      total rowTerms.count (rowTerms.tier rows P), rowTerms.tier rows P⟩ = .ok ()
    ↔ rowTerms.Clears rows publicFloat P
      ∧ ∀ b ∈ rowTerms.tier rows P,
          holdsShare alloc b.chainBidId (rowTerms.allocation rows publicFloat P b)
  := by
  set tier := rowTerms.tier rows P with htier
  set sorted := Js.sort compareRows tier with hsortedDef
  have hperm : sorted.Perm tier := Js.sort_perm compareRows tier
  have hsorted : sorted.Pairwise (rowTerms.key · < rowTerms.key ·) :=
    sort_compareRows_pairwise (hnodup.sublist (List.filter_sublist.map _))
  have htotal : total rowTerms.count sorted = total rowTerms.count tier := total_perm _ hperm
  have hrem : publicFloat - rowTerms.demandAbove rows P = rowTerms.remaining rows publicFloat P :=
    rfl
  have hbases : rowTerms.Clears rows publicFloat P →
      sorted.map (fun b => (b.count * rowTerms.remaining rows publicFloat P).tdiv
          (total rowTerms.count tier))
        = sorted.map (floorShare rowTerms.count (rowTerms.remaining rows publicFloat P) sorted) := by
    intro hclears
    apply List.map_congr_left
    intro c hc
    have hc : 0 < c.count := hcount c (rowTerms.mem_tier.mp (hperm.mem_iff.mp hc)).1
    rw [Int.tdiv_eq_ediv_of_nonneg (mul_nonneg hc.le hclears.remaining_pos.le), floorShare, htotal]
    rfl
  have hshare : rowTerms.Clears rows publicFloat P → ∀ i (hi : i < sorted.length),
      rowTerms.allocation rows publicFloat P sorted[i]
        = floorShare rowTerms.count (rowTerms.remaining rows publicFloat P) sorted sorted[i]
          + if (i : ℤ) < dust rowTerms.count (rowTerms.remaining rows publicFloat P) sorted
            then 1 else 0 := by
    intro hclears i hi
    have hmem := hperm.mem_iff.mp (List.getElem_mem hi)
    rw [Terms.allocation_of_eq (rowTerms.mem_tier.mp hmem).2, ← htier, ← proRata_perm _ _ _ hperm,
      proRata, bonus, rank_getElem _ hsorted]
  simp only [checkTier, throwIf, Checks.check_bind_eq_ok, Checks.rejectIf_eq_ok, not_or, not_le,
    gt_iff_lt, not_lt, ge_iff_le, List.forM_eq_forM, Checks.forM_eq_ok, ← hsortedDef, hrem]
  have hcross : (0 < rowTerms.remaining rows publicFloat P
        ∧ rowTerms.remaining rows publicFloat P ≤ total rowTerms.count tier)
      ↔ rowTerms.Clears rows publicFloat P := by
    constructor
    · intro h
      rw [← hrem] at h
      constructor
      · omega
      · rw [rowTerms.demand_eq, ← htier]
        omega
    · intro h
      exact ⟨h.remaining_pos, h.remaining_le⟩
  rw [hcross]
  constructor
  · rintro ⟨_, hclears, _, hshares⟩
    use hclears
    intro b hb
    obtain ⟨i, hi, rfl⟩ := List.getElem_of_mem (hperm.mem_iff.mpr hb)
    have := hshares (sorted[i], i) (List.mk_mem_zipIdx_iff_getElem?.mpr (by simp [hi]))
    rw [checkShare_eq_ok, hbases hclears] at this
    rw [hshare hclears i hi]
    convert this using 2
    · simp [hi]
    · rfl
  · rintro ⟨hclears, hholds⟩
    have hT : 0 < total rowTerms.count sorted := htotal ▸ hclears.total_tier_pos
    rw [hbases hclears]
    use htotal ▸ hT, hclears
    constructor
    · use dust_nonneg hT, dust_lt_length hT
    · rintro ⟨b, i⟩ hb
      obtain ⟨hi, rfl⟩ := List.getElem?_eq_some_iff.mp (List.mk_mem_zipIdx_iff_getElem?.mp hb)
      have := hholds _ (hperm.mem_iff.mp (List.getElem_mem hi))
      rw [hshare hclears i hi] at this
      rw [checkShare_eq_ok]
      convert this using 2
      · simp [hi]
      · rfl

end Tier

/-- What the belt establishes of an accepted result: its price is where the demand of the snapshot
crosses the public float, its winners are allocated the public float, and it has a winner for each
share that is not zero. -/
structure Accepted (r : ClearingResult) (publicFloat P : ℤ) : Prop where
  price_eq : r.clearingPriceStroops = some P
  price_pos : 0 < P
  allocated_pos : ∀ w ∈ r.winners, 0 < w.allocatedCount
  sold : total ClearingWinner.allocatedCount r.winners = publicFloat
  fee_eq : r.platformFeeStroops = platformFee (P * publicFloat)
  net_eq : r.artistNetStroops = P * publicFloat - platformFee (P * publicFloat)
  clears : rowTerms.Clears r.bidsSnapshot publicFloat P
  shares : ∀ b ∈ r.bidsSnapshot, P ≤ b.priceStroops →
    holdsShare (winnerAlloc r.winners) b.chainBidId
      (rowTerms.allocation r.bidsSnapshot publicFloat P b)

section Accepted

variable {r : ClearingResult} {band : ClearingBand} {publicFloat bidCount maxBids P : ℤ}

theorem accepted_of_eq_ok (hnodup : (r.bidsSnapshot.map ClearingBidSnapshotRow.chainBidId).Nodup)
    (hcount : ∀ b ∈ r.bidsSnapshot, 0 < b.count)
    (h : assertClearingInvariants r band publicFloat bidCount maxBids = .ok ()) :
  ∃ P, Accepted r publicFloat P
  := by
  rw [assertClearingInvariants, Checks.check_bind_eq_ok] at h
  obtain ⟨_, h⟩ := h
  split at h
  · next P hfull hprice =>
    simp only [throwIf, Checks.bind_eq_ok, Checks.rejectIf_eq_ok, exists_const, not_not] at h
    obtain ⟨hrange, _, ⟨sumAllocated, proceeds⟩, hwinners, hsum, hfee, hnet, _, _, _,
      margin, hmargin,
      htier⟩ := h
    obtain ⟨hpos, hsold, hproceeds⟩ := foldlM_checkWinner hwinners
    obtain ⟨hfill, rfl⟩ := foldlM_checkAbove.mp hmargin
    simp only [zero_add, List.nil_append] at hsold hproceeds htier
    obtain rfl := hsum
    obtain ⟨hclears, hshares⟩ := (checkTier_eq_ok hnodup hcount).mp htier
    rw [hsold] at hclears hshares ⊢
    rw [hproceeds] at hfee hnet
    use P, hprice, by omega, hpos, rfl, hfee, hfee ▸ hnet, hclears
    intro b hb hle
    rcases hle.lt_or_eq with hlt | heq
    · rw [Terms.allocation_of_lt hlt, holdsShare, hfill b hb hlt]
      apply (if_neg (hcount b hb).ne').symm
    · apply hshares b (rowTerms.mem_tier.mpr ⟨hb, heq.symm⟩)
  · simp at h

private theorem mem_of_foldl_setAlloc {winners : List ClearingWinner} {alloc : ℤ → Option ℤ}
    {chainBidId allocated : ℤ}
    (h : winners.foldl setAlloc alloc chainBidId = some allocated) :
  (chainBidId, allocated) ∈ winners.map (fun w => (w.chainBidId, w.allocatedCount))
    ∨ alloc chainBidId = some allocated
  := by
  induction winners generalizing alloc with
  | nil =>
    right
    apply h
  | cons w winners ih =>
    rw [List.map_cons, List.mem_cons, or_assoc]
    rcases ih h with hmem | halloc
    · right
      left
      apply hmem
    · by_cases hid : chainBidId = w.chainBidId
      · left
        rw [setAlloc, hid, Function.update_self, Option.some.injEq] at halloc
        rw [hid, halloc]
      · right
        right
        rwa [setAlloc, Function.update_of_ne hid] at halloc

/-- An entry of the map of the winners comes from a winner. -/
theorem mem_of_winnerAlloc {winners : List ClearingWinner} {chainBidId allocated : ℤ}
    (h : winnerAlloc winners chainBidId = some allocated) :
  (chainBidId, allocated) ∈ winners.map fun w => (w.chainBidId, w.allocatedCount)
  := by
  rcases mem_of_foldl_setAlloc h with hmem | hnone
  · apply hmem
  · cases hnone

/-- The allocations of the uniform-price clearing of a snapshot, by chain id. -/
def rowAllocations (rows : List ClearingBidSnapshotRow) (publicFloat P : ℤ) : List (ℤ × ℤ) :=
  (rows.filter (0 < rowTerms.allocation rows publicFloat P ·)).map
    fun b => (b.chainBidId, rowTerms.allocation rows publicFloat P b)

variable (hnodup : (r.bidsSnapshot.map ClearingBidSnapshotRow.chainBidId).Nodup)
  (hcount : ∀ b ∈ r.bidsSnapshot, 0 < b.count) (h : Accepted r publicFloat P)

include hnodup hcount h

/-- The winners of an accepted result are exactly the bids of the snapshot with a non-zero
allocation. -/
theorem Accepted.toAllocationMap_perm :
  (toAllocationMap r).Perm (rowAllocations r.bidsSnapshot publicFloat P)
  := by
  have hkey : (r.bidsSnapshot.map rowTerms.key).Nodup := by
    apply List.Nodup.of_map (fun k => (ofLex k).2)
    rw [List.map_map]
    apply hnodup
  apply perm_of_total_eq Prod.snd
  · apply List.Nodup.of_map Prod.fst
    rw [rowAllocations, List.map_map]
    apply hnodup.sublist (List.filter_sublist.map _)
  · rintro ⟨chainBidId, allocated⟩ hmem
    rw [rowAllocations, List.mem_map] at hmem
    obtain ⟨b, hb, heq⟩ := hmem
    rw [List.mem_filter, decide_eq_true_eq] at hb
    obtain ⟨rfl, rfl⟩ := Prod.mk.injEq .. ▸ heq
    have hle : P ≤ b.priceStroops := by
      by_contra hlt
      have hzero : rowTerms.allocation r.bidsSnapshot publicFloat P b = 0 :=
        Terms.allocation_of_gt (not_le.mp hlt)
      omega
    have hshare := h.shares b hb.1 hle
    rw [holdsShare, if_neg hb.2.ne'] at hshare
    apply mem_of_winnerAlloc hshare
  · rintro ⟨chainBidId, allocated⟩ hmem
    obtain ⟨w, hw, heq⟩ := List.mem_map.mp hmem
    obtain ⟨rfl, rfl⟩ := Prod.mk.injEq .. ▸ heq
    apply h.allocated_pos w hw
  · rw [rowAllocations, total_map, total_filter, toAllocationMap, total_map]
    calc total ClearingWinner.allocatedCount r.winners
        = total (rowTerms.allocation r.bidsSnapshot publicFloat P) r.bidsSnapshot := by
          rw [h.sold, h.clears.total_allocation hkey]
      _ = _ := by
          apply total_congr
          intro b hb
          have := (h.clears.allocation_mem_Icc hcount hb).1
          simp only [Function.comp]
          split <;> omega

/-- The clearing of a valid book with the snapshot of an accepted result has the price, the
allocations and the split of that result. -/
theorem Accepted.computeClearing_eq {bids : List ClearingBidInput} (hbook : ValidBook bids)
    (hperm : (bids.map ClearingBidInput.snapshotRow).Perm r.bidsSnapshot) :
  ∃ r', computeClearing bids publicFloat = .ok r'
    ∧ r'.clearingPriceStroops = r.clearingPriceStroops
    ∧ (toAllocationMap r').Perm (toAllocationMap r)
    ∧ r'.platformFeeStroops = r.platformFeeStroops
    ∧ r'.artistNetStroops = r.artistNetStroops
  := by
  have hclears : terms.Clears bids publicFloat P := by
    rw [← rowTerms_comap, ← rowTerms.clears_map, rowTerms.clears_perm hperm]
    apply h.clears
  have hnonneg : ∀ b ∈ bids, 0 ≤ b.count := fun b hb => (hbook.count_pos b hb).le
  have hfloat : 0 < publicFloat :=
    lt_of_le_of_lt (total_nonneg fun b hb => hnonneg b (List.mem_of_mem_filter hb))
      hclears.above_lt
  have hle : publicFloat ≤ total ClearingBidInput.count bids :=
    hclears.le_demand.trans (terms.demand_le_total hnonneg P)
  obtain ⟨P', r', hr', hcleared⟩ := computeClearing_of_le hbook hfloat hle
  obtain rfl : P = P' :=
    (hclears.isClearingPrice hnonneg).unique (hcleared.clears.isClearingPrice hnonneg)
  use r', hr'
  rw [hcleared.price_eq, hcleared.fee_eq, hcleared.net_eq, h.price_eq, h.fee_eq, h.net_eq]
  use rfl
  constructor
  · apply List.Perm.trans _ (h.toAllocationMap_perm hnodup hcount).symm
    have hrows : rowAllocations (bids.map ClearingBidInput.snapshotRow) publicFloat P
        = (winnersOf bids publicFloat P).map fun w => (w.chainBidId, w.allocatedCount) := by
      rw [rowAllocations, winnersOf, List.filter_map]
      simp only [List.map_map, Function.comp_def, rowTerms.allocation_map, rowTerms_comap]
      rfl
    have hsame : (rowAllocations (bids.map ClearingBidInput.snapshotRow) publicFloat P).Perm
        (rowAllocations r.bidsSnapshot publicFloat P) := by
      rw [rowAllocations, rowTerms.allocation_perm hperm]
      apply (hperm.filter _).map
    apply List.Perm.trans _ hsame
    rw [hrows]
    apply hcleared.winners_perm.map
  · use rfl

end Accepted

/-! ### The main result -/

/-- A result is the uniform-price clearing of its snapshot at the price `P`: the price is the
only clearing price, the winners are the bids with a non-zero allocation, without repetition and
each with its allocation, and the proceeds are split at three percent. -/
structure SnapshotClearing (r : ClearingResult) (publicFloat P : ℤ) : Prop where
  price_eq : r.clearingPriceStroops = some P
  price_iff : ∀ p, rowTerms.IsClearingPrice r.bidsSnapshot publicFloat p ↔ p = P
  winner_nodup : (r.winners.map ClearingWinner.chainBidId).Nodup
  winner_iff : ∀ chainBidId, chainBidId ∈ r.winners.map ClearingWinner.chainBidId
    ↔ ∃ b ∈ r.bidsSnapshot, b.chainBidId = chainBidId
      ∧ rowTerms.allocation r.bidsSnapshot publicFloat P b ≠ 0
  allocated_eq : ∀ w ∈ r.winners, ∀ b ∈ r.bidsSnapshot, b.chainBidId = w.chainBidId →
    w.allocatedCount = rowTerms.allocation r.bidsSnapshot publicFloat P b
  fee_eq : r.platformFeeStroops = P * publicFloat * 300 / 10000
  net_eq : r.artistNetStroops = P * publicFloat - P * publicFloat * 300 / 10000

theorem Accepted.snapshotClearing {r : ClearingResult} {publicFloat P : ℤ}
    (hnodup : (r.bidsSnapshot.map ClearingBidSnapshotRow.chainBidId).Nodup)
    (hcount : ∀ b ∈ r.bidsSnapshot, 0 < b.count) (h : Accepted r publicFloat P) :
  SnapshotClearing r publicFloat P
  := by
  have hnonneg : ∀ b ∈ r.bidsSnapshot, 0 ≤ b.count := fun b hb => (hcount b hb).le
  have hprice := h.clears.isClearingPrice hnonneg
  have hperm := h.toAllocationMap_perm hnodup hcount
  have hids : (r.winners.map ClearingWinner.chainBidId).Perm
      ((r.bidsSnapshot.filter (0 < rowTerms.allocation r.bidsSnapshot publicFloat P ·)).map
        ClearingBidSnapshotRow.chainBidId) := by
    have := hperm.map Prod.fst
    rw [toAllocationMap, rowAllocations, List.map_map, List.map_map] at this
    apply this
  have hsold : 0 ≤ P * publicFloat := by
    apply mul_nonneg h.price_pos.le
    rw [← h.sold]
    apply total_nonneg fun w hw => (h.allocated_pos w hw).le
  constructor
  · apply h.price_eq
  · intro p
    constructor
    · intro hp
      apply hp.unique hprice
    · rintro rfl
      apply hprice
  · rw [hids.nodup_iff]
    apply hnodup.sublist (List.filter_sublist.map _)
  · intro chainBidId
    rw [hids.mem_iff, List.mem_map]
    apply exists_congr
    intro b
    rw [List.mem_filter, decide_eq_true_eq, and_assoc, and_congr_right_iff]
    intro hb
    have := (h.clears.allocation_mem_Icc hcount hb).1
    rw [and_comm, and_congr_right_iff]
    omega
  · intro w hw b hb hid
    have hmem : (w.chainBidId, w.allocatedCount) ∈ rowAllocations r.bidsSnapshot publicFloat P :=
      hperm.mem_iff.mp (List.mem_map_of_mem hw)
    obtain ⟨c, hc, heq⟩ := List.mem_map.mp hmem
    obtain ⟨hcid, halloc⟩ := Prod.mk.inj heq
    obtain rfl := List.inj_on_of_nodup_map hnodup (List.mem_of_mem_filter hc) hb
      (hcid.trans hid.symm)
    apply halloc.symm
  · rw [h.fee_eq, platformFee_of_nonneg hsold]
  · rw [h.net_eq, platformFee_of_nonneg hsold]

/-- The belt is sound: an accepted result is the uniform-price clearing of its snapshot, and agrees
with the clearing of every valid book with that snapshot. -/
theorem assertClearingInvariants_sound {r : ClearingResult}
    (hnodup : (r.bidsSnapshot.map ClearingBidSnapshotRow.chainBidId).Nodup)
    (hcount : ∀ b ∈ r.bidsSnapshot, 0 < b.count) {band : ClearingBand}
    {publicFloat bidCount maxBids : ℤ}
    (h : assertClearingInvariants r band publicFloat bidCount maxBids = .ok ()) :
  (∃ P, SnapshotClearing r publicFloat P)
    ∧ ∀ bids, ValidBook bids → (bids.map ClearingBidInput.snapshotRow).Perm r.bidsSnapshot →
      ∃ r', computeClearing bids publicFloat = .ok r'
        ∧ r'.clearingPriceStroops = r.clearingPriceStroops
        ∧ (toAllocationMap r').Perm (toAllocationMap r)
        ∧ r'.platformFeeStroops = r.platformFeeStroops
        ∧ r'.artistNetStroops = r.artistNetStroops
  := by
  obtain ⟨P, haccepted⟩ := accepted_of_eq_ok hnodup hcount h
  constructor
  · exact ⟨P, haccepted.snapshotClearing hnodup hcount⟩
  · intro bids hbook hperm
    apply haccepted.computeClearing_eq hnodup hcount hbook hperm

/-- The clearing of five units of the tied book, as it is recorded. -/
def tieResult : ClearingResult :=
  subscribed 5 5 (Js.sort compareBids tieBook)

theorem assertClearingInvariants_tieResult :
  assertClearingInvariants tieResult ⟨1, 10⟩ 5 3 100 = .ok ()
  := by rfl

/-- The belt accepts the clearing of the tied book, which is thereby the uniform-price clearing. -/
theorem assertClearingInvariants_sound_tieResult :
  (∃ P, SnapshotClearing tieResult 5 P)
    ∧ ∀ bids, ValidBook bids →
      (bids.map ClearingBidInput.snapshotRow).Perm tieResult.bidsSnapshot →
      ∃ r', computeClearing bids 5 = .ok r'
        ∧ r'.clearingPriceStroops = tieResult.clearingPriceStroops
        ∧ (toAllocationMap r').Perm (toAllocationMap tieResult)
        ∧ r'.platformFeeStroops = tieResult.platformFeeStroops
        ∧ r'.artistNetStroops = tieResult.artistNetStroops
  := assertClearingInvariants_sound (by decide) (by decide) assertClearingInvariants_tieResult

end Clearing
