import Tove.Base.UniformPrice
import Tove.Js
import Mathlib.Data.Prod.Lex

/-!
# Clearing an offering

The clearing of a primary offering, `computeClearing` of `offerings/clearing.ts`.  The bids of
the book are sorted by price, time and chain id; a walk down the sorted book finds the clearing
price `P`, the bids above `P` are filled in full, and what remains of the public float is split
pro rata among the bids at `P`, the dust going to the earliest of them.

Money amounts and counts, decimal strings in the source, are the integers they denote.
-/

namespace Clearing

open Js Totals Rationing

/-- Platform primary fee, in basis points. -/
def PLATFORM_FEE_BPS : ℤ := 300

/-- One escrowed bid, the input of the clearing walk. -/
structure ClearingBidInput where
  id : JsString
  chainBidId : ℤ
  collectorSub : JsString
  priceStroops : ℤ
  count : ℤ
  createdAt : JsString
  escrowAmountStroops : ℤ
  deriving DecidableEq, Repr

/-- One row of the sorted input of the walk, as it is recorded for the audit. -/
structure ClearingBidSnapshotRow where
  chainBidId : ℤ
  collectorSub : JsString
  priceStroops : ℤ
  count : ℤ
  createdAt : JsString
  deriving DecidableEq, Repr

/-- A winning bid: what it cleared, and its refund. -/
structure ClearingWinner where
  id : JsString
  chainBidId : ℤ
  collectorSub : JsString
  priceStroops : ℤ
  count : ℤ
  allocatedCount : ℤ
  refundStroops : ℤ
  deriving DecidableEq, Repr

/-- The result of a clearing.  The clearing price is `none` when the offering is
undersubscribed. -/
structure ClearingResult where
  clearingPriceStroops : Option ℤ
  fullySubscribed : Bool
  totalDemand : ℤ
  winners : List ClearingWinner
  proceedsStroops : ℤ
  platformFeeStroops : ℤ
  artistNetStroops : ℤ
  bidsSnapshot : List ClearingBidSnapshotRow
  deriving DecidableEq, Repr

/-- The snapshot row of a bid. -/
def ClearingBidInput.snapshotRow (b : ClearingBidInput) : ClearingBidSnapshotRow where
  chainBidId := b.chainBidId
  collectorSub := b.collectorSub
  priceStroops := b.priceStroops
  count := b.count
  createdAt := b.createdAt

/-- The floor split of the proceeds: what the platform keeps. -/
def platformFee (proceeds : ℤ) : ℤ := (proceeds * PLATFORM_FEE_BPS).tdiv 10000

theorem platformFee_of_nonneg {proceeds : ℤ} (h : 0 ≤ proceeds) :
  platformFee proceeds = proceeds * 300 / 10000
  := Int.tdiv_eq_ediv_of_nonneg (mul_nonneg h (by decide))

/-! ### The book -/

/-- The checks that the clearing makes of each bid. -/
def checkBid (b : ClearingBidInput) : Except RangeError Unit := do
  throwIf (b.count ≤ 0) s!"bid {b.chainBidId} has a non-positive count"
  throwIf (b.priceStroops < 0) s!"bid {b.chainBidId} has a negative price"

/-- The comparator of the book: price descending, then time and chain id ascending. -/
def compareBids (a b : ClearingBidInput) : ℤ :=
  if a.priceStroops ≠ b.priceStroops then if a.priceStroops > b.priceStroops then -1 else 1
  else if a.createdAt ≠ b.createdAt then if a.createdAt < b.createdAt then -1 else 1
  else if a.chainBidId < b.chainBidId then -1
  else if a.chainBidId > b.chainBidId then 1
  else 0

/-- Pass 1a: the walk down the sorted book.  It stops as soon as the counts passed so far reach
the public float; the clearing price is the price of the last bid that it passed. -/
def walk (publicFloat cumulative : ℤ) (clearingPrice : Option ℤ) :
    List ClearingBidInput → Option ℤ
  | [] => clearingPrice
  | s :: sorted =>
    if publicFloat ≤ cumulative then clearingPrice
    else walk publicFloat (cumulative + s.count) (some s.priceStroops) sorted

/-! ### The tiers -/

/-- A bid with the count allocated to it. -/
structure Take where
  bid : ClearingBidInput
  allocated : ℤ
  deriving DecidableEq, Repr

/-- The book cut at the clearing price. -/
structure Tiers where
  takes : List Take
  atP : List ClearingBidInput
  filledAbove : ℤ
  totalAtClearing : ℤ

/-- One round of pass 1b: a bid above `P` is taken in full, a bid at `P` joins the tier,
a bid below `P` is dropped. -/
def Tiers.push (P : ℤ) (tiers : Tiers) (s : ClearingBidInput) : Tiers :=
  if s.priceStroops > P then
    { tiers with
      takes := tiers.takes ++ [⟨s, s.count⟩]
      filledAbove := tiers.filledAbove + s.count }
  else if s.priceStroops = P then
    { tiers with
      atP := tiers.atP ++ [s]
      totalAtClearing := tiers.totalAtClearing + s.count }
  else tiers

/-- Pass 1b: the partition of the sorted book by price relative to `P`. -/
def partitionAt (P : ℤ) (sorted : List ClearingBidInput) : Tiers :=
  sorted.foldl (Tiers.push P) ⟨[], [], 0, 0⟩

/-- The second loop of pass 1c: one unit of the dust for each bid, while it lasts. -/
def handOutDust (dust : ℤ) : List Take → List Take
  | [] => []
  | a :: atP =>
    if dust ≤ 0 then a :: atP
    else { a with allocated := a.allocated + 1 } :: handOutDust (dust - 1) atP

/-- Pass 1c: the pro-rata split of the remaining float over the tier at the clearing price. -/
def proRataTakes (remainingFloat totalAtClearing : ℤ) (atP : List ClearingBidInput) : List Take :=
  let floors := atP.map fun a => Take.mk a ((a.count * remainingFloat).tdiv totalAtClearing)
  let dust := remainingFloat - total Take.allocated floors
  handOutDust dust floors

/-- The bids that get something, with their allocations: those above `P`, then those at `P`
whose share is not zero. -/
def takesAt (publicFloat P : ℤ) (sorted : List ClearingBidInput) : List Take :=
  let tiers := partitionAt P sorted
  let remainingFloat := publicFloat - tiers.filledAbove
  tiers.takes ++
    (proRataTakes remainingFloat tiers.totalAtClearing tiers.atP).filter (0 < ·.allocated)

/-- The winner of an allocation at the clearing price, with its refund. -/
def Take.winner (P : ℤ) (t : Take) : ClearingWinner where
  id := t.bid.id
  chainBidId := t.bid.chainBidId
  collectorSub := t.bid.collectorSub
  priceStroops := t.bid.priceStroops
  count := t.bid.count
  allocatedCount := t.allocated
  refundStroops := t.bid.escrowAmountStroops - P * t.allocated

/-! ### The result -/

/-- The result for a book whose demand does not reach the public float. -/
def undersubscribed (sorted : List ClearingBidInput) : ClearingResult where
  clearingPriceStroops := none
  fullySubscribed := false
  totalDemand := total ClearingBidInput.count sorted
  winners := []
  proceedsStroops := 0
  platformFeeStroops := 0
  artistNetStroops := 0
  bidsSnapshot := sorted.map ClearingBidInput.snapshotRow

/-- Pass 2: the result for a book that clears at the price `P`. -/
def subscribed (publicFloat P : ℤ) (sorted : List ClearingBidInput) : ClearingResult :=
  let takes := takesAt publicFloat P sorted
  let proceeds := total (P * Take.allocated ·) takes
  { clearingPriceStroops := some P
    fullySubscribed := true
    totalDemand := total ClearingBidInput.count sorted
    winners := takes.map (Take.winner P)
    proceedsStroops := proceeds
    platformFeeStroops := platformFee proceeds
    artistNetStroops := proceeds - platformFee proceeds
    bidsSnapshot := sorted.map ClearingBidInput.snapshotRow }

/-- The uniform-price clearing of a book. -/
def computeClearing (bids : List ClearingBidInput) (publicFloat : ℤ) :
    Except RangeError ClearingResult := do
  throwIf (publicFloat ≤ 0) "publicFloat must be positive"
  bids.forM checkBid
  let sorted := Js.sort compareBids bids
  if total ClearingBidInput.count sorted < publicFloat then
    return undersubscribed sorted
  match walk publicFloat 0 none sorted with
  | none => throw ⟨"clearing price could not be determined for a subscribed book"⟩
  | some P => return subscribed publicFloat P sorted

/-- The winners-only map from chain ids to allocations. -/
def toAllocationMap (result : ClearingResult) : List (ℤ × ℤ) :=
  result.winners.map fun w => (w.chainBidId, w.allocatedCount)

end Clearing
