import Tove.Clearing.Belt
import Tove.Relay.Worker

/-!
# The rows of the bids

The rows of `offering_bids`, with the statements of `offering-bid.repository.ts` that cancel and
settle bids. A statement updates the rows that still have the status it expects.

The settlement of the rows is a part of one transaction: each winner is flipped to `won`, then
all bids that are still escrowed are flipped to `lost`, and the rows that were flipped are
counted.
-/

namespace Offerings

open Js Soroban Clearing Relay

/-- A row of `offering_bids`.  The id on chain is known once the bid has been escrowed. -/
structure OfferingBid where
  id : JsString
  collectorSub : JsString
  collectorWallet : Address
  priceStroops : ℤ
  count : ℤ
  createdAt : JsString
  status : BidStatus
  chainBidId : Option ℕ
  allocatedCount : Option ℤ
  settleRefundStroops : Option ℤ
  deriving DecidableEq, Repr

/-- The generated column. -/
def OfferingBid.escrowAmountStroops (bid : OfferingBid) : ℤ := bid.priceStroops * bid.count

/-- The input of the clearing for a row.  A row without an id on chain is a fault. -/
def toClearingInput (bid : OfferingBid) : Option ClearingBidInput :=
  bid.chainBidId.map fun (chainBidId : ℕ) => {
    id := bid.id
    chainBidId
    collectorSub := bid.collectorSub
    priceStroops := bid.priceStroops
    count := bid.count
    createdAt := bid.createdAt
    escrowAmountStroops := bid.escrowAmountStroops }

/-! ### The statements -/

/-- Update the row with the given id, if it has the expected status. -/
def casBid (bids : List OfferingBid) (id : JsString) (expected : BidStatus)
    (set : OfferingBid → OfferingBid) : List OfferingBid :=
  bids.map fun bid => if bid.id = id ∧ bid.status = expected then set bid else bid

/-- `casCanceling`. -/
def casCanceling (bids : List OfferingBid) (id : JsString) : List OfferingBid :=
  casBid bids id .escrowed fun bid => { bid with status := .canceling }

/-- `casCancelFailedBackToEscrowed`. -/
def casCancelFailedBackToEscrowed (bids : List OfferingBid) (id : JsString) : List OfferingBid :=
  casBid bids id .canceling fun bid => { bid with status := .escrowed }

/-- A row becomes `won`. -/
def OfferingBid.win (bid : OfferingBid) (w : ClearingWinner) : OfferingBid :=
  { bid with
    status := .won
    allocatedCount := some w.allocatedCount
    settleRefundStroops := some w.refundStroops }

/-- A row becomes `lost`. -/
def OfferingBid.lose (bid : OfferingBid) : OfferingBid :=
  { bid with
    status := .lost
    allocatedCount := some 0
    settleRefundStroops := some bid.escrowAmountStroops }

/-- `casWon`: there is no result when no row is affected. -/
def casWon (bids : List OfferingBid) (w : ClearingWinner) : Option (List OfferingBid) :=
  if ∃ bid ∈ bids, bid.id = w.id ∧ bid.status = .escrowed then
    some (casBid bids w.id .escrowed fun bid => bid.win w)
  else none

/-- `flipRemainingEscrowedToLost`, with the count of the rows. -/
def flipRemainingEscrowedToLost (bids : List OfferingBid) : List OfferingBid × ℕ :=
  (bids.map fun bid => if bid.status = .escrowed then bid.lose else bid,
    bids.countP fun bid => bid.status = .escrowed)

/-- `countInflight`: the bids whose escrow or refund has not been confirmed. -/
def countInflight (bids : List OfferingBid) : ℕ :=
  bids.countP fun bid => bid.status = .submitted ∨ bid.status = .canceling

/-- `countActiveForOffering`. -/
def countActiveForOffering (bids : List OfferingBid) : ℕ :=
  bids.countP fun bid =>
    bid.status = .submitted ∨ bid.status = .escrowed ∨ bid.status = .canceling

/-- The order in which the rows are listed: by price descending, then by time and id. -/
def compareBidRows (a b : OfferingBid) : ℤ :=
  if a.priceStroops ≠ b.priceStroops then if a.priceStroops > b.priceStroops then -1 else 1
  else if a.createdAt ≠ b.createdAt then if a.createdAt < b.createdAt then -1 else 1
  else if a.id < b.id then -1
  else if a.id > b.id then 1
  else 0

/-- `listBidsForClearing`: the rows that are escrowed. -/
def listBidsForClearing (bids : List OfferingBid) : List OfferingBid :=
  Js.sort compareBidRows (bids.filter fun bid => bid.status = .escrowed)

/-- `findMyActiveBid`. -/
def findMyActiveBid (bids : List OfferingBid) (collectorSub : JsString) : Option OfferingBid :=
  bids.find? fun bid => bid.collectorSub = collectorSub
    ∧ (bid.status = .submitted ∨ bid.status = .escrowed ∨ bid.status = .canceling)

/-- `persist`, of the rows: there is no result when a winner is not escrowed, or when the counts
do not match. -/
def settleBids (bids : List OfferingBid) (result : ClearingResult) (escrowedCount : ℕ) :
    Option (List OfferingBid) := do
  let bids ← result.winners.foldlM casWon bids
  let flipped := flipRemainingEscrowedToLost bids
  if result.winners.length + flipped.2 = escrowedCount then some flipped.1 else none

/-! ### What the statements do -/

section Rows

variable {bids bids' : List OfferingBid} {bid bid' : OfferingBid}

theorem countInflight_eq_zero :
  countInflight bids = 0 ↔ ∀ bid ∈ bids, bid.status ≠ .submitted ∧ bid.status ≠ .canceling
  := by
  rw [countInflight, List.countP_eq_zero]
  simp

theorem mem_listBidsForClearing :
  bid ∈ listBidsForClearing bids ↔ bid ∈ bids ∧ bid.status = .escrowed
  := by
  rw [listBidsForClearing, (Js.sort_perm compareBidRows _).mem_iff]
  simp

/-- A list is mapped entry by entry. -/
theorem map_eq_of_mapM {α β : Type} {f : α → Option β} {xs : List α} {ys : List β}
    (h : xs.mapM f = some ys) :
  xs.map f = ys.map some
  := by
  induction xs generalizing ys with
  | nil =>
    rw [List.mapM_nil] at h
    obtain rfl := Option.some.inj h
    rfl
  | cons x xs ih =>
    rw [List.mapM_cons, Option.bind_eq_bind, Option.bind_eq_some_iff] at h
    obtain ⟨y, hy, h⟩ := h
    obtain ⟨zs, hzs, h⟩ := Option.bind_eq_some_iff.mp h
    obtain rfl := Option.some.inj h
    rw [List.map_cons, List.map_cons, hy, ih hzs]

/-- What the settlement makes of a row, with the winners that are to be flipped. -/
def OfferingBid.outcome (winners : List ClearingWinner) (bid : OfferingBid) : OfferingBid :=
  if bid.status = .escrowed then (winners.find? fun w => w.id = bid.id).elim bid.lose bid.win
  else bid

/-- What the winners make of a row. -/
def OfferingBid.marked (winners : List ClearingWinner) (bid : OfferingBid) : OfferingBid :=
  if bid.status = .escrowed then (winners.find? fun w => w.id = bid.id).elim bid bid.win else bid

/-- The loop over the winners. -/
theorem foldlM_casWon {winners : List ClearingWinner}
    (h : winners.foldlM casWon bids = some bids') :
  bids' = bids.map (OfferingBid.marked winners)
  := by
  induction winners generalizing bids with
  | nil =>
    rw [List.foldlM_nil] at h
    obtain rfl := Option.some.inj h
    symm
    apply List.map_id''
    intro bid
    simp [OfferingBid.marked]
  | cons w winners ih =>
    rw [List.foldlM_cons, Option.bind_eq_bind, Option.bind_eq_some_iff] at h
    obtain ⟨bids₁, hw, hrest⟩ := h
    rw [casWon, Option.ite_none_right_eq_some] at hw
    obtain ⟨_, heq⟩ := hw
    obtain rfl := Option.some.inj heq
    rw [ih hrest, casBid, List.map_map]
    apply List.map_congr_left
    intro bid _
    rw [Function.comp_apply]
    by_cases hescrowed : bid.status = .escrowed
    · by_cases hid : bid.id = w.id
      · simp [OfferingBid.marked, OfferingBid.win, hescrowed, hid]
      · simp [OfferingBid.marked, hescrowed, hid, Ne.symm hid]
    · simp [OfferingBid.marked, hescrowed]

/-- Every row that was escrowed has its outcome once the rows are settled, and the other rows
stay as they are. -/
theorem settleBids_eq_some {result : ClearingResult} {escrowedCount : ℕ}
    (h : settleBids bids result escrowedCount = some bids') :
  bids' = bids.map (OfferingBid.outcome result.winners)
  := by
  rw [settleBids, Option.bind_eq_bind, Option.bind_eq_some_iff] at h
  obtain ⟨bids₁, hwinners, h⟩ := h
  obtain ⟨_, heq⟩ := Option.ite_none_right_eq_some.mp h
  obtain rfl := Option.some.inj heq
  rw [foldlM_casWon hwinners, flipRemainingEscrowedToLost, List.map_map]
  apply List.map_congr_left
  intro bid _
  rw [Function.comp_apply, OfferingBid.marked, OfferingBid.outcome]
  by_cases hescrowed : bid.status = .escrowed
  · cases hfind : result.winners.find? fun w => w.id = bid.id with
    | none => simp [hescrowed]
    | some w => simp [hescrowed, OfferingBid.win]
  · simp [hescrowed]

end Rows

end Offerings
