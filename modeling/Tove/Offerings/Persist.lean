import Tove.Offerings.Settle

/-!
# Persisting a settlement

`persist` of the settle worker runs in one transaction. It flips the offering to `settled`, which
locks the row of the offering until the transaction ends; it flips the bid of each winner to `won`,
and the remaining bids of the offering to `lost`; it compares their numbers with the number of the
bids that were escrowed, and inserts the clearing record, of which an offering has one.

The statements are steps of their own. A transaction works on the tables as it sees them, and they
become the tables when it commits. Any number of attempts run at the same time, each with a clearing
of its own, and an attempt may fail before any statement.
-/

namespace Persist

open Js Clearing Transition Totals

open Offerings (OfferingBid OfferingRow OfferingStatus)

/-! ### The tables -/

/-- The columns of the offering that do not change, and the limit on the bids that are settled at
once. -/
structure Offering where
  id : ℕ
  publicFloat : ℤ
  band : ClearingBand
  maxBidsPerOffering : ℤ
  totalSupplyStroops : ℤ
  artistRetentionStroops : ℤ
  treasuryRetentionStroops : ℤ

/-- A row of `offering_bids`, with its offering. -/
structure BidRow where
  offeringId : ℕ
  bid : OfferingBid
  deriving DecidableEq

/-- The row is a bid on the offering that is escrowed. -/
def BidRow.Escrowed (row : BidRow) (offeringId : ℕ) : Prop :=
  row.offeringId = offeringId ∧ row.bid.status = .escrowed

instance (row : BidRow) (offeringId : ℕ) : Decidable (row.Escrowed offeringId) :=
  inferInstanceAs (Decidable (_ ∧_))

/-- What the settlement on chain has returned. -/
structure ChainResult where
  txHash : Option ℕ
  ledger : Option ℕ
  adopted : Bool

/-- A row of `offering_clearing_audit`. -/
structure ClearingAudit where
  offeringId : ℕ
  clearingPriceStroops : Option ℤ
  publicFloat : ℤ
  totalDemand : ℤ
  proceedsStroops : ℤ
  platformFeeStroops : ℤ
  artistNetStroops : ℤ
  clearedAllocationsStroops : ℤ
  absorbedLeftoverStroops : ℤ
  totalSupplyStroops : ℤ
  artistRetentionStroops : ℤ
  treasuryRetentionStroops : ℤ
  bidsSnapshot : List ClearingBidSnapshotRow
  allocationMap : List (ℤ × ℤ)
  settlementTxHash : Option ℕ
  settledLedger : Option ℕ
  adopted : Bool

/-- The payload of an `OFFERING_SETTLED` entry of the audit log. -/
structure SettledEntry where
  offeringId : ℕ
  clearingPriceStroops : Option ℤ
  proceedsStroops : ℤ
  platformFeeStroops : ℤ
  artistNetStroops : ℤ
  winners : ℕ
  adopted : Bool
  txHash : Option ℕ

/-- The row of the offering, the bids and the clearing records of all offerings, and the log. -/
structure Tables where
  offering : OfferingRow
  bids : List BidRow
  audits : List ClearingAudit
  log : List SettledEntry

/-- What an attempt persists: a clearing, the number of the bids that were escrowed, and what
happened on chain. -/
structure Attempt where
  result : ClearingResult
  escrowedCount : ℕ
  chainResult : ChainResult

/-! ### The statements -/

/-- The bid of a winner becomes `won`, if it is escrowed. -/
def BidRow.award (w : ClearingWinner) (row : BidRow) : BidRow :=
  if row.bid.id = w.id ∧ row.bid.status = .escrowed then { row with bid := row.bid.win w } else row

/-- `casWon`: there is no result when no row is affected. The offering of the bid is not looked
at. -/
def casWon (bids : List BidRow) (w : ClearingWinner) : Option (List BidRow) :=
  if ∃ row ∈ bids, row.bid.id = w.id ∧ row.bid.status = .escrowed then some (bids.map (BidRow.award w))
  else none

/-- A bid on the offering that is still escrowed becomes `lost`. -/
def BidRow.drop (offeringId : ℕ) (row : BidRow) : BidRow :=
  if row.Escrowed offeringId then { row with bid := row.bid.lose } else row

/-- `flipRemainingEscrowedToLost`, with the count of the rows. -/
def flipRemainingEscrowedToLost (bids : List BidRow) (offeringId : ℕ) : List BidRow × ℕ :=
  (bids.map (BidRow.drop offeringId), bids.countP fun row => row.Escrowed offeringId)

/-- The clearing record of an attempt. -/
def snapshot (off : Offering) (p : Attempt) : ClearingAudit where
  offeringId := off.id
  clearingPriceStroops := p.result.clearingPriceStroops
  publicFloat := off.publicFloat
  totalDemand := p.result.totalDemand
  proceedsStroops := p.result.proceedsStroops
  platformFeeStroops := p.result.platformFeeStroops
  artistNetStroops := p.result.artistNetStroops
  clearedAllocationsStroops := total ClearingWinner.allocatedCount p.result.winners
  absorbedLeftoverStroops := 0
  totalSupplyStroops := off.totalSupplyStroops
  artistRetentionStroops := off.artistRetentionStroops
  treasuryRetentionStroops := off.treasuryRetentionStroops
  bidsSnapshot := p.result.bidsSnapshot
  allocationMap := toAllocationMap p.result
  settlementTxHash := p.chainResult.txHash
  settledLedger := p.chainResult.ledger
  adopted := p.chainResult.adopted

/-- `insertSnapshot`: there is no result when the offering has a record. -/
def insertSnapshot (audits : List ClearingAudit)
    (row : ClearingAudit) : Option (List ClearingAudit) :=
  if ∃ a ∈ audits, a.offeringId = row.offeringId then none else some (audits ++ [row])

/-- The entry of the log for an attempt. -/
def settledEntry (off : Offering) (p : Attempt) : SettledEntry where
  offeringId := off.id
  clearingPriceStroops := p.result.clearingPriceStroops
  proceedsStroops := p.result.proceedsStroops
  platformFeeStroops := p.result.platformFeeStroops
  artistNetStroops := p.result.artistNetStroops
  winners := p.result.winners.length
  adopted := p.chainResult.adopted
  txHash := p.chainResult.txHash

/-! ### The transactions -/

/-- Where an attempt stands, with the tables as its transaction sees them. In `flipping` some
winners are still to be flipped; in `flipped` the rest of the bids has been flipped; in `stored` the
record has been inserted; in `logged` the transaction is about to commit. -/
inductive Phase where
  | idle
  | called (p : Attempt)
  | flipping (p : Attempt) (remaining : List ClearingWinner) (view : Tables)
  | flipped (p : Attempt) (view : Tables)
  | stored (p : Attempt) (view : Tables)
  | logged (p : Attempt) (view : Tables)

/-- The tables as they have been committed, the attempt that has the lock on the row of the
offering, and the attempts. -/
structure State where
  tables : Tables
  lock : Option ℕ
  attempts : ℕ → Phase

/-- An attempt enters a phase. -/
def State.enter (s : State) (n : ℕ) (phase : Phase) : State :=
  { s with attempts := Function.update s.attempts n phase }

/-- The transaction of an attempt is over. -/
def State.stop (s : State) (n : ℕ) : State :=
  { s with lock := if s.lock = some n then none else s.lock }.enter n .idle

/-- The clearing of an attempt has been accepted for the number of the bids that are escrowed. -/
def Attempt.Accepted (off : Offering) (bids : List BidRow) (p : Attempt) : Prop :=
  p.escrowedCount = bids.countP (fun row => row.Escrowed off.id)
    ∧ assertClearingInvariants p.result off.band off.publicFloat p.escrowedCount off.maxBidsPerOffering
      = .ok ()

/-- What is seen of a step: an attempt commits what it has persisted, or anything else. -/
inductive Label where
  | commit (p : Attempt)
  | other

/-- The steps of the attempts. -/
inductive Step (off : Offering) : State → Label → State → Prop where
  | call {s : State} {n : ℕ} {p : Attempt} : s.attempts n = .idle → p.Accepted off s.tables.bids →
      Step off s .other (s.enter n (.called p))
  | casSettled {s : State} {n : ℕ} {p : Attempt} {offering : OfferingRow} :
      s.attempts n = .called p → s.lock = none → s.tables.offering.casSettled = some offering →
      Step off s .other (State.enter { s with lock := some n } n
        (.flipping p p.result.winners { s.tables with offering }))
  /-- Another attempt has settled the offering. -/
  | alreadySettled {s : State} {n : ℕ} {p : Attempt} : s.attempts n = .called p → s.lock = none →
      s.tables.offering.casSettled = none → Step off s .other (s.enter n .idle)
  | casWon {s : State} {n : ℕ} {p : Attempt} {w : ClearingWinner} {remaining : List ClearingWinner}
      {view : Tables} {bids : List BidRow} : s.attempts n = .flipping p (w :: remaining) view →
      casWon view.bids w = some bids →
      Step off s .other (s.enter n (.flipping p remaining { view with bids }))
  | flipRemaining {s : State} {n : ℕ} {p : Attempt} {view : Tables} :
      s.attempts n = .flipping p [] view →
      p.result.winners.length + (flipRemainingEscrowedToLost view.bids off.id).2 = p.escrowedCount →
      Step off s .other (s.enter n (.flipped p
        { view with bids := (flipRemainingEscrowedToLost view.bids off.id).1 }))
  | insertSnapshot {s : State} {n : ℕ} {p : Attempt} {view : Tables} {audits : List ClearingAudit} :
      s.attempts n = .flipped p view → insertSnapshot view.audits (snapshot off p) = some audits →
      Step off s .other (s.enter n (.stored p { view with audits }))
  | log {s : State} {n : ℕ} {p : Attempt} {view : Tables} : s.attempts n = .stored p view →
      Step off s .other (s.enter n (.logged p { view with log := view.log ++ [settledEntry off p] }))
  | commit {s : State} {n : ℕ} {p : Attempt} {view : Tables} : s.attempts n = .logged p view →
      Step off s (.commit p) (State.stop { s with tables := view } n)
  /-- A statement fails or finds that it has to abort, or the worker crashes: the transaction is
  rolled back. -/
  | rollback {s : State} {n : ℕ} : Step off s .other (s.stop n)

/-- The attempts as a transition system, for an offering that is to be settled. -/
def system (off : Offering) : Transition.System State Label where
  init s := s.tables.offering.status = .subscribed
    ∧ (s.tables.bids.map fun row => row.bid.id).Nodup
    ∧ (∀ a ∈ s.tables.audits, a.offeringId ≠ off.id) ∧ s.lock = none ∧ ∀ n, s.attempts n = .idle
  step := Step off

end Persist
