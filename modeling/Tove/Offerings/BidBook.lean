import Tove.Base.Capacity
import Tove.Base.Transition
import Tove.Offerings.Rows

/-!
# The book of bids

Bids on the offerings are submitted, and their statuses are changed by the workers of the escrow
and of the cancellations, and by the settlement. Each of these is a transaction at READ
COMMITTED. A submission takes the advisory lock of its offering, counts the active bids, and
inserts one if there are not too many; the other transactions do not take the lock.
`UQ_offering_bids_active_per_collector` and `UQ_offering_bids_idem` refuse a bid of a collector
who has an active one, or whose key is in use.

The checks that precede a transaction only refuse what is asked for, and they are left out: a
transaction may be started at any time.
-/

namespace BidBook

open Js Soroban Clearing Relay ReadCommitted

/-! ### The rows -/

/-- A row of `offering_bids`. -/
structure Row where
  offeringId : JsString
  collectorSub : JsString
  collectorWallet : Address
  priceStroops : ℤ
  count : ℤ
  idempotencyHash : JsString
  status : BidStatus
  chainBidId : Option ℕ
  escrowTxHash : Option JsString
  refundTxHash : Option JsString
  allocatedCount : Option ℤ
  settleRefundStroops : Option ℤ
  deleted : Bool
  deriving DecidableEq, Repr

/-- The generated column. -/
def Row.escrowAmountStroops (row : Row) : ℤ := row.priceStroops * row.count

/-- The status is one of `ACTIVE_BID_STATUSES`, and the row is not deleted. -/
def Row.Active (row : Row) : Prop :=
  (row.status = .submitted ∨ row.status = .escrowed ∨ row.status = .canceling) ∧ row.deleted = false

instance (row : Row) : Decidable row.Active := inferInstanceAs (Decidable (_ ∧ _))

/-- An active bid on an offering. -/
def Row.ActiveOn (offeringId : JsString) (row : Row) : Prop :=
    row.offeringId = offeringId ∧ row.Active

/-- `UQ_offering_bids_active_per_collector`. -/
def Row.ActiveOf (offeringId collectorSub : JsString) (row : Row) : Prop :=
  row.offeringId = offeringId ∧ row.collectorSub = collectorSub ∧ row.Active

/-- `UQ_offering_bids_idem`. -/
def Row.Holds (idempotencyHash : JsString) (row : Row) : Prop :=
  row.idempotencyHash = idempotencyHash
    ∧ (row.Active ∨ row.status = .canceled ∧ row.deleted = false)

/-- The row that a bid is inserted as. -/
structure NewBid where
  offeringId : JsString
  collectorSub : JsString
  collectorWallet : Address
  priceStroops : ℤ
  count : ℤ
  idempotencyHash : JsString
  deriving DecidableEq, Repr

def NewBid.row (bid : NewBid) : Row where
  offeringId := bid.offeringId
  collectorSub := bid.collectorSub
  collectorWallet := bid.collectorWallet
  priceStroops := bid.priceStroops
  count := bid.count
  idempotencyHash := bid.idempotencyHash
  status := .submitted
  chainBidId := none
  escrowTxHash := none
  refundTxHash := none
  allocatedCount := none
  settleRefundStroops := none
  deleted := false

/-! ### The changes of the status -/

/-- A change of the status of one bid: `casEscrowed`, `casFailed`, `casCanceling`, `casCanceled` and
`casCancelFailedBackToEscrowed`. -/
inductive Change where
  | escrowed (chainBidId : ℕ) (txHash : JsString)
  | failed
  | canceling
  | canceled (refundTxHash : JsString)
  | backToEscrowed
  deriving DecidableEq, Repr

/-- The status that the row must have. -/
def Change.expected : Change → BidStatus
  | .escrowed .. | .failed => .submitted
  | .canceling => .escrowed
  | .canceled _ | .backToEscrowed => .canceling

/-- What is set. -/
def Change.set : Change → Row → Row
  | .escrowed chainBidId txHash, row =>
    { row with status := .escrowed, chainBidId := some chainBidId, escrowTxHash := some txHash }
  | .failed, row => { row with status := .failed }
  | .canceling, row => { row with status := .canceling }
  | .canceled refundTxHash, row =>
    { row with status := .canceled, refundTxHash := some refundTxHash }
  | .backToEscrowed, row => { row with status := .escrowed }

/-- `casWon`. -/
def Row.win (row : Row) (w : ClearingWinner) : Row :=
  { row with
    status := .won
    allocatedCount := some w.allocatedCount
    settleRefundStroops := some w.refundStroops }

/-- `flipRemainingEscrowedToLost`, of a row. -/
def Row.lose (row : Row) : Row :=
  { row with
    status := .lost
    allocatedCount := some 0
    settleRefundStroops := some row.escrowAmountStroops }

/-- The rows that `flipRemainingEscrowedToLost` is about. -/
def Row.Remaining (offeringId : JsString) (row : Row) : Prop :=
  row.offeringId = offeringId ∧ row.status = .escrowed ∧ row.deleted = false

/-! ### The transactions -/

/-- What a transaction is for: the insertion of `submit`, a change of a bid by its id, or
`persist` of a settlement. -/
inductive Operation where
  | submit (bid : NewBid)
  | change (id : JsString) (change : Change)
  | settle (offeringId : JsString) (winners : List ClearingWinner) (escrowedCount : ℕ)
  deriving DecidableEq, Repr

/-- How far a transaction is.

* A submission is about to take the lock (`locking`), to count the bids, and to insert one.
* A change is about to be made (`updating`).
* A settlement is about to flip the rest of the winners, then to look for the bids that remain
  (`losing`), and to flip these one after another, knowing how many it has flipped.
* There is nothing left but to be committed. -/
inductive Stage where
  | locking
  | counting
  | inserting
  | updating
  | winning (winners : List ClearingWinner)
  | losing
  | flipping (ids : List JsString) (lost : ℕ)
  | committing
  deriving DecidableEq, Repr

def Operation.first : Operation → Stage
  | .submit _ => .locking
  | .change .. => .updating
  | .settle _ winners _ => .winning winners

inductive Phase where
  | idle
  | running (operation : Operation) (stage : Stage)
  deriving DecidableEq, Repr

/-- The table, the advisory locks with the transactions that have them, and the transactions. -/
structure State where
  bids : Store JsString Row
  locks : ℤ → Option ℕ
  calls : ℕ → Phase

def State.enter (s : State) (n : ℕ) (phase : Phase) : State :=
  { s with calls := Function.update s.calls n phase }

/-- A transaction takes a lock. -/
def State.lock (s : State) (n : ℕ) (key : ℤ) (phase : Phase) : State where
  bids := s.bids
  locks := Function.update s.locks key (some n)
  calls := Function.update s.calls n phase

/-- A transaction writes a row. -/
def State.write (s : State) (n : ℕ) (id : JsString) (row : Row) (phase : Phase) : State where
  bids := s.bids.write n id row
  locks := s.locks
  calls := Function.update s.calls n phase

/-- A transaction is over, and it gives back its locks. -/
def State.finish (s : State) (n : ℕ) (bids : Store JsString Row) : State where
  bids
  locks := fun key => if s.locks key = some n then none else s.locks key
  calls := Function.update s.calls n .idle

section Calls

variable {s : State} {n : ℕ} {phase : Phase}

@[simp] theorem enter_calls :
  (s.enter n phase).calls n = phase
  := Function.update_self ..

@[simp] theorem lock_calls {key : ℤ} :
  (s.lock n key phase).calls n = phase
  := Function.update_self ..

@[simp] theorem write_calls {id : JsString} {row : Row} :
  (s.write n id row phase).calls n = phase
  := Function.update_self ..

@[simp] theorem finish_calls {bids : Store JsString Row} :
  (s.finish n bids).calls n = .idle
  := Function.update_self ..

end Calls

/-- The indexes let a transaction write a row. -/
structure Indexed (db : Store JsString Row) (n : ℕ) (id : JsString) (row : Row) : Prop where
  activePerCollector : row.Active →
    db.Admits (Row.ActiveOf row.offeringId row.collectorSub) n id
  idem : row.Holds row.idempotencyHash → db.Admits (Row.Holds row.idempotencyHash) n id

/-- `countActiveForOffering`, of what a transaction sees. -/
noncomputable def countActiveForOffering (db : Store JsString Row) (n : ℕ) (offeringId : JsString) :
    ℕ∞ :=
  {id | ∃ row, db.view n id = some row ∧ row.ActiveOn offeringId}.encard

section Steps

variable (hashtext : JsString → ℤ) (maxBidsPerOffering : ℕ)

/-- The statements of the transactions. A step is labelled with its transaction. -/
inductive Step : State → ℕ → State → Prop where
  | start {s : State} {n : ℕ} {operation : Operation} : s.calls n = .idle →
      Step s n (s.enter n (.running operation operation.first))
  /-- `pg_advisory_xact_lock`. -/
  | lock {s : State} {n : ℕ} {bid : NewBid} : s.calls n = .running (.submit bid) .locking →
      s.locks (hashtext bid.offeringId) = none →
      Step s n (s.lock n (hashtext bid.offeringId) (.running (.submit bid) .counting))
  | count {s : State} {n : ℕ} {bid : NewBid} : s.calls n = .running (.submit bid) .counting →
      countActiveForOffering s.bids n bid.offeringId < maxBidsPerOffering →
      Step s n (s.enter n (.running (.submit bid) .inserting))
  /-- `OFFERING_TOO_MANY_BIDS`. -/
  | full {s : State} {n : ℕ} {bid : NewBid} : s.calls n = .running (.submit bid) .counting →
      maxBidsPerOffering ≤ countActiveForOffering s.bids n bid.offeringId →
      Step s n (s.finish n (s.bids.abort n))
  /-- `insertSubmitted`. -/
  | insert {s : State} {n : ℕ} {id : JsString} {bid : NewBid} :
      s.calls n = .running (.submit bid) .inserting → s.bids.committed id = none →
      (∀ m, s.bids.writes m id = none) → Indexed s.bids n id bid.row →
      Step s n (s.write n id bid.row (.running (.submit bid) .committing))
  /-- `BID_ALREADY_ACTIVE`. -/
  | conflict {s : State} {n : ℕ} {id : JsString} {bid : NewBid} {row : Row} :
      s.calls n = .running (.submit bid) .inserting → s.bids.view n id = some row →
      s.bids.Free n id →
      row.ActiveOf bid.offeringId bid.collectorSub ∨ row.Holds bid.idempotencyHash →
      Step s n (s.finish n (s.bids.abort n))
  | update {s : State} {n : ℕ} {id : JsString} {change : Change} {row : Row} :
      s.calls n = .running (.change id change) .updating → s.bids.view n id = some row →
      row.status = change.expected → s.bids.Free n id → Indexed s.bids n id (change.set row) →
      Step s n (s.write n id (change.set row) (.running (.change id change) .committing))
  /-- No row is affected; a cancellation then throws. -/
  | miss {s : State} {n : ℕ} {id : JsString} {change : Change} :
      s.calls n = .running (.change id change) .updating → change ≠ .canceling →
      (∀ row, s.bids.view n id = some row → row.status ≠ change.expected) →
      Step s n (s.enter n (.running (.change id change) .committing))
  /-- `casWon`. -/
  | win {s : State} {n : ℕ} {offeringId : JsString} {w : ClearingWinner}
      {winners rest : List ClearingWinner} {escrowedCount : ℕ} {row : Row} :
      s.calls n = .running (.settle offeringId winners escrowedCount) (.winning (w :: rest)) →
      s.bids.view n w.id = some row → row.status = .escrowed → s.bids.Free n w.id →
      Indexed s.bids n w.id (row.win w) →
      Step s n (s.write n w.id (row.win w)
        (.running (.settle offeringId winners escrowedCount) (.winning rest)))
  | won {s : State} {n : ℕ} {offeringId : JsString} {winners : List ClearingWinner}
      {escrowedCount : ℕ} :
      s.calls n = .running (.settle offeringId winners escrowedCount) (.winning []) →
      Step s n (s.enter n (.running (.settle offeringId winners escrowedCount) .losing))
  /-- `flipRemainingEscrowedToLost` finds the rows that are to be flipped. -/
  | scan {s : State} {n : ℕ} {offeringId : JsString} {winners : List ClearingWinner}
      {escrowedCount : ℕ} {ids : List JsString} :
      s.calls n = .running (.settle offeringId winners escrowedCount) .losing → ids.Nodup →
      (∀ id, id ∈ ids ↔ ∃ row, s.bids.view n id = some row ∧ row.Remaining offeringId) →
      Step s n (s.enter n (.running (.settle offeringId winners escrowedCount) (.flipping ids 0)))
  /-- A row is flipped that is still to be. -/
  | lose {s : State} {n lost : ℕ} {offeringId id : JsString} {winners : List ClearingWinner}
      {escrowedCount : ℕ} {ids : List JsString} {row : Row} :
      s.calls n = .running (.settle offeringId winners escrowedCount) (.flipping (id :: ids) lost) →
      s.bids.view n id = some row → row.Remaining offeringId → s.bids.Free n id →
      Indexed s.bids n id row.lose →
      Step s n (s.write n id row.lose
        (.running (.settle offeringId winners escrowedCount) (.flipping ids (lost + 1))))
  /-- Another transaction has changed the row in the meantime. -/
  | skip {s : State} {n lost : ℕ} {offeringId id : JsString} {winners : List ClearingWinner}
      {escrowedCount : ℕ} {ids : List JsString} :
      s.calls n = .running (.settle offeringId winners escrowedCount) (.flipping (id :: ids) lost) →
      (∀ row, s.bids.view n id = some row → ¬ row.Remaining offeringId) →
      Step s n (s.enter n
        (.running (.settle offeringId winners escrowedCount) (.flipping ids lost)))
  /-- The numbers match. -/
  | settled {s : State} {n lost : ℕ} {offeringId : JsString} {winners : List ClearingWinner}
      {escrowedCount : ℕ} :
      s.calls n = .running (.settle offeringId winners escrowedCount) (.flipping [] lost) →
      winners.length + lost = escrowedCount →
      Step s n (s.enter n (.running (.settle offeringId winners escrowedCount) .committing))
  | commit {s : State} {n : ℕ} {operation : Operation} :
      s.calls n = .running operation .committing → Step s n (s.finish n (s.bids.commit n))
  /-- The transaction fails otherwise, or the process crashes. -/
  | fail {s : State} {n : ℕ} : Step s n (s.finish n (s.bids.abort n))

/-- The transactions on the bids as a transition system. At first there are no bids. -/
def system : Transition.System State ℕ where
  init s := (∀ id, s.bids.committed id = none) ∧ (∀ n, s.bids.writes n = fun _ => none)
    ∧ (∀ key, s.locks key = none) ∧ ∀ n, s.calls n = .idle
  step := Step hashtext maxBidsPerOffering

end Steps

/-- In what is committed, no offering has more than `maxBidsPerOffering` active bids, and no
collector has two of them on one offering. -/
structure WithinBudget (maxBidsPerOffering : ℕ) (s : State) : Prop where
  active : ∀ offeringId, {id | ∃ row, s.bids.committed id = some row
    ∧ row.ActiveOn offeringId}.encard ≤ maxBidsPerOffering
  perCollector : ∀ offeringId collectorSub id id' row row', s.bids.committed id = some row →
    s.bids.committed id' = some row' → row.ActiveOf offeringId collectorSub →
    row'.ActiveOf offeringId collectorSub → id = id'

end BidBook
