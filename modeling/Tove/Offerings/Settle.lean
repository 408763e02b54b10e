import Tove.Agreement
import Tove.Bids.CancelWorker
import Tove.Offerings.Rows

/-!
# Cancelling bids and settling the offering

Once the window of an offering is over, its bidders may still cancel their bids, and the
offering is settled.

A cancel request reads the offering and the bid, flips the row of the bid to `canceling` in a
transaction that does not look at the offering again, and queues a job for the cancel worker. A
settle request latches the offering. An attempt of the settle worker reads the status of the
contract: an open contract is closed, and a settled one is adopted. Unless it adopts, the
attempt looks for bids in flight. Then it computes the clearing of the rows that are escrowed,
calls `close_and_settle` unless it adopts, and settles the rows as the clearing says.

Any number of requests and attempts run at the same time, and every attempt may crash.
-/

namespace Offerings

open Js Soroban Clearing Relay Transition Agreement

open Bids (CancelRow Chain cancelJob)

open Escrow (World Call perform)

/-! ### The offering -/

/-- The columns of the offering that do not change, and the limit on the bids that are settled
at once. -/
structure Offering where
  escrowContractAddress : Address
  publicFloat : ℤ
  band : ClearingBand
  maxBidsPerOffering : ℤ

/-- `OFFERING_STATUSES`. -/
inductive OfferingStatus where
  | planned
  | approved
  | opened
  | subscribed
  | settled
  | canceled
  deriving DecidableEq, Repr

/-- The columns of the offering that change: its status, and whether it has a failure stamp. -/
structure OfferingRow where
  status : OfferingStatus
  settleFailed : Bool

/-- `casSubscribed`, once the window is over. -/
def OfferingRow.casSubscribed (row : OfferingRow) : Option OfferingRow :=
  if row.status = .opened then some { row with status := .subscribed } else none

/-- `casSettled`: the failure stamp is cleared. -/
def OfferingRow.casSettled (row : OfferingRow) : Option OfferingRow :=
  if row.status = .subscribed then some ⟨.settled, false⟩ else none

/-- `setSettleFailureStamp`: a subscribed row is stamped, or one that has been stamped is
reclaimed. -/
def OfferingRow.setSettleFailureStamp (row : OfferingRow) (stamp : Bool) : Option OfferingRow :=
  if row.status = .subscribed ∧ (stamp = true ∨ row.settleFailed = true) then
    some { row with settleFailed := stamp }
  else none

/-- The input of the clearing. -/
def settleInputs (bids : List OfferingBid) : Option (List ClearingBidInput) :=
  (listBidsForClearing bids).mapM toClearingInput

/-- The clearing of the worker, with its safety belt. -/
def clear (offering : Offering) (inputs : List ClearingBidInput) :
    Except RangeError ClearingResult := do
  let result ← computeClearing inputs offering.publicFloat
  assertClearingInvariants result offering.band offering.publicFloat inputs.length
    offering.maxBidsPerOffering
  return result

/-- The rows demand the public float, as a settle request computes it. -/
def FullySubscribed (offering : Offering) (bids : List OfferingBid) : Prop :=
  ∃ inputs result, settleInputs bids = some inputs
    ∧ computeClearing inputs offering.publicFloat = .ok result ∧ result.fullySubscribed = true

/-- A settle request may go on: the offering is open, or its settlement has failed and is to be
driven again. -/
def OfferingRow.Settleable (row : OfferingRow) (isRedrive : Bool) : Prop :=
  if isRedrive = true then row.status = .subscribed ∧ row.settleFailed = true
  else row.status = .opened

/-! ### The parties -/

/-- Where a cancel request stands. -/
inductive CancelPhase where
  | idle
  | offeringRead (collectorSub : JsString)
  | checked (bidId : JsString) (row : CancelRow)
  | flipped (bidId : JsString) (row : CancelRow)

/-- Where a settle request stands. It has read the offering, and is to count the bids in flight and
the active ones, and to list those that are escrowed; in `gated` it has passed the gates. -/
inductive TriggerPhase where
  | idle
  | read (isRedrive : Bool)
  | drained (isRedrive : Bool)
  | counted (isRedrive : Bool)
  | gated (isRedrive : Bool)

/-- Where an attempt of the settle worker stands. In `closing` the contract was open; in
`checking` it is closed, and the bids in flight are to be counted; in `listing` the clearing is
to be computed; in `failing` a deterministic error is to be recorded. -/
inductive SettlePhase where
  | idle
  | loaded
  | closing
  | closePolling (tx : ℕ)
  | checking
  | listing (adopted : Bool)
  | sending (result : ClearingResult) (escrowedCount : ℕ)
  | settlePolling (tx : ℕ) (result : ClearingResult) (escrowedCount : ℕ)
  | persisting (result : ClearingResult) (escrowedCount : ℕ)
  | failing

/-- A job of the cancel worker for a bid, and what its attempts have done. -/
structure CancelTask where
  bidId : JsString
  row : CancelRow
  verdict : Option TransferErrorReason
  signatureExpirationLedger : ℕ
  txs : List TxStatus
  attemptsMade : ℕ
  phase : Phase
  earlier : ℕ

/-- The call of `close_and_settle` that has taken effect: where, with which arguments, and what
it did. -/
structure Settled where
  env : Env
  before : World
  clearingPrice : ℤ
  allocations : List (ℕ × ℤ)
  effects : List Escrow.Effect

/-- The chain, the rows, the requests, the jobs of the cancel worker, and the settle worker with
the calls that it has sent. The settlement is recorded for the statements only. -/
structure State where
  ledger : ℕ
  chain : Chain
  offering : OfferingRow
  bids : List OfferingBid
  requests : ℕ → CancelPhase
  tasks : List CancelTask
  triggers : ℕ → TriggerPhase
  attempts : ℕ → SettlePhase
  txs : List (Call × TxStatus)
  settlement : Option Settled

/-! ### Cancelling -/

/-- A job that has just been queued. -/
def queuedTask (bidId : JsString) (row : CancelRow) (verdict : Option TransferErrorReason)
    (signatureExpirationLedger : ℕ) : CancelTask :=
  ⟨bidId, row, verdict, signatureExpirationLedger, [], 0, .idle, 0⟩

/-- The job, of which only its own steps are taken. -/
def CancelTask.job (t : CancelTask) : Job Chain :=
  { cancelJob t.row t.verdict t.signatureExpirationLedger with others := fun _ _ => False }

/-- The state of the job, when the row of its bid has the given status. -/
def State.ofTask (s : State) (t : CancelTask) (status : BidStatus) : Relay.State Chain :=
  ⟨s.ledger, s.chain, t.txs, status, t.attemptsMade, t.phase, t.earlier⟩

/-- The row with the given id has the given status. -/
def setStatus (bids : List OfferingBid) (id : JsString) (status : BidStatus) : List OfferingBid :=
  bids.map fun bid => if bid.id = id then { bid with status } else bid

/-- The job has come to a new state. -/
def CancelTask.moved (t : CancelTask) (r : Relay.State Chain) : CancelTask :=
  { t with txs := r.txs, attemptsMade := r.attemptsMade, phase := r.phase, earlier := r.earlier }

/-- The job at place `k` has come to a new state. -/
def State.worked (s : State) (k : ℕ) (t : CancelTask) (r : Relay.State Chain) : State :=
  { s with
    ledger := r.ledger
    chain := r.chain
    bids := setStatus s.bids t.bidId r.status
    tasks := s.tasks.set k (t.moved r) }

/-- A cancel request enters a phase. -/
def State.request (s : State) (r : ℕ) (phase : CancelPhase) : State :=
  { s with requests := Function.update s.requests r phase }

/-- A job is queued. -/
def State.enqueue (s : State) (t : CancelTask) : State := { s with tasks := s.tasks ++ [t] }

/-- The rows of the bids have changed. -/
def State.withBids (s : State) (bids : List OfferingBid) : State := { s with bids }

/-! ### Settling -/

/-- A settle request enters a phase. -/
def State.trigger (s : State) (r : ℕ) (phase : TriggerPhase) : State :=
  { s with triggers := Function.update s.triggers r phase }

/-- The row of the offering has changed. -/
def State.withOffering (s : State) (offering : OfferingRow) : State := { s with offering }

/-- An attempt of the settle worker enters a phase. -/
def State.goto (s : State) (a : ℕ) (phase : SettlePhase) : State :=
  { s with attempts := Function.update s.attempts a phase }

/-- A call is sent. -/
def State.send (s : State) (c : Call) : State := { s with txs := s.txs ++ [(c, .pending)] }

/-- What has become of a call that was sent. -/
def State.report (s : State) (tx : ℕ) (c : Call) (status : TxStatus) : State :=
  { s with txs := s.txs.set tx (c, status) }

/-- A call has taken effect. -/
def State.landed (s : State) (env : Env) (c : Call) (w : World) (effects : List Escrow.Effect) :
    State :=
  { s with
    chain := ⟨w, s.chain.effects ++ effects⟩
    settlement := match c with
      | .closeAndSettle clearingPrice allocations =>
        some ⟨env, s.chain.world, clearingPrice, allocations, effects⟩
      | _ => s.settlement }

/-- The steps of an attempt of the settle worker that change nothing but its phase. -/
inductive Advance (offering : Offering) (s : State) : SettlePhase → SettlePhase → Prop where
  | statusSettled : s.chain.world.status = .Settled → Advance _ s .loaded (.listing true)
  | statusOpen : s.chain.world.status = .Open → Advance _ s .loaded .closing
  | statusClosed : s.chain.world.status = .Closed → Advance _ s .loaded .checking
  | statusCancelled : s.chain.world.status = .Cancelled → Advance _ s .loaded .failing
  | closeReverted {env : Env} {failure : Failure Escrow.Error} :
      perform offering.escrowContractAddress env .closeOffering s.chain.world = .error failure →
      failure ≠ .error .OfferingNotOpen → Advance _ s .closing .failing
  /-- The fee exceeds the cap, or the contract asks for another signature. -/
  | notSigned {phase : SettlePhase} :
      phase = .closing ∨ (∃ result escrowedCount, phase = .sending result escrowedCount) →
      Advance _ s phase .failing
  | closed {tx : ℕ} {c : Call} : s.txs[tx]? = some (c, .success) →
      Advance _ s (.closePolling tx) .checking
  | bookFinal : countInflight s.bids = 0 → Advance _ s .checking (.listing false)
  | cleared {inputs : List ClearingBidInput} {result : ClearingResult} :
      settleInputs s.bids = some inputs → clear offering inputs = .ok result →
      Advance _ s (.listing false) (.sending result inputs.length)
  | adopted {inputs : List ClearingBidInput} {result : ClearingResult} :
      settleInputs s.bids = some inputs → clear offering inputs = .ok result →
      Advance _ s (.listing true) (.persisting result inputs.length)
  | refused {inputs : List ClearingBidInput} {error : RangeError} {adopted : Bool} :
      settleInputs s.bids = some inputs → clear offering inputs = .error error →
      Advance _ s (.listing adopted) .failing
  | alreadySettled {result : ClearingResult} {escrowedCount : ℕ} :
      s.chain.world.status = .Settled →
      Advance _ s (.sending result escrowedCount) (.persisting result escrowedCount)
  | notEncoded {result : ClearingResult} {escrowedCount : ℕ} {error : RangeError} :
      encodeAllocations (allocationArgs result) = .error error →
      Advance _ s (.sending result escrowedCount) .failing
  | settleReverted {result : ClearingResult} {escrowedCount : ℕ} {env : Env} {P : ℤ}
      {args : List (ℕ × ℤ)} {failure : Failure Escrow.Error} :
      result.clearingPriceStroops = some P →
      encodeAllocations (allocationArgs result) = .ok args →
      perform offering.escrowContractAddress env (.closeAndSettle P args) s.chain.world
        = .error failure →
      Advance _ s (.sending result escrowedCount) .failing
  | settled {tx : ℕ} {c : Call} {result : ClearingResult} {escrowedCount : ℕ} :
      s.txs[tx]? = some (c, .success) →
      Advance _ s (.settlePolling tx result escrowedCount) (.persisting result escrowedCount)
  /-- A winner is not escrowed, or the counts do not match. -/
  | broken {result : ClearingResult} {escrowedCount : ℕ} : s.offering.status = .subscribed →
      settleBids s.bids result escrowedCount = none →
      Advance _ s (.persisting result escrowedCount) .failing
  /-- An error that is retried, a crash, or nothing left to do. -/
  | stop {phase : SettlePhase} : Advance _ s phase .idle

/-- Who takes a step: a cancel request that flips the row of a bid, one that reverts it, a job
of the cancel worker, or anyone else. -/
inductive Label where
  | flip (bidId : JsString)
  | revert (bidId : JsString)
  | work (k : ℕ) (l : Relay.Label)
  | other

/-- The steps of the offering. -/
inductive Step (offering : Offering) : State → Label → State → Prop where
  | readOffering {s : State} {r : ℕ} {collectorSub : JsString} : s.requests r = .idle →
      s.offering.status = .opened → Step _ s .other (s.request r (.offeringRead collectorSub))
  | readBid {s : State} {r id : ℕ} {collectorSub : JsString} {bid : OfferingBid} :
      s.requests r = .offeringRead collectorSub →
      findMyActiveBid s.bids collectorSub = some bid → bid.status = .escrowed →
      bid.chainBidId = some id →
      Step _ s .other (s.request r
        (.checked bid.id ⟨offering.escrowContractAddress, bid.collectorWallet, id⟩))
  | flip {s : State} {r : ℕ} {row : CancelRow} {bid : OfferingBid} :
      s.requests r = .checked bid.id row → bid ∈ s.bids → bid.status = .escrowed →
      Step _ s (.flip bid.id)
        ((s.withBids (casCanceling s.bids bid.id)).request r (.flipped bid.id row))
  | enqueue {s : State} {r expiry : ℕ} {bidId : JsString} {row : CancelRow}
      {verdict : Option TransferErrorReason} : s.requests r = .flipped bidId row →
      Step _ s .other ((s.enqueue (queuedTask bidId row verdict expiry)).request r .idle)
  | enqueueFailed {s : State} {r : ℕ} {bidId : JsString} {row : CancelRow} :
      s.requests r = .flipped bidId row →
      Step _ s (.revert bidId)
        ((s.withBids (casCancelFailedBackToEscrowed s.bids bidId)).request r .idle)
  /-- The job is queued, but the reply is lost. -/
  | enqueueUnseen {s : State} {r expiry : ℕ} {bidId : JsString} {row : CancelRow}
      {verdict : Option TransferErrorReason} : s.requests r = .flipped bidId row →
      Step _ s .other (s.enqueue (queuedTask bidId row verdict expiry))
  /-- A cancel request is refused, or it is lost. -/
  | refuse {s : State} {r : ℕ} : Step _ s .other (s.request r .idle)
  | work {s : State} {k : ℕ} {l : Relay.Label} {t : CancelTask} {bid : OfferingBid}
      {r : Relay.State Chain} : s.tasks[k]? = some t → bid ∈ s.bids → bid.id = t.bidId →
      Relay.Step t.job (s.ofTask t bid.status) l r → Step _ s (.work k l) (s.worked k t r)
  | trigger {s : State} {r : ℕ} {isRedrive : Bool} : s.triggers r = .idle →
      s.offering.Settleable isRedrive → Step _ s .other (s.trigger r (.read isRedrive))
  | inflight {s : State} {r : ℕ} {isRedrive : Bool} : s.triggers r = .read isRedrive →
      countInflight s.bids = 0 → Step _ s .other (s.trigger r (.drained isRedrive))
  | active {s : State} {r : ℕ} {isRedrive : Bool} : s.triggers r = .drained isRedrive →
      countActiveForOffering s.bids ≤ offering.maxBidsPerOffering →
      Step _ s .other (s.trigger r (.counted isRedrive))
  | gate {s : State} {r : ℕ} {isRedrive : Bool} : s.triggers r = .counted isRedrive →
      FullySubscribed offering s.bids → Step _ s .other (s.trigger r (.gated isRedrive))
  | latch {s : State} {r : ℕ} {row : OfferingRow} : s.triggers r = .gated false →
      s.offering.casSubscribed = some row →
      Step _ s .other ((s.withOffering row).trigger r .idle)
  | reclaim {s : State} {r : ℕ} {row : OfferingRow} : s.triggers r = .gated true →
      s.offering.setSettleFailureStamp false = some row →
      Step _ s .other ((s.withOffering row).trigger r .idle)
  /-- A settle request is refused, or it is lost. -/
  | dismiss {s : State} {r : ℕ} : Step _ s .other (s.trigger r .idle)
  | load {s : State} {a : ℕ} : s.attempts a = .idle → s.offering.status = .subscribed →
      Step _ s .other (s.goto a .loaded)
  | advance {s : State} {a : ℕ} {phase : SettlePhase} :
      Advance offering s (s.attempts a) phase → Step _ s .other (s.goto a phase)
  | closeOffering {s : State} {a : ℕ} {env : Env} {w : World} {effects : List Escrow.Effect}
      {phase : SettlePhase} : s.attempts a = .closing →
      perform offering.escrowContractAddress env .closeOffering s.chain.world = .ok (w, effects) →
      phase = .closePolling s.txs.length ∨ phase = .idle →
      Step _ s .other ((s.send .closeOffering).goto a phase)
  | closeAndSettle {s : State} {a escrowedCount : ℕ} {result : ClearingResult} {env : Env} {P : ℤ}
      {args : List (ℕ × ℤ)} {w : World} {effects : List Escrow.Effect} {phase : SettlePhase} :
      s.attempts a = .sending result escrowedCount → result.clearingPriceStroops = some P →
      encodeAllocations (allocationArgs result) = .ok args →
      perform offering.escrowContractAddress env (.closeAndSettle P args) s.chain.world
        = .ok (w, effects) →
      phase = .settlePolling s.txs.length result escrowedCount ∨ phase = .idle →
      Step _ s .other ((s.send (.closeAndSettle P args)).goto a phase)
  | persist {s : State} {a escrowedCount : ℕ} {result : ClearingResult} {row : OfferingRow}
      {bids : List OfferingBid} : s.attempts a = .persisting result escrowedCount →
      s.offering.casSettled = some row → settleBids s.bids result escrowedCount = some bids →
      Step _ s .other (((s.withOffering row).withBids bids).goto a .idle)
  | fail {s : State} {a : ℕ} {row : OfferingRow} : s.attempts a = .failing →
      s.offering.setSettleFailureStamp true = some row →
      Step _ s .other ((s.withOffering row).goto a .idle)
  /-- A call that was sent takes effect. -/
  | land {s : State} {tx : ℕ} {c : Call} {env : Env} {w : World} {effects : List Escrow.Effect} :
      s.txs[tx]? = some (c, .pending) →
      perform offering.escrowContractAddress env c s.chain.world = .ok (w, effects) →
      Step _ s .other ((s.landed env c w effects).report tx c .success)
  /-- A call that was sent fails, or is dropped. -/
  | spent {s : State} {tx : ℕ} {c : Call} {status : TxStatus} :
      s.txs[tx]? = some (c, .pending) → status = .failed ∨ status = .dropped →
      Step _ s .other (s.report tx c status)

/-! ### The bids of the rows -/

/-- The row stands for a bid of the contract. -/
structure Backed (w : World) (bid : OfferingBid) (id : ℕ) (b : Escrow.Bid) : Prop where
  chainBidId_eq : bid.chainBidId = some id
  bid_eq : w.bids id = some b
  bidder_eq : b.bidder = bid.collectorWallet
  price_eq : b.price = bid.priceStroops
  count_eq : b.count = bid.count

/-- The rows of distinct bids. -/
structure Keyed (bids : List OfferingBid) : Prop where
  nodup : (bids.map OfferingBid.id).Nodup
  chainBidId_inj : ∀ bid ∈ bids, ∀ bid' ∈ bids, ∀ id, bid.chainBidId = some id →
    bid'.chainBidId = some id → bid.id = bid'.id

/-- What the status of a row says of its bid, which may be active. -/
def Allows : BidStatus → Bool → Prop
  | .escrowed, active | .won, active | .lost, active => active = true
  | .canceling, _ => True
  | .canceled, active => active = false
  | .submitted, _ | .failed, _ => False

/-- The row stands for a bid of the contract, as its status says, or it has not come to the
contract. -/
def Standing (w : World) (bid : OfferingBid) : Prop :=
  (∃ id b, Backed w bid id b ∧ Allows bid.status b.active)
    ∨ bid.chainBidId = none ∧ (bid.status = .submitted ∨ bid.status = .failed)

/-- The rows agree with the contract: they stand for distinct bids, and every active bid has a
row. -/
structure Tables (w : World) (bids : List OfferingBid) : Prop where
  keyed : Keyed bids
  standing : ∀ bid ∈ bids, Standing w bid
  listed : ∀ id b, w.bids id = some b → b.active = true →
    ∃ bid ∈ bids, bid.chainBidId = some id

/-- The offering at the end of its window: the contract is open, the rows agree with it, and no
bid is in flight. -/
structure Opened (offering : Offering) (s : State) : Prop where
  status : s.offering.status = .opened
  reachable : (Escrow.system offering.escrowContractAddress).Reachable s.chain.world
  unclosed : s.chain.world.status = .Open
  tables : Tables s.chain.world s.bids
  drained : ∀ bid ∈ s.bids, bid.status = .escrowed ∨ bid.status = .failed ∨ bid.status = .canceled
  requests : ∀ r, s.requests r = .idle
  tasks : s.tasks = []
  triggers : ∀ r, s.triggers r = .idle
  attempts : ∀ a, s.attempts a = .idle
  txs : s.txs = []
  settlement : s.settlement = none

/-- The offering as a transition system. -/
def settling (offering : Offering) : Transition.System State Label where
  init := Opened offering
  step := Step offering

end Offerings
