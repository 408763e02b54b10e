import Tove.Base.OneShot
import Tove.Soroban

/-!
# Relayed bids

The workers of `offering-bid-escrow.processor.ts` and `offering-bid-cancel.processor.ts` relay a
signed call to the escrow contract, by way of `submitSignedBid` and `submitSignedCancelBid` of
the relayer. An attempt reloads the row of the bid, verifies the signature, compares its expiry
with the latest ledger, simulates the call, sends a transaction, and polls for its outcome. An
error is either taken as a proof that nothing happened on chain, and then the row is latched, or
the attempt is retried.

The two workers run the same steps; they differ in the call and in the statuses of the row.
Meanwhile the network applies transactions or drops them, the confirmations may be lost, and the
worker may crash.
-/

namespace Relay

open Soroban Transition

/-! ### Errors of the relayer -/

/-- Why a relayed call failed, `TransferErrorReason`. -/
inductive TransferErrorReason where
  | simulation_failed
  | expired
  | signature_required
  | signature_invalid
  | transfer_failed
  | unavailable
  deriving DecidableEq, Repr

/-- What the relayer throws: a `RelayerTransferError` with its reason, or any other error, such
as the timeout of an RPC call. -/
inductive RelayError where
  | transfer (reason : TransferErrorReason)
  | other
  deriving DecidableEq, Repr

/-- Whether an error is taken as a proof that the call did not take effect. The two workers have
the same table. -/
def provesNothingSent (err : RelayError) (firstAttempt : Bool) : Bool :=
  match err with
  | .other => false
  | .transfer .signature_required => true
  | .transfer .signature_invalid => true
  | .transfer .expired => true
  | .transfer .transfer_failed => true
  | .transfer .simulation_failed => firstAttempt
  | .transfer .unavailable => false

/-- The table of the escrow worker. -/
abbrev isProvablyNoFundsMoved : RelayError → Bool → Bool := provesNothingSent

/-- The table of the cancel worker. -/
abbrev isProvablyRefundNotSent : RelayError → Bool → Bool := provesNothingSent

/-! ### The worker and the network -/

/-- The statuses of a bid, `OFFERING_BID_STATUSES`. -/
inductive BidStatus where
  | submitted
  | escrowed
  | failed
  | canceling
  | canceled
  | won
  | lost
  deriving DecidableEq, Repr

/-- What has become of a transaction that was sent. -/
inductive TxStatus where
  | pending
  | success
  | failed
  | dropped
  deriving DecidableEq, Repr

/-- How many ledgers before its expiry a signature is no longer used. -/
def EXPIRY_MARGIN_LEDGERS : ℕ := 4

/-- A job of a worker, with the signed call that it relays: what the verification of the
signature finds wrong, if anything, when the signature expires, what the call does to the chain,
unless it fails, and what other parties do to it. A worker takes the row from one status to
another, or latches it. -/
structure Job (ω : Type) where
  expects : BidStatus
  succeeds : BidStatus
  fails : BidStatus
  succeeds_ne : succeeds ≠ expects
  fails_ne : fails ≠ expects
  fails_ne_succeeds : fails ≠ succeeds
  verdict : Option TransferErrorReason
  signatureExpirationLedger : ℕ
  call : Env → ω → Option ω
  others : ω → ω → Prop

/-- Where an attempt stands. In `caught` an error has been thrown, in `confirmed` the
transaction has been seen to succeed, and the database is about to be written. -/
inductive Phase where
  | idle
  | verifying
  | checking
  | simulating
  | sending
  | polling (tx : ℕ)
  | caught (err : RelayError)
  | confirmed
  deriving DecidableEq, Repr

/-- The chain, the transactions that have been sent, the row of the bid, and the attempt that is
running, if any. The transactions before `earlier` have been sent by earlier attempts. -/
structure State (ω : Type) where
  ledger : ℕ
  chain : ω
  txs : List TxStatus
  status : BidStatus
  attemptsMade : ℕ
  phase : Phase
  earlier : ℕ

variable {ω : Type}

/-- The phases in which the attempt waits for an RPC call. -/
def Phase.Calls : Phase → Prop
  | .checking | .simulating | .sending | .polling _ => True
  | _ => False

/-- The steps of an attempt that change nothing but its phase. -/
inductive Advance (J : Job ω) (s : State ω) : Phase → Phase → Prop where
  | invalid {reason : TransferErrorReason} : J.verdict = some reason →
      Advance J s .verifying (.caught (.transfer reason))
  | verified : J.verdict = none → Advance J s .verifying .checking
  | expired {latest : ℕ} : latest ≤ s.ledger →
      J.signatureExpirationLedger ≤ latest + EXPIRY_MARGIN_LEDGERS →
      Advance J s .checking (.caught (.transfer .expired))
  | fresh {latest : ℕ} : latest ≤ s.ledger →
      ¬ J.signatureExpirationLedger ≤ latest + EXPIRY_MARGIN_LEDGERS →
      Advance J s .checking .simulating
  | simulationFailed {env : Env} : J.call env s.chain = none →
      Advance J s .simulating (.caught (.transfer .simulation_failed))
  | feeExceedsCap {env : Env} : J.call env s.chain ≠ none →
      Advance J s .simulating (.caught (.transfer .signature_invalid))
  | simulated {env : Env} : J.call env s.chain ≠ none → Advance J s .simulating .sending
  | throttled : Advance J s .sending (.caught (.transfer .unavailable))
  | rejected : Advance J s .sending (.caught (.transfer .transfer_failed))
  | duplicate {tx : ℕ} : tx < s.txs.length → Advance J s .sending (.polling tx)
  | succeeded {tx : ℕ} : s.txs[tx]? = some .success → Advance J s (.polling tx) .confirmed
  | failed {tx : ℕ} : s.txs[tx]? = some .failed →
      Advance J s (.polling tx) (.caught (.transfer .transfer_failed))
  | timedOut {tx : ℕ} : Advance J s (.polling tx) (.caught (.transfer .unavailable))
  | rpcTimeout {phase : Phase} : phase.Calls → Advance J s phase (.caught .other)

/-- Set the status of a row that still has the expected one. -/
def cas (expected target status : BidStatus) : BidStatus :=
  if status = expected then target else status

/-- Who takes a step: the attempt, the attempt as it latches the row after an error, or the
network. -/
inductive Label where
  | attempt
  | latch
  | network
  deriving DecidableEq, Repr

/-- The steps of the worker and of the network. -/
inductive Step (J : Job ω) : State ω → Label → State ω → Prop where
  /-- A duplicate or re-driven job. -/
  | noop {s : State ω} : s.phase = .idle → s.status ≠ J.expects → Step J s .attempt s
  | reload {s : State ω} : s.phase = .idle → s.status = J.expects →
      Step J s .attempt { s with phase := .verifying, earlier := s.txs.length }
  | advance {s : State ω} {phase : Phase} : Advance J s s.phase phase →
      Step J s .attempt { s with phase }
  | accepted {s : State ω} : s.phase = .sending →
      Step J s .attempt { s with txs := s.txs ++ [.pending], phase := .polling s.txs.length }
  /-- The transaction is accepted, but the reply is lost. -/
  | replyLost {s : State ω} : s.phase = .sending →
      Step J s .attempt { s with txs := s.txs ++ [.pending], phase := .caught .other }
  | latch {s : State ω} {err : RelayError} : s.phase = .caught err →
      provesNothingSent err (s.attemptsMade = 0) = true →
      Step J s .latch { s with status := cas J.expects J.fails s.status, phase := .idle }
  | retry {s : State ω} {err : RelayError} : s.phase = .caught err →
      provesNothingSent err (s.attemptsMade = 0) = false →
      Step J s .attempt { s with attemptsMade := s.attemptsMade + 1, phase := .idle }
  | persist {s : State ω} : s.phase = .confirmed →
      Step J s .attempt { s with status := cas J.expects J.succeeds s.status, phase := .idle }
  /-- The database transaction fails, and the job is retried. -/
  | databaseFailed {s : State ω} : ¬ s.phase.Calls →
      Step J s .attempt { s with attemptsMade := s.attemptsMade + 1, phase := .idle }
  /-- The worker crashes. The job is delivered again, with a count of attempts that may have
  been reset. -/
  | crash {s : State ω} {attemptsMade : ℕ} : attemptsMade ≤ s.attemptsMade →
      Step J s .attempt { s with attemptsMade, phase := .idle }
  | tick {s : State ω} {ledger : ℕ} : s.ledger ≤ ledger → Step J s .network { s with ledger }
  /-- A pending transaction is applied before its signature expires. -/
  | applied {s : State ω} {env : Env} {tx : ℕ} {chain : ω} : s.txs[tx]? = some .pending →
      s.ledger ≤ J.signatureExpirationLedger → J.call env s.chain = some chain →
      Step J s .network { s with chain, txs := s.txs.set tx .success }
  /-- A pending transaction fails, or is dropped. -/
  | spent {s : State ω} {tx : ℕ} {status : TxStatus} : s.txs[tx]? = some .pending →
      status = .failed ∨ status = .dropped →
      Step J s .network { s with txs := s.txs.set tx status }
  | others {s : State ω} {chain : ω} : J.others s.chain chain →
      Step J s .network { s with chain }

/-- The job, from the moment at which it is queued, as a transition system. -/
def system (J : Job ω) (fresh : ω → Prop) : Transition.System (State ω) Label where
  init s := s.phase = .idle ∧ s.status = J.expects ∧ s.txs = [] ∧ s.attemptsMade = 0 ∧ fresh s.chain
  step := Step J

end Relay
