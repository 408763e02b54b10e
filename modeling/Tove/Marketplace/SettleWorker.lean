import Tove.Marketplace.Settler
import Tove.Marketplace.Trades
import Tove.Relay.Worker

/-!
# The settle worker

`QuoteSettleProcessor` takes a pending trade through `accept_quote`. An attempt asks the settler
whether the trade has been settled, looks at the USDC of the buyer, has the relayer submit the
call, and then either persists the settlement, fails the trade, or throws and is retried.
`QuoteSettleReconcileProcessor` sweeps over the trades that have stayed pending: it adopts those
that are settled, and abandons those that are old.

Any number of attempts and sweeps may be under way for a trade, since a stalled job is delivered
again while its first attempt may still run.
-/

namespace Marketplace

open Soroban Settler Relay Transition

/-! ### The classifier -/

/-- Whose signature has expired. -/
inductive ExpiredParty where
  | buyer
  | seller
  deriving DecidableEq, Repr

/-- The outcomes of `submitSignedAcceptQuote` other than success. -/
inductive AcceptQuoteFailure where
  | REVERTED (contractCode : Option ℕ)
  | RELAYER_FAILED (reason : TransferErrorReason) (expiredParty : Option ExpiredParty)
  deriving DecidableEq, Repr

/-- The outcomes of `submitSignedAcceptQuote`. -/
inductive AcceptQuoteOutcome where
  | SUCCESS (txHash : ℕ)
  | failure (f : AcceptQuoteFailure)
  deriving DecidableEq, Repr

/-- What follows from an outcome: another attempt, or the end of the trade. -/
inductive SettleClassification where
  | transient
  | terminal (reason : SettleFailureReason) (quoteDisposition : QuoteDisposition)
  deriving DecidableEq, Repr

def OZ_INSUFFICIENT_BALANCE : ℕ := 100

def FT_RECIPIENT_NOT_WHITELISTED : ℕ := 5

def FT_FROZEN : ℕ := 6

def FT_ARTIST_LOCKUP : ℕ := 7

def FT_TREASURY_LOCKUP : ℕ := 8

def FT_INVALID_TRADE : ℕ := 10

def FT_MIGRATION_PENDING : ℕ := 11

def SETTLER_TOKEN_NOT_FOUND : ℕ := 2

/-- The class of a revert, by the code of the error. -/
def classifyRevert (contractCode : Option ℕ) : SettleClassification :=
  if contractCode = some OZ_INSUFFICIENT_BALANCE then .terminal .seller_balance_insufficient .expire
  else if contractCode = some FT_ARTIST_LOCKUP then .terminal .seller_lockup .expire
  else if contractCode = some FT_TREASURY_LOCKUP then .terminal .seller_lockup .expire
  else if contractCode = some FT_FROZEN then .terminal .party_frozen .keepOpen
  else if contractCode = some FT_RECIPIENT_NOT_WHITELISTED then
    .terminal .buyer_not_whitelisted .keepOpen
  else if contractCode = some FT_INVALID_TRADE then .terminal .invalid_trade .keepOpen
  else if contractCode = some SETTLER_TOKEN_NOT_FOUND then .terminal .token_not_found .keepOpen
  else if contractCode = some FT_MIGRATION_PENDING then .transient
  else .terminal .settlement_reverted .keepOpen

/-- `classifySettleFailure`. -/
def classifySettleFailure : AcceptQuoteFailure → SettleClassification
  | .REVERTED contractCode => classifyRevert contractCode
  | .RELAYER_FAILED .expired expiredParty =>
    if expiredParty = some .seller then .terminal .seller_auth_lapsed .expire
    else .terminal .buyer_signature_expired .keepOpen
  | .RELAYER_FAILED .signature_required _ => .terminal .signature_invalid .keepOpen
  | .RELAYER_FAILED .signature_invalid _ => .terminal .signature_invalid .keepOpen
  | .RELAYER_FAILED .transfer_failed _ => .terminal .settlement_reverted .keepOpen
  | .RELAYER_FAILED .simulation_failed _ => .terminal .settlement_reverted .keepOpen
  | .RELAYER_FAILED .unavailable _ => .transient

/-! ### The worker, the sweeps and the network -/

/-- How often a job is attempted, and the time after which the sweep holds that no attempt is
left. -/
def JOB_ATTEMPTS : ℕ := 8

def SETTLE_RETRY_HORIZON_MS : ℕ := 700000

/-- The age at which the sweep abandons a trade. -/
def abandonAfterMs (reconcileGraceMs : ℕ) : ℕ :=
  max reconcileGraceMs SETTLE_RETRY_HORIZON_MS

/-- A job: the terms of the trade, what `verifyAcceptQuoteAuthorization` finds wrong with its
two signed entries, if anything, and when these expire. -/
structure QuoteSettleJob where
  terms : Terms
  verdict : Option TransferErrorReason
  buyerSignatureExpirationLedger : ℕ
  sellerSignatureExpirationLedger : ℕ

/-- Where an attempt or a sweep stands. In `failing` it is about to fail the trade, and it has
got there from the check of the balance or not. The last three are phases of a sweep. -/
inductive Phase where
  | idle
  | loaded (attemptsMade : ℕ)
  | prechecking
  | building
  | checking
  | simulating
  | sending
  | polling (tx : ℕ)
  | returned (outcome : AcceptQuoteOutcome)
  | adopting (txHash : Option ℕ)
  | failing (reason : SettleFailureReason) (disposition : QuoteDisposition) (precheck : Bool)
  | sweeping
  | readopting
  | abandoning
  deriving DecidableEq, Repr

/-- The hash with which the settlement is about to be persisted. -/
def Phase.adopts : Phase → Option (Option ℕ)
  | .adopting txHash => some txHash
  | .readopting => some none
  | _ => none

/-- The reason and the disposition with which the trade is about to be failed. -/
def Phase.fails : Phase → Option (SettleFailureReason × QuoteDisposition)
  | .failing reason disposition _ => some (reason, disposition)
  | .abandoning => some (.settle_abandoned, .keepOpen)
  | _ => none

/-- The phases that wait for a call that may throw. The check of the balance catches what it
throws. -/
def Phase.Throws : Phase → Prop
  | .idle | .loaded 0 | .prechecking | .returned (.SUCCESS _) => False
  | _ => True

/-- The work on a trade: its job, if it has been queued, the transactions that have been sent
for it, the count of its failed attempts, and the attempts and sweeps that are under way. -/
structure Work where
  job : Option QuoteSettleJob
  txs : List TxStatus
  attemptsMade : ℕ
  actors : ℕ → Phase

/-- Work that has not begun. -/
def Work.blank : Work := ⟨none, [], 0, fun _ => .idle⟩

/-- An attempt or sweep enters a phase. -/
def Work.goto (w : Work) (a : ℕ) (phase : Phase) : Work :=
  { w with actors := Function.update w.actors a phase }

/-- An attempt throws, and is retried; but what is thrown while the trade is being failed from
the check of the balance is taken for a failed read of it, and the attempt goes on. A sweep
skips the trade. -/
def Work.throws (w : Work) (a : ℕ) : Work :=
  match w.actors a with
  | .failing _ _ true => w.goto a .building
  | .sweeping | .readopting | .abandoning => w.goto a .idle
  | _ => { w.goto a .idle with attemptsMade := w.attemptsMade + 1 }

@[simp]
theorem Work.goto_self (w : Work) (a : ℕ) (phase : Phase) :
  (w.goto a phase).actors a = phase
  := Function.update_self ..

theorem Work.goto_of_ne (w : Work) {a b : ℕ} (h : b ≠ a) (phase : Phase) :
  (w.goto a phase).actors b = w.actors b
  := Function.update_of_ne h ..

@[simp]
theorem Work.goto_goto (w : Work) (a : ℕ) (phase phase' : Phase) :
  (w.goto a phase).goto a phase' = w.goto a phase'
  := by simp [goto]

/-- Entering the phase in which an attempt or sweep is changes nothing. -/
theorem Work.goto_eq_self (w : Work) {a : ℕ} {phase : Phase} (h : w.actors a = phase) :
  w.goto a phase = w
  := by rw [goto, ← h, Function.update_eq_self]

/-- An attempt that throws leaves the job and its transactions. -/
theorem Work.throws_eq (w : Work) (a : ℕ) :
  ∃ phase attemptsMade, w.throws a = { w.goto a phase with attemptsMade }
    ∧ (phase = .idle ∨ phase = .building)
  := by
  rw [throws]
  split
  · exact ⟨.building, w.attemptsMade, rfl, .inr rfl⟩
  · exact ⟨.idle, w.attemptsMade, rfl, .inl rfl⟩
  · exact ⟨.idle, w.attemptsMade, rfl, .inl rfl⟩
  · exact ⟨.idle, w.attemptsMade, rfl, .inl rfl⟩
  · exact ⟨.idle, w.attemptsMade + 1, rfl, .inl rfl⟩

@[simp]
theorem Work.throws_job (w : Work) (a : ℕ) :
  (w.throws a).job = w.job
  := by
  obtain ⟨phase, attemptsMade, heq, _⟩ := w.throws_eq a
  rw [heq]
  rfl

@[simp]
theorem Work.throws_txs (w : Work) (a : ℕ) :
  (w.throws a).txs = w.txs
  := by
  obtain ⟨phase, attemptsMade, heq, _⟩ := w.throws_eq a
  rw [heq]
  rfl

/-- The latest ledger, the time, the settler, the database, and the work on the trades. -/
structure State where
  ledger : ℕ
  now : ℕ
  world : World
  db : Database
  works : ℕ → Work

/-- Replace the work on a trade. -/
def State.setWork (s : State) (id : ℕ) (w : Work) : State :=
  { s with works := Function.update s.works id w }

@[simp]
theorem State.setWork_self (s : State) (id : ℕ) (w : Work) :
  (s.setWork id w).works id = w
  := Function.update_self ..

theorem State.setWork_of_ne (s : State) {id k : ℕ} (h : k ≠ id) (w : Work) :
  (s.setWork id w).works k = s.works k
  := Function.update_of_ne h ..

/-- An attempt or sweep for a trade enters a phase. -/
def State.goto (s : State) (id a : ℕ) (phase : Phase) : State :=
  s.setWork id ((s.works id).goto a phase)

@[simp]
theorem State.setWork_setWork (s : State) (id : ℕ) (w w' : Work) :
  (s.setWork id w).setWork id w' = s.setWork id w'
  := by simp [setWork]

/-- Entering the phase in which an attempt or sweep is changes nothing. -/
theorem State.goto_eq_self (s : State) {id a : ℕ} {phase : Phase}
    (h : (s.works id).actors a = phase) :
  s.goto id a phase = s
  := by rw [goto, Work.goto_eq_self _ h, setWork, Function.update_eq_self]

@[simp]
theorem State.goto_goto (s : State) (id a : ℕ) (phase phase' : Phase) :
  (s.goto id a phase).goto id a phase' = s.goto id a phase'
  := by simp [goto]

/-- A signature is no longer used from some ledgers before its expiry. -/
def Lapsed (latest expiry : ℕ) : Prop := expiry ≤ latest + EXPIRY_MARGIN_LEDGERS

instance (latest expiry : ℕ) : Decidable (Lapsed latest expiry) :=
  inferInstanceAs (Decidable (_ ≤ _))

theorem le_of_not_lapsed {latest expiry : ℕ} (h : ¬ Lapsed latest expiry) :
  latest ≤ expiry
  := by
  rw [Lapsed, not_le] at h
  apply (Nat.le_add_right latest _).trans h.le

/-- The steps of an attempt that change nothing but its phase. -/
inductive Advance (d : QuoteSettleJob) (ledger : ℕ) (world : World) (txs : List TxStatus) :
    Phase → Phase → Prop where
  | selfHeal {n : ℕ} : isSettled world d.terms.rfqId d.terms.quoteId = true →
      Advance d ledger world txs (.loaded (n + 1)) (.adopting none)
  | unsettled {n : ℕ} : isSettled world d.terms.rfqId d.terms.quoteId = false →
      Advance d ledger world txs (.loaded (n + 1)) .prechecking
  | firstAttempt : Advance d ledger world txs (.loaded 0) .prechecking
  | funded : d.terms.gross ≤ world.usdc d.terms.buyer →
    Advance d ledger world txs .prechecking .building
  | balanceUnread : Advance d ledger world txs .prechecking .building
  | invalid {reason : TransferErrorReason} : d.verdict = some reason →
      Advance d ledger world txs .building (.returned (.failure (.RELAYER_FAILED reason none)))
  | verified : d.verdict = none → Advance d ledger world txs .building .checking
  | sellerExpired {latest : ℕ} : latest ≤ ledger → Lapsed latest d.sellerSignatureExpirationLedger →
      Advance d ledger world txs .checking
        (.returned (.failure (.RELAYER_FAILED .expired (some .seller))))
  | buyerExpired {latest : ℕ} : latest ≤ ledger →
      ¬ Lapsed latest d.sellerSignatureExpirationLedger →
      Lapsed latest d.buyerSignatureExpirationLedger →
      Advance d ledger world txs .checking
        (.returned (.failure (.RELAYER_FAILED .expired (some .buyer))))
  | fresh {latest : ℕ} : latest ≤ ledger → ¬ Lapsed latest d.sellerSignatureExpirationLedger →
      ¬ Lapsed latest d.buyerSignatureExpirationLedger →
        Advance d ledger world txs .checking .simulating
  | reverted {host : Host} {e : Settler.Error} : acceptQuote host d.terms world = .error (.error e) →
      Advance d ledger world txs .simulating (.returned (.failure (.REVERTED (some e.code))))
  /-- The token traps with an error of its own. -/
  | trapped {host : Host} {contractCode : ℕ} : acceptQuote host d.terms world = .error .trap →
      Advance d ledger world txs .simulating (.returned (.failure (.REVERTED (some contractCode))))
  | simulationFailed {host : Host} : acceptQuote host d.terms world = .error .trap →
      Advance d ledger world txs .simulating
        (.returned (.failure (.RELAYER_FAILED .simulation_failed none)))
  | feeExceedsCap {host : Host} {w : World} : acceptQuote host d.terms world = .ok w →
      Advance d ledger world txs .simulating
        (.returned (.failure (.RELAYER_FAILED .signature_invalid none)))
  | simulated {host : Host} {w : World} : acceptQuote host d.terms world = .ok w →
      Advance d ledger world txs .simulating .sending
  | throttled :
      Advance d ledger world txs .sending (.returned (.failure (.RELAYER_FAILED .unavailable none)))
  | rejected :
      Advance d ledger world txs .sending
        (.returned (.failure (.RELAYER_FAILED .transfer_failed none)))
  | duplicate {tx : ℕ} : tx < txs.length → Advance d ledger world txs .sending (.polling tx)
  | succeeded {tx : ℕ} : txs[tx]? = some .success →
      Advance d ledger world txs (.polling tx) (.returned (.SUCCESS tx))
  | failed {tx : ℕ} : txs[tx]? = some .failed →
      Advance d ledger world txs (.polling tx)
        (.returned (.failure (.RELAYER_FAILED .transfer_failed none)))
  | timedOut {tx : ℕ} :
      Advance d ledger world txs (.polling tx)
        (.returned (.failure (.RELAYER_FAILED .unavailable none)))
  | confirmed {tx : ℕ} : Advance d ledger world txs (.returned (.SUCCESS tx)) (.adopting (some tx))
  | adopted {f : AcceptQuoteFailure} : isSettled world d.terms.rfqId d.terms.quoteId = true →
      Advance d ledger world txs (.returned (.failure f)) (.adopting none)

/-- What a step is: the check of the balance that finds a shortfall, the reading of `is_settled`
that goes before a failure, the sending of a transaction, any other step of the work on a trade,
or a step of the network. -/
inductive Label where
  | work (id : ℕ)
  | shortfall (id : ℕ)
  | unsettled (id : ℕ)
  | send (id : ℕ)
  | network
  deriving DecidableEq, Repr

/-- The steps of the attempts, of the sweeps, and of the network, without what the attempts and
sweeps change in the tables. -/
inductive WorkStep (reconcileGraceMs : ℕ) : State → Label → State → Prop where
  | noop {s : State} {i a : ℕ} {row : SecondaryTrade} : (s.works i).actors a = .idle →
      s.db.trades[i]? = some row → row.status ≠ .pending → WorkStep _ s (.work i) s
  | load {s : State} {i a : ℕ} {d : QuoteSettleJob} {row : SecondaryTrade} :
      (s.works i).job = some d → (s.works i).attemptsMade < JOB_ATTEMPTS →
      (s.works i).actors a = .idle → s.db.trades[i]? = some row → row.status = .pending →
      WorkStep _ s (.work i) (s.goto i a (.loaded (s.works i).attemptsMade))
  | advance {s : State} {i a : ℕ} {d : QuoteSettleJob} {phase : Phase} :
      (s.works i).job = some d →
        Advance d s.ledger s.world (s.works i).txs ((s.works i).actors a) phase →
      WorkStep _ s (.work i) (s.goto i a phase)
  | shortfall {s : State} {i a : ℕ} {d : QuoteSettleJob} : (s.works i).job = some d →
      (s.works i).actors a = .prechecking → s.world.usdc d.terms.buyer < d.terms.gross →
      WorkStep _ s (.shortfall i) (s.goto i a (.failing .buyer_usdc_insufficient .keepOpen true))
  | accepted {s : State} {i a : ℕ} {d : QuoteSettleJob} : (s.works i).job = some d →
      (s.works i).actors a = .sending →
      WorkStep _ s (.send i) (s.setWork i { (s.works i).goto a (.polling (s.works i).txs.length) with
        txs := (s.works i).txs ++ [.pending] })
  /-- The transaction is accepted, but the reply is lost. -/
  | replyLost {s : State} {i a : ℕ} {d : QuoteSettleJob} : (s.works i).job = some d →
      (s.works i).actors a = .sending →
      WorkStep _ s (.send i) (s.setWork i { (s.works i).throws a with
        txs := (s.works i).txs ++ [.pending] })
  | retry {s : State} {i a : ℕ} {d : QuoteSettleJob} {f : AcceptQuoteFailure} :
      (s.works i).job = some d → (s.works i).actors a = .returned (.failure f) →
      isSettled s.world d.terms.rfqId d.terms.quoteId = false →
        classifySettleFailure f = .transient →
      WorkStep _ s (.work i) (s.setWork i ((s.works i).throws a))
  | terminal {s : State} {i a : ℕ} {d : QuoteSettleJob} {f : AcceptQuoteFailure}
      {reason : SettleFailureReason} {disposition : QuoteDisposition} :
      (s.works i).job = some d → (s.works i).actors a = .returned (.failure f) →
      isSettled s.world d.terms.rfqId d.terms.quoteId = false →
      classifySettleFailure f = .terminal reason disposition →
      WorkStep _ s (.unsettled i) (s.goto i a (.failing reason disposition false))
  | thrown {s : State} {i a : ℕ} : ((s.works i).actors a).Throws →
      WorkStep _ s (.work i) (s.setWork i ((s.works i).throws a))
  /-- The worker crashes, and the job is delivered again. -/
  | crash {s : State} {i a : ℕ} : WorkStep _ s (.work i) (s.goto i a .idle)
  | sweep {s : State} {i a : ℕ} {row : SecondaryTrade} : (s.works i).actors a = .idle →
      s.db.trades[i]? = some row → StalePending reconcileGraceMs s.now row →
      WorkStep _ s (.work i) (s.goto i a .sweeping)
  | sweepSettled {s : State} {i a : ℕ} {row : SecondaryTrade} :
      (s.works i).actors a = .sweeping → s.db.trades[i]? = some row →
      isSettled s.world row.rfqId row.quoteId = true →
      WorkStep _ s (.work i) (s.goto i a .readopting)
  | sweepYoung {s : State} {i a : ℕ} {row : SecondaryTrade} :
      (s.works i).actors a = .sweeping → s.db.trades[i]? = some row →
      isSettled s.world row.rfqId row.quoteId = false →
      ¬ row.createdAt + abandonAfterMs reconcileGraceMs ≤ s.now →
      WorkStep _ s (.work i) (s.goto i a .idle)
  /-- The clock is read after the settler. -/
  | abandon {s : State} {i a now : ℕ} {row : SecondaryTrade} :
      (s.works i).actors a = .sweeping → s.db.trades[i]? = some row →
      isSettled s.world row.rfqId row.quoteId = false → s.now ≤ now →
      row.createdAt + abandonAfterMs reconcileGraceMs ≤ now →
      WorkStep _ s (.unsettled i) ({ s with now }.goto i a .abandoning)
  | tick {s : State} {ledger now : ℕ} : s.ledger ≤ ledger → s.now ≤ now →
      WorkStep _ s .network { s with ledger, now }
  /-- A pending transaction is applied before its signatures expire. -/
  | applied {s : State} {i tx : ℕ} {d : QuoteSettleJob} {host : Host} {world : World} :
      (s.works i).job = some d → (s.works i).txs[tx]? = some .pending →
      s.ledger ≤ d.buyerSignatureExpirationLedger → s.ledger ≤ d.sellerSignatureExpirationLedger →
      acceptQuote host d.terms s.world = .ok world →
      WorkStep _ s .network ({ s with world }.setWork i
        { s.works i with txs := (s.works i).txs.set tx .success })
  /-- A pending transaction fails, or is dropped. -/
  | spent {s : State} {i tx : ℕ} {status : TxStatus} : (s.works i).txs[tx]? = some .pending →
      status = .failed ∨ status = .dropped →
      WorkStep _ s .network (s.setWork i { s.works i with txs := (s.works i).txs.set tx status })
  /-- USDC moves for other reasons. -/
  | outside {s : State} {usdc : Ledgers.Ledger Address} :
      WorkStep _ s .network { s with world := { s.world with usdc } }

/-- The steps of the attempts and sweeps, of their transactions, and of the network. -/
inductive SettleStep (reconcileGraceMs : ℕ) : State → Label → State → Prop where
  | work {s s' : State} {l : Label} : WorkStep reconcileGraceMs s l s' → SettleStep _ s l s'
  | persist {s : State} {i a : ℕ} {row : SecondaryTrade} {txHash : Option ℕ} :
      ((s.works i).actors a).adopts = some txHash → s.db.trades[i]? = some row →
      SettleStep _ s (.work i)
        ({ s with db := persistSettled i row txHash s.db }.goto i a .idle)
  /-- The database commits, but the reply is lost. -/
  | persistUnseen {s : State} {i a : ℕ} {row : SecondaryTrade} {txHash : Option ℕ} :
      ((s.works i).actors a).adopts = some txHash → s.db.trades[i]? = some row →
      SettleStep _ s (.work i)
        ({ s with db := persistSettled i row txHash s.db }.setWork i ((s.works i).throws a))
  | fail {s : State} {i a : ℕ} {row : SecondaryTrade} {reason : SettleFailureReason}
      {disposition : QuoteDisposition} :
      ((s.works i).actors a).fails = some (reason, disposition) → s.db.trades[i]? = some row →
      SettleStep _ s (.work i)
        ({ s with db := failTrade i row reason disposition s.db }.goto i a .idle)
  /-- The database commits, but the reply is lost. -/
  | failUnseen {s : State} {i a : ℕ} {row : SecondaryTrade} {reason : SettleFailureReason}
      {disposition : QuoteDisposition} :
      ((s.works i).actors a).fails = some (reason, disposition) → s.db.trades[i]? = some row →
      SettleStep _ s (.work i)
        ({ s with db := failTrade i row reason disposition s.db }.setWork i ((s.works i).throws a))

end Marketplace
