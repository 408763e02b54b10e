import Tove.Base.Rows
import Tove.Offerings.Settle

/-!
# Approving an offering

Before the escrow of an offering is deployed, a number of admins of a roster have to approve it. An
approval runs in a transaction that locks the row of the offering, inserts a signature, counts the
signatures that are live, and claims the deployment when they are enough. A sweep soft-deletes the
signatures of the offerings on which one has become too old; it does not take the lock. The worker
that deploys the escrow marks the offering as deployed or as failed, and after a failure the
deployment can be claimed again.

The statements of a transaction are steps of their own. A statement sees what has been
committed, and what its own transaction has written.
-/

namespace Approvals

open Soroban Transition

open Offerings (OfferingStatus)

/-! ### The rows -/

/-- `EscrowDeployStatus`. -/
inductive EscrowDeployStatus where
  | deploying
  | deployed
  | failed
  deriving DecidableEq, Repr

/-- The columns of an offering that the approvals use. -/
structure Offering where
  status : OfferingStatus
  escrowDeployStatus : Option EscrowDeployStatus
  escrowContractAddress : Option Address
  snapshotArtistAddress : Option Address
  fractionContractId : ℕ
  deleted : Bool
  deriving DecidableEq, Repr

/-- A row of `offering_approvals`. -/
structure OfferingApproval where
  offeringId : ℕ
  adminSub : ℕ
  createdAt : ℕ
  deletedAt : Option ℕ
  deriving DecidableEq, Repr

/-- The row is a signature on the offering that is live. -/
def OfferingApproval.Live (row : OfferingApproval) (offeringId : ℕ) : Prop :=
  row.offeringId = offeringId ∧ row.deletedAt = none

instance (row : OfferingApproval) (offeringId : ℕ) : Decidable (row.Live offeringId) :=
  inferInstanceAs (Decidable (_ ∧ _))

/-- The roster, the threshold, and how long a signature is valid. -/
structure Config where
  signerSet : List ℕ
  threshold : ℕ
  ttl : ℕ

/-- `casEscrowDeploying`. -/
def Offering.casEscrowDeploying (off : Offering) : Option Offering :=
  if off.status = .planned
      ∧ (off.escrowDeployStatus = none ∨ off.escrowDeployStatus = some .failed) then
    some { off with escrowDeployStatus := some .deploying }
  else none

/-- `casEscrowDeployed`. -/
def Offering.casEscrowDeployed (off : Offering) (address : Address) : Option Offering :=
  if off.escrowDeployStatus = some .deploying ∧ off.status = .planned then
    some { off with
      escrowDeployStatus := some .deployed
      escrowContractAddress := some address
      status := .approved }
  else none

/-- `casEscrowFailed`. -/
def Offering.casEscrowFailed (off : Offering) : Option Offering :=
  if off.escrowDeployStatus = some .deploying then
    some { off with escrowDeployStatus := some .failed }
  else none

/-- `softDeleteAllForOffering`. -/
def softDeleteAllForOffering (approvals : List OfferingApproval) (offeringId now : ℕ) :
    List OfferingApproval :=
  approvals.map fun row => if row.Live offeringId then { row with deletedAt := some now } else row

/-! ### The transaction of an approval -/

/-- The errors of an approval. -/
inductive ApproveError where
  | OFFERING_NOT_FOUND
  | OFFERING_NOT_PLANNED
  | OFFERING_APPROVAL_IN_PROGRESS
  | OFFERING_ARTWORK_NOT_FRACTIONALIZED
  deriving DecidableEq, Repr

/-- The row as the transaction reads it, with the address that the approvers attest to. -/
def readOffering (artistAddresses : ℕ → Option Address) (off : Option Offering) :
    Except ApproveError Offering :=
  match off with
  | none => throw .OFFERING_NOT_FOUND
  | some off => do
    Checks.rejectIf (off.deleted = true) .OFFERING_NOT_FOUND
    Checks.rejectIf (off.status ≠ .planned) .OFFERING_NOT_PLANNED
    Checks.rejectIf (off.escrowDeployStatus = some .deploying
      ∨ off.escrowDeployStatus = some .deployed)
      .OFFERING_APPROVAL_IN_PROGRESS
    match off.snapshotArtistAddress, artistAddresses off.fractionContractId with
    | some _, _ => return off
    | none, none => throw .OFFERING_ARTWORK_NOT_FRACTIONALIZED
    | none, some artistAddress => return { off with snapshotArtistAddress := some artistAddress }

/-- A transaction of an approval: who approves what, and when it has begun. -/
structure Txn where
  adminSub : ℕ
  offeringId : ℕ
  startedAt : ℕ
  deriving DecidableEq, Repr

/-- `insertSignature`: the row that is inserted, unless the admin has a live signature. -/
def insertSignature (approvals : List OfferingApproval) (txn : Txn) : Option OfferingApproval :=
  if ∃ row ∈ approvals, row.Live txn.offeringId ∧ row.adminSub = txn.adminSub then none
  else some {
    offeringId := txn.offeringId
    adminSub := txn.adminSub
    createdAt := txn.startedAt
    deletedAt := none }

/-- The signatures that `countLiveSigners` counts, with the one that the transaction has
inserted. -/
def liveSigners (cfg : Config) (approvals : List OfferingApproval) (own : Option OfferingApproval)
    (offeringId : ℕ) : List OfferingApproval :=
  (approvals ++ own.toList).filter fun row =>
    row.Live offeringId ∧ row.adminSub ∈ cfg.signerSet

/-- An expiry pass has dealt with an offering: when it has looked, and how many signatures were on
record. -/
structure Deal where
  lookedAt : ℕ
  recorded : ℕ

/-- Where a call of `approve` stands. With the signatures that it has counted comes what the expiry
passes had dealt with by then, which is not stored. -/
inductive ApprovePhase where
  | idle
  | begun (txn : Txn)
  | locked (txn : Txn) (off : Offering)
  | signed (txn : Txn) (off : Offering) (own : Option OfferingApproval)
  | counted (txn : Txn) (off : Offering) (own : Option OfferingApproval)
      (signatures : List OfferingApproval) (deal : Option Deal)

/-- The time, the tables, the locks on the offerings, the calls of `approve`, and the expiry pass
that is under way: when it has looked, and the offerings that it is still to expire. -/
structure State where
  now : ℕ
  offerings : ℕ → Option Offering
  approvals : List OfferingApproval
  locks : ℕ → Option ℕ
  calls : ℕ → ApprovePhase
  pass : Option (ℕ × List ℕ)
  deals : ℕ → Option Deal

/-! ### The steps -/

/-- The offerings that `findExpiredOfferingIds` looks at. -/
def Offering.Expirable (off : Offering) : Prop :=
  off.status = .planned ∧ off.escrowDeployStatus = none ∧ off.deleted = false

instance (off : Offering) : Decidable off.Expirable := inferInstanceAs (Decidable (_ ∧ _))

/-- A live signature on the offering is older than it may be. -/
def Stale (cfg : Config) (s : State) (offeringId : ℕ) : Prop :=
  ∃ row ∈ s.approvals, row.Live offeringId ∧ row.createdAt + cfg.ttl < s.now

instance (cfg : Config) (s : State) (offeringId : ℕ) : Decidable (Stale cfg s offeringId) :=
  inferInstanceAs (Decidable (∃ row ∈ _, _))

/-- What `findExpiredOfferingIds` selects from. -/
def Expired (cfg : Config) (s : State) (offeringId : ℕ) : Prop :=
  (s.offerings offeringId).any (fun off => off.Expirable) = true ∧ Stale cfg s offeringId

/-- The offerings that have nothing to expire have been dealt with once the pass has looked. -/
def State.look (cfg : Config) (s : State) : ℕ → Option Deal := fun offeringId =>
  if (s.offerings offeringId).any (fun off => off.Expirable) = true ∧ ¬ Stale cfg s offeringId then
    some ⟨s.now, s.approvals.length⟩
  else s.deals offeringId

/-- A call enters a phase. -/
def State.enter (s : State) (n : ℕ) (phase : ApprovePhase) : State :=
  { s with calls := Function.update s.calls n phase }

/-- A call no longer holds a lock. -/
def State.unlock (s : State) (n : ℕ) : State :=
  { s with locks := fun offeringId =>
      if s.locks offeringId = some n then none else s.locks offeringId }

/-- A row is written, and a signature with it. -/
def State.write (s : State) (offeringId : ℕ) (off : Offering) (own : Option OfferingApproval) :
    State :=
  { s with
    offerings := Function.update s.offerings offeringId (some off)
    approvals := s.approvals ++ own.toList }

/-- What is seen of a step: a call claims the deployment of an offering, the deployment of an
offering fails, or anything else. -/
inductive Label where
  | claim (n offeringId : ℕ)
  | fail (offeringId : ℕ)
  | other
  deriving DecidableEq, Repr

/-- The steps of the approvals, the expiry passes and the deployments. -/
inductive Step (cfg : Config) (artistAddresses : ℕ → Option Address) :
    State → Label → State → Prop where
  | tick {s : State} {now : ℕ} : s.now ≤ now → Step _ _ s .other { s with now }
  | plan {s : State} {offeringId : ℕ} {off : Offering} : s.offerings offeringId = none →
      off.escrowDeployStatus = none →
      Step _ _ s .other { s with offerings := Function.update s.offerings offeringId (some off) }
  /-- The roster is the gate. -/
  | start {s : State} {n adminSub offeringId : ℕ} : s.calls n = .idle → adminSub ∈ cfg.signerSet →
      Step _ _ s .other (s.enter n (.begun ⟨adminSub, offeringId, s.now⟩))
  | lock {s : State} {n : ℕ} {txn : Txn} {off : Offering} : s.calls n = .begun txn →
      s.locks txn.offeringId = none →
      readOffering artistAddresses (s.offerings txn.offeringId) = .ok off →
      Step _ _ s .other (State.enter { s with
        locks := Function.update s.locks txn.offeringId (some n) } n (.locked txn off))
  | insert {s : State} {n : ℕ} {txn : Txn} {off : Offering} : s.calls n = .locked txn off →
      Step _ _ s .other (s.enter n (.signed txn off (insertSignature s.approvals txn)))
  | count {s : State} {n : ℕ} {txn : Txn} {off : Offering} {own : Option OfferingApproval} :
      s.calls n = .signed txn off own →
      Step _ _ s .other (s.enter n (.counted txn off own
        (liveSigners cfg s.approvals own txn.offeringId) (s.deals txn.offeringId)))
  | claim {s : State} {n : ℕ} {txn : Txn} {off off' : Offering} {own : Option OfferingApproval}
      {signatures : List OfferingApproval} {deal : Option Deal} :
      s.calls n = .counted txn off own signatures deal → cfg.threshold ≤ signatures.length →
      off.casEscrowDeploying = some off' →
      Step _ _ s (.claim n txn.offeringId)
        (((s.write txn.offeringId off' own).unlock n).enter n .idle)
  | record {s : State} {n : ℕ} {txn : Txn} {off : Offering} {own : Option OfferingApproval}
      {signatures : List OfferingApproval} {deal : Option Deal} :
      s.calls n = .counted txn off own signatures deal →
      ¬ cfg.threshold ≤ signatures.length ∨ off.casEscrowDeploying = none →
      Step _ _ s .other (((s.write txn.offeringId off own).unlock n).enter n .idle)
  /-- A transaction is rolled back. -/
  | rollback {s : State} {n : ℕ} : Step _ _ s .other ((s.unlock n).enter n .idle)
  /-- A pass looks for signatures that are too old. It takes a batch of the offerings that have
  any. -/
  | look {s : State} {ids : List ℕ} : s.pass = none → (∀ id ∈ ids, Expired cfg s id) →
      Step _ _ s .other { s with pass := some (s.now, ids), deals := s.look cfg }
  | expire {s : State} {lookedAt offeringId : ℕ} {rest : List ℕ} :
      s.pass = some (lookedAt, offeringId :: rest) →
      Step _ _ s .other { s with
        approvals := softDeleteAllForOffering s.approvals offeringId s.now
        pass := some (lookedAt, rest)
        deals := Function.update s.deals offeringId (some ⟨lookedAt, s.approvals.length⟩) }
  | expireFailed {s : State} {lookedAt offeringId : ℕ} {rest : List ℕ} :
      s.pass = some (lookedAt, offeringId :: rest) →
      Step _ _ s .other { s with pass := some (lookedAt, rest) }
  | endPass {s : State} : Step _ _ s .other { s with pass := none }
  | deployed {s : State} {offeringId : ℕ} {off off' : Offering} {address : Address} :
      s.offerings offeringId = some off → s.locks offeringId = none →
      off.casEscrowDeployed address = some off' →
      Step _ _ s .other { s with
        offerings := Function.update s.offerings offeringId (some off')
        approvals := softDeleteAllForOffering s.approvals offeringId s.now }
  | failed {s : State} {offeringId : ℕ} {off off' : Offering} : s.offerings offeringId = some off →
      s.locks offeringId = none → off.casEscrowFailed = some off' →
      Step _ _ s (.fail offeringId) { s with
        offerings := Function.update s.offerings offeringId (some off') }
  /-- Once it is approved, an offering opens, closes and is settled. -/
  | proceed {s : State} {offeringId : ℕ} {off : Offering} {status : OfferingStatus} :
      s.offerings offeringId = some off → s.locks offeringId = none → off.status ≠ .planned →
      status ≠ .planned →
      Step _ _ s .other { s with
        offerings := Function.update s.offerings offeringId (some { off with status }) }

/-- The approvals as a transition system, before the first of them. -/
def system (cfg : Config) (artistAddresses : ℕ → Option Address) :
    Transition.System State Label where
  init s := (∀ id off, s.offerings id = some off → off.escrowDeployStatus = none) ∧ s.approvals = []
    ∧ (∀ id, s.locks id = none) ∧ (∀ n, s.calls n = .idle) ∧ s.pass = none ∧ ∀ id, s.deals id = none
  step := Step cfg artistAddresses

end Approvals
