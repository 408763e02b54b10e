import Mathlib.Logic.Function.Basic
import Tove.Base.Rows
import Tove.Base.Transition
import Tove.Soroban

/-!
# The rotation of a wallet

A rotation moves the fractions that an embedded wallet holds to another wallet of its owner: one
transfer for each token, signed by the passkey of the wallet. `initiate` reads the balances and
stores a transfer for each token that is held, `submit` claims an item, sends its transfer and
confirms it, `status` confirms the items that are stuck when it finds that the balance is gone,
and `cancel` drops the rotation. An item that is confirmed has a `custody_transfer` row.

The calls run concurrently, and may stop before any statement. A transfer that has been sent
lands at any later time, but once, or not at all; what `submit` is told may be an error in
either case. Other transfers into the wallet and out of it happen at any time.
-/

namespace Rotation

open Soroban

/-! ### The rows -/

/-- `WALLET_ROTATION_STATUSES`. -/
inductive WalletRotationStatus where
  | pending
  | submitting
  | completed
  | failed
  deriving DecidableEq, Repr

/-- `WALLET_ROTATION_ITEM_STATUSES`. -/
inductive WalletRotationItemStatus where
  | pending
  | submitted
  | confirmed
  | failed
  deriving DecidableEq, Repr

/-- A row of `wallet_rotation_transfers` of the wallet. The destination is never written again. -/
structure WalletRotationTransfer where
  destinationAddress : Address
  status : WalletRotationStatus
  deleted : Bool
  deriving DecidableEq, Repr

/-- `unsignedTxXdr`: the transfer that the passkey is to sign. It can land once. -/
structure TransferTx where
  nonce : ℕ
  token : Address
  recipient : Address
  amount : ℕ
  deriving DecidableEq, Repr

/-- The hash of a transaction and its ledger. -/
structure Receipt where
  txHash : ℕ
  ledger : ℕ
  deriving DecidableEq, Repr

/-- A row of `wallet_rotation_transfer_items`. -/
structure WalletRotationTransferItem where
  rotationId : ℕ
  tokenContract : Address
  amountScaled : ℕ
  status : WalletRotationItemStatus
  unsignedTxXdr : TransferTx
  receipt : Option Receipt
  deleted : Bool
  deriving DecidableEq, Repr

/-- A row of `registry_events`, which is a `custody_transfer` out of the wallet. `sourceRef` is the
item, and unique. -/
structure RegistryEvent where
  toAddress : Address
  tokenContract : Address
  amountScaled : ℕ
  receipt : Option Receipt
  sourceRef : ℕ
  deriving DecidableEq, Repr

/-- A row is live, and is not completed: `UQ_wrt_source_active`. -/
def WalletRotationTransfer.Active (row : WalletRotationTransfer) : Prop :=
  row.status ≠ .completed ∧ row.deleted = false

instance (row : WalletRotationTransfer) : Decidable row.Active :=
    inferInstanceAs (Decidable (_ ∧ _))

/-- A row is a live item of the rotation. -/
def WalletRotationTransferItem.Of (row : WalletRotationTransferItem) (rotationId : ℕ) : Prop :=
  row.rotationId = rotationId ∧ row.deleted = false

instance (row : WalletRotationTransferItem) (rotationId : ℕ) : Decidable (row.Of rotationId) :=
  inferInstanceAs (Decidable (_ ∧ _))

/-- `status` looks at the item. -/
def WalletRotationTransferItem.Stuck (row : WalletRotationTransferItem) : Prop :=
  row.status = .submitted ∨ row.status = .failed

instance (row : WalletRotationTransferItem) : Decidable row.Stuck :=
    inferInstanceAs (Decidable (_ ∨ _))

/-- A copy of an item, as a call has it in memory, with the id of the item. -/
abbrev Copy : Type := ℕ × WalletRotationTransferItem

/-- The live items of a rotation. -/
def itemsOf (items : List WalletRotationTransferItem) (rotationId : ℕ) : List Copy :=
  (items.zipIdx.filter fun p => p.1.Of rotationId).map fun p => (p.2, p.1)

/-- The live item of a rotation for a token: `UQ_wrti_rotation_token`. -/
def itemFor (items : List WalletRotationTransferItem) (rotationId : ℕ)
    (token : Address) : Option ℕ :=
  items.findIdx? fun row => row.Of rotationId ∧ row.tokenContract = token

/-! ### The statements -/

/-- The row with what `upsertItemBuild` writes. -/
def WalletRotationTransferItem.build (row : WalletRotationTransferItem) (tx : TransferTx) :
    WalletRotationTransferItem :=
  { row with amountScaled := tx.amount, unsignedTxXdr := tx, status := .pending }

/-- `upsertItemBuild`. An item that the call has found earlier has to be live; otherwise the item is
looked for, and inserted when there is none. -/
def upsertItemBuild (items : List WalletRotationTransferItem) (existingId : Option ℕ)
    (rotationId : ℕ)
    (tx : TransferTx) : Option (List WalletRotationTransferItem) :=
  match existingId with
  | some id => Rows.compareAndSet items id (fun row => row.deleted = false) fun row => row.build tx
  | none =>
    match itemFor items rotationId tx.token with
    | some id => Rows.compareAndSet items id (fun row => row.deleted = false) fun row => row.build tx
    | none => some (items ++ [⟨rotationId, tx.token, tx.amount, .pending, tx, none, false⟩])

/-- `claimItemForSubmit`. -/
def claimItemForSubmit (items : List WalletRotationTransferItem) (itemId : ℕ) :
    Option (List WalletRotationTransferItem) :=
  Rows.compareAndSet items itemId
    (fun row => (row.status = .pending ∨ row.status = .failed) ∧ row.deleted = false)
    fun row => { row with status := .submitted }

/-- `markItemConfirmed`, whatever the status. -/
def markItemConfirmed (items : List WalletRotationTransferItem) (itemId : ℕ) (receipt : Receipt) :
    List WalletRotationTransferItem :=
  items.modify itemId fun row => { row with status := .confirmed, receipt := some receipt }

/-- `reconcileItemConfirmed`. -/
def reconcileItemConfirmed (items : List WalletRotationTransferItem) (itemId : ℕ) :
    Option (List WalletRotationTransferItem) :=
  Rows.compareAndSet items itemId (fun row => row.Stuck) fun row => { row with status := .confirmed }

/-- `markItemFailed`, whatever the status. -/
def markItemFailed (items : List WalletRotationTransferItem) (itemId : ℕ) :
    List WalletRotationTransferItem :=
  items.modify itemId fun row => { row with status := .failed }

/-- `recordCustodyTransfer`: nothing is inserted when there is a row of the item. -/
def recordCustodyTransfer (registry : List RegistryEvent) (entry : RegistryEvent) :
    List RegistryEvent :=
  if ∃ row ∈ registry, row.sourceRef = entry.sourceRef then registry else registry ++ [entry]

/-- `custodyEntry`, from the copy of the item. -/
def custodyEntry (destinationAddress : Address) (copy : Copy) (receipt : Option Receipt) :
    RegistryEvent where
  toAddress := destinationAddress
  tokenContract := copy.2.tokenContract
  amountScaled := copy.2.amountScaled
  receipt
  sourceRef := copy.1

/-- The items of a rotation are all confirmed, and there is one: the count of
`finalizeIfAllConfirmed`. -/
def AllConfirmed (items : List WalletRotationTransferItem) (rotationId : ℕ) : Prop :=
  (∃ row ∈ items, row.Of rotationId) ∧ ∀ row ∈ items, row.Of rotationId → row.status = .confirmed

/-- The parent is marked as being submitted, unless it is completed. -/
def demote (rotations : List WalletRotationTransfer)
    (rotationId : ℕ) : List WalletRotationTransfer :=
  rotations.modify rotationId fun row =>
    if row.status = .completed then row else { row with status := .submitting }

/-- The parent is completed. -/
def complete (rotations : List WalletRotationTransfer)
    (rotationId : ℕ) : List WalletRotationTransfer :=
  rotations.modify rotationId fun row => { row with status := .completed }

/-- `softCancel`, of the items. -/
def dropItems (items : List WalletRotationTransferItem) (rotationId : ℕ) :
    List WalletRotationTransferItem :=
  items.map fun row => if row.rotationId = rotationId then { row with deleted := true } else row

/-- `softCancel`, of the parent. -/
def dropRotation (rotations : List WalletRotationTransfer) (rotationId : ℕ) :
    List WalletRotationTransfer :=
  rotations.modify rotationId fun row => { row with deleted := true }

/-! ### The calls -/

/-- A transfer that has been sent for an item. -/
structure Sent where
  item : ℕ
  tx : TransferTx
  deriving DecidableEq, Repr

/-- A token with an amount. -/
abbrev Holding : Type := Address × ℕ

/-- Where a call stands.

* `initiate` is `reading` the holdings, `creating` the rotation, and `building` the transfers of
  the remaining holdings.
* `submit` is `submitting` its copies of the items; it has `claimed` an item, has `sent` its
  transfer, or has `caught` that the transaction that confirms it was not acknowledged; it is
  `checking` the balances of the remaining tokens.
* `status` is `polling` the remaining stuck items, with those whose balance is gone so far, and
  `reconciling` these.
* `cancel` is `canceling` a rotation.
* `submit` and `status` are `finalizing`, knowing whether the balances are gone, and
  `completing`. -/
inductive Phase where
  | idle
  | reading (destination : Address) (holdings : List Holding)
  | creating (destination : Address) (holdings : List Holding)
  | building (rotationId : ℕ) (destination : Address) (existing : List Copy)
    (holdings : List Holding)
  | submitting (rotationId : ℕ) (copies : List Copy)
  | claimed (rotationId : ℕ) (copies : List Copy) (copy : Copy)
  | sent (rotationId : ℕ) (copies : List Copy) (copy : Copy)
  | caught (rotationId : ℕ) (copies : List Copy) (copy : Copy)
  | checking (rotationId : ℕ) (tokens : List Address)
  | polling (rotationId : ℕ) (copies stuck drained : List Copy)
  | reconciling (rotationId : ℕ) (copies drained : List Copy)
  | finalizing (rotationId : ℕ) (allBalancesZero : Bool)
  | completing (rotationId : ℕ)
  | canceling (rotationId : ℕ)

/-- The tables, the balances of the wallet on chain, the transfers that may still land and those
that have landed, and the calls. -/
structure State where
  rotations : List WalletRotationTransfer
  items : List WalletRotationTransferItem
  registry : List RegistryEvent
  balances : Address → ℕ
  pending : List Sent
  landed : List Sent
  calls : ℕ → Phase

/-- A call enters a phase. -/
def State.enter (s : State) (n : ℕ) (phase : Phase) : State :=
  { s with calls := Function.update s.calls n phase }

/-- The status of a copy is written. -/
def mark (copies : List Copy) (id : ℕ) (status : WalletRotationItemStatus) : List Copy :=
  copies.map fun copy => if copy.1 = id then (id, { copy.2 with status }) else copy

/-- The copies are all confirmed, and there is one. -/
def AllCopies (copies : List Copy) : Prop :=
    copies ≠ [] ∧ ∀ copy ∈ copies, copy.2.status = .confirmed

/-- The transaction of `markItemConfirmed`. -/
def State.confirm (s : State) (destination : Address) (copy : Copy) (receipt : Receipt) : State :=
  { s with
    items := markItemConfirmed s.items copy.1 receipt
    registry := recordCustodyTransfer s.registry (custodyEntry destination copy (some receipt)) }

/-- The transaction of `softCancel`. -/
def State.softCancel (s : State) (rotationId : ℕ) : State :=
  { s with
    items := dropItems s.items rotationId
    rotations := dropRotation s.rotations rotationId }

/-- What is seen of a step: a call that goes past the check for exports, a statement of a call, with
what the call has read before, or a transfer out of the wallet that is not of a rotation. -/
inductive Label where
  | begin
  | create
  | upsert (rotationId : ℕ) (token : Address)
  | claim (copy : Copy)
  | reconcile (copy : Copy)
  | complete (rotationId : ℕ)
  | softCancel (rotationId : ℕ)
  | withdraw (token : Address) (amount : ℕ)
  | other

/-- The steps of the calls and of the chain. -/
inductive Step : State → Label → State → Prop where
  /-- There is no export that is active. -/
  | initiate {s : State} {n : ℕ} {destination : Address} : s.calls n = .idle →
      Step s .begin (s.enter n (.reading destination []))
  | read {s : State} {n : ℕ} {destination token : Address} {holdings : List Holding} :
      s.calls n = .reading destination holdings → (∀ h ∈ holdings, h.1 ≠ token) →
      0 < s.balances token →
      Step s .other (s.enter n (.reading destination (holdings ++ [(token, s.balances token)])))
  /-- `findActiveBySourceWithItems`, for the same destination. -/
  | found {s : State} {n rotationId : ℕ} {destination : Address} {holdings : List Holding}
      {row : WalletRotationTransfer} : s.calls n = .reading destination holdings → holdings ≠ [] →
      s.rotations[rotationId]? = some row → row.Active → row.destinationAddress = destination →
      Step s .other
        (s.enter n (.building rotationId destination (itemsOf s.items rotationId) holdings))
  | absent {s : State} {n : ℕ} {destination : Address} {holdings : List Holding} :
      s.calls n = .reading destination holdings → holdings ≠ [] →
      (∀ row ∈ s.rotations, ¬ row.Active) →
      Step s .other (s.enter n (.creating destination holdings))
  | create {s : State} {n : ℕ} {destination : Address} {holdings : List Holding} :
      s.calls n = .creating destination holdings → (∀ row ∈ s.rotations, ¬ row.Active) →
      Step s .create (State.enter { s with rotations := s.rotations ++ [⟨destination, .pending, false⟩] }
        n (.building s.rotations.length destination [] holdings))
  /-- Another call has created the rotation; its destination is not looked at. -/
  | conflict {s : State} {n rotationId : ℕ} {destination : Address} {holdings : List Holding}
      {row : WalletRotationTransfer} : s.calls n = .creating destination holdings →
      s.rotations[rotationId]? = some row → row.Active →
      Step s .other
        (s.enter n (.building rotationId destination (itemsOf s.items rotationId) holdings))
  /-- A confirmed item is not built again. -/
  | skip {s : State} {n rotationId : ℕ} {destination : Address} {existing : List Copy}
      {holding : Holding} {holdings : List Holding} {copy : Copy} :
      s.calls n = .building rotationId destination existing (holding :: holdings) →
      existing.find? (fun copy => copy.2.tokenContract = holding.1) = some copy →
      copy.2.status = .confirmed →
      Step s .other (s.enter n (.building rotationId destination existing holdings))
  | upsert {s : State} {n rotationId nonce : ℕ} {destination : Address} {existing : List Copy}
      {holding : Holding} {holdings : List Holding} {existingCopy : Option Copy}
      {items : List WalletRotationTransferItem} :
      s.calls n = .building rotationId destination existing (holding :: holdings) →
      existing.find? (fun copy => copy.2.tokenContract = holding.1) = existingCopy →
      (∀ copy, existingCopy = some copy → copy.2.status ≠ .confirmed) →
      upsertItemBuild s.items (existingCopy.map Prod.fst) rotationId
        ⟨nonce, holding.1, destination, holding.2⟩ = some items →
      Step s (.upsert rotationId holding.1)
        (State.enter { s with items } n (.building rotationId destination existing holdings))
  /-- `findOwnedWithItems`. -/
  | load {s : State} {n rotationId : ℕ} {row : WalletRotationTransfer} : s.calls n = .idle →
      s.rotations[rotationId]? = some row → row.deleted = false →
      Step s .other (s.enter n (.submitting rotationId (itemsOf s.items rotationId)))
  | claim {s : State} {n rotationId : ℕ} {copies : List Copy} {copy : Copy}
      {items : List WalletRotationTransferItem} : s.calls n = .submitting rotationId copies →
      copy ∈ copies → copy.2.status ≠ .confirmed → claimItemForSubmit s.items copy.1 = some items →
      Step s (.claim copy) (State.enter { s with items } n (.claimed rotationId copies copy))
  /-- The stored transfer is the one that is expected, and it is signed. -/
  | send {s : State} {n rotationId : ℕ} {copies : List Copy} {copy : Copy}
      {row : WalletRotationTransfer} : s.calls n = .claimed rotationId copies copy →
      s.rotations[rotationId]? = some row → copy.2.unsignedTxXdr.token = copy.2.tokenContract →
      copy.2.unsignedTxXdr.recipient = row.destinationAddress →
      copy.2.unsignedTxXdr.amount = copy.2.amountScaled →
      Step s .other (State.enter { s with pending := s.pending ++ [⟨copy.1, copy.2.unsignedTxXdr⟩] } n
        (.sent rotationId copies copy))
  | confirm {s : State} {n rotationId : ℕ} {copies : List Copy} {copy : Copy}
      {row : WalletRotationTransfer} {receipt : Receipt} : s.calls n = .sent rotationId copies copy →
      s.rotations[rotationId]? = some row → ⟨copy.1, copy.2.unsignedTxXdr⟩ ∈ s.landed →
      Step s .other ((s.confirm row.destinationAddress copy receipt).enter n
        (.submitting rotationId (mark copies copy.1 .confirmed)))
  /-- The transaction is committed, and this is not acknowledged. -/
  | confirmLost {s : State} {n rotationId : ℕ} {copies : List Copy} {copy : Copy}
      {row : WalletRotationTransfer} {receipt : Receipt} : s.calls n = .sent rotationId copies copy →
      s.rotations[rotationId]? = some row → ⟨copy.1, copy.2.unsignedTxXdr⟩ ∈ s.landed →
      Step s .other ((s.confirm row.destinationAddress copy receipt).enter n
        (.caught rotationId copies copy))
  /-- The recipient is not allowed, the relayer refuses the transfer or reports an error, or a
  confirmation is lost, that of the transfer or that of the transaction. -/
  | fail {s : State} {n rotationId : ℕ} {copies : List Copy} {copy : Copy} :
      s.calls n = .claimed rotationId copies copy ∨ s.calls n = .sent rotationId copies copy
        ∨ s.calls n = .caught rotationId copies copy →
      Step s .other (State.enter { s with items := markItemFailed s.items copy.1 } n
        (.submitting rotationId (mark copies copy.1 .failed)))
  | check {s : State} {n rotationId : ℕ} {copies : List Copy} :
      s.calls n = .submitting rotationId copies → AllCopies copies →
      Step s .other
        (s.enter n (.checking rotationId (copies.map fun copy => copy.2.tokenContract)))
  | checked {s : State} {n rotationId : ℕ} {token : Address} {tokens : List Address} :
      s.calls n = .checking rotationId (token :: tokens) → s.balances token = 0 →
      Step s .other (s.enter n (.checking rotationId tokens))
  | gone {s : State} {n rotationId : ℕ} : s.calls n = .checking rotationId [] →
      Step s .other (s.enter n (.finalizing rotationId true))
  /-- Some copy is not confirmed, some balance is not gone, or it cannot be read. -/
  | unchecked {s : State} {n rotationId : ℕ} {copies : List Copy} {tokens : List Address} :
      s.calls n = .submitting rotationId copies ∨ s.calls n = .checking rotationId tokens →
      Step s .other (s.enter n (.finalizing rotationId false))
  /-- `findLatestBySourceWithItems`: some item is stuck. -/
  | poll {s : State} {n rotationId : ℕ} {row : WalletRotationTransfer} : s.calls n = .idle →
      s.rotations[rotationId]? = some row → row.deleted = false →
      (∀ (later : ℕ) (row' : WalletRotationTransfer), s.rotations[later]? = some row' →
        row'.deleted = false → later ≤ rotationId) →
      (∃ copy ∈ itemsOf s.items rotationId, copy.2.Stuck) →
      Step s .other (s.enter n (.polling rotationId (itemsOf s.items rotationId)
        ((itemsOf s.items rotationId).filter fun copy => copy.2.Stuck) []))
  | drained {s : State} {n rotationId : ℕ} {copies stuck drained : List Copy} {copy : Copy} :
      s.calls n = .polling rotationId copies (copy :: stuck) drained →
      s.balances copy.2.tokenContract = 0 →
      Step s .other (s.enter n (.polling rotationId copies stuck (drained ++ [copy])))
  | held {s : State} {n rotationId : ℕ} {copies stuck drained : List Copy} {copy : Copy} :
      s.calls n = .polling rotationId copies (copy :: stuck) drained →
      0 < s.balances copy.2.tokenContract →
      Step s .other (s.enter n (.polling rotationId copies stuck drained))
  | polled {s : State} {n rotationId : ℕ} {copies drained : List Copy} :
      s.calls n = .polling rotationId copies [] drained →
      Step s .other (s.enter n (.reconciling rotationId copies drained))
  | reconcile {s : State} {n rotationId : ℕ} {copies drained : List Copy} {copy : Copy}
      {row : WalletRotationTransfer} {items : List WalletRotationTransferItem} :
      s.calls n = .reconciling rotationId copies (copy :: drained) →
      s.rotations[rotationId]? = some row → reconcileItemConfirmed s.items copy.1 = some items →
      Step s (.reconcile copy) (State.enter { s with
        items
        registry := recordCustodyTransfer s.registry
          (custodyEntry row.destinationAddress copy copy.2.receipt) } n
        (.reconciling rotationId (mark copies copy.1 .confirmed) drained))
  /-- The item is no longer stuck. -/
  | unstuck {s : State} {n rotationId : ℕ} {copies drained : List Copy} {copy : Copy} :
      s.calls n = .reconciling rotationId copies (copy :: drained) →
      reconcileItemConfirmed s.items copy.1 = none →
      Step s .other (s.enter n (.reconciling rotationId copies drained))
  | reconciled {s : State} {n rotationId : ℕ} {copies : List Copy} :
      s.calls n = .reconciling rotationId copies [] → AllCopies copies →
      Step s .other (s.enter n (.finalizing rotationId true))
  | count {s : State} {n rotationId : ℕ} : s.calls n = .finalizing rotationId true →
      AllConfirmed s.items rotationId → Step s .other (s.enter n (.completing rotationId))
  | demote {s : State} {n rotationId : ℕ} {allBalancesZero : Bool} :
      s.calls n = .finalizing rotationId allBalancesZero →
      (allBalancesZero = true → ¬ AllConfirmed s.items rotationId) →
      Step s .other (State.enter { s with rotations := demote s.rotations rotationId } n .idle)
  | complete {s : State} {n rotationId : ℕ} : s.calls n = .completing rotationId →
      Step s (.complete rotationId)
        (State.enter { s with rotations := complete s.rotations rotationId } n .idle)
  | cancel {s : State} {n rotationId : ℕ} {row : WalletRotationTransfer} : s.calls n = .idle →
      s.rotations[rotationId]? = some row → row.Active →
      (∀ copy ∈ itemsOf s.items rotationId, copy.2.status ≠ .submitted
        ∧ copy.2.status ≠ .confirmed) →
      Step s .other (s.enter n (.canceling rotationId))
  | softCancel {s : State} {n rotationId : ℕ} : s.calls n = .canceling rotationId →
      Step s (.softCancel rotationId) ((s.softCancel rotationId).enter n .idle)
  /-- The call is over: it has no more to do, it throws, or the process crashes. -/
  | stop {s : State} {n : ℕ} : Step s .other (s.enter n .idle)
  /-- A transfer lands, for the first time. -/
  | land {s : State} {t : Sent} : t ∈ s.pending → (∀ t' ∈ s.landed, t'.tx.nonce ≠ t.tx.nonce) →
      t.tx.amount ≤ s.balances t.tx.token →
      Step s .other { s with
        balances := Function.update s.balances t.tx.token (s.balances t.tx.token - t.tx.amount)
        pending := s.pending.filter fun t' => t' ≠ t
        landed := s.landed ++ [t] }
  /-- A transfer fails, or expires. -/
  | fade {s : State} {t : Sent} :
      Step s .other { s with pending := s.pending.filter fun t' => t' ≠ t }
  | deposit {s : State} {token : Address} {amount : ℕ} :
      Step s .other
        { s with balances := Function.update s.balances token (s.balances token + amount) }
  | withdraw {s : State} {token : Address} {amount : ℕ} : amount ≤ s.balances token →
      Step s (.withdraw token amount)
        { s with balances := Function.update s.balances token (s.balances token - amount) }

/-- The calls on a wallet as a transition system. -/
def system : Transition.System State Label where
  init s := s.rotations = [] ∧ s.items = [] ∧ s.registry = [] ∧ s.pending = [] ∧ s.landed = []
    ∧ ∀ n, s.calls n = .idle
  step := Step

end Rotation
