import Tove.Base.Since
import Tove.Wallets.Rotation

/-!
# The export of a wallet

An export moves what an embedded wallet holds to an address outside, as a rotation does, and
then latches the wallet as exported. `initiate` refuses while a rotation is active, as the
initiation of a rotation refuses while an export is. `submit` claims and confirms the items;
when its items are all confirmed it reads their balances, and finalizes the export. `status`
confirms the items that are stuck when it finds that the balance is gone; when the items are
then all confirmed, it finalizes the export as well.

The calls run beside those on the rotations of the wallet. What the relayer answers to a
transfer is arbitrary, and what the transfer takes is among the other transfers out of the
wallet. The balances that are read, and the items that are confirmed, are noted.
-/

namespace WalletExports

open Soroban Rows

/-! ### The rows -/

/-- `WALLET_EXPORT_STATUSES`. -/
inductive WalletExportStatus where
  | pending
  | submitting
  | completed
  | failed
  deriving DecidableEq, Repr

/-- `WALLET_EXPORT_ITEM_STATUSES`. -/
inductive WalletExportItemStatus where
  | pending
  | submitted
  | confirmed
  | failed
  deriving DecidableEq, Repr

/-- A row of `wallet_exports` of the wallet; `completedAt` is whether it is set. -/
structure WalletExport where
  targetAddress : Address
  status : WalletExportStatus
  completedAt : Bool
  deriving DecidableEq, Repr

/-- A row of `wallet_export_items`. -/
structure WalletExportItem where
  exportId : ℕ
  tokenContract : Address
  amountScaled : ℕ
  status : WalletExportItemStatus
  deriving DecidableEq, Repr

/-- `CHK_wallet_exports_completed_at`. -/
def WalletExport.Checked (row : WalletExport) : Prop :=
  row.status = .completed ↔ row.completedAt = true

instance (row : WalletExport) : Decidable row.Checked := inferInstanceAs (Decidable (_ ↔ _))

/-- The export is active, for a rotation that is initiated. -/
def WalletExport.InFlight (row : WalletExport) : Prop :=
  row.status = .pending ∨ row.status = .submitting

/-- The rotation is active, for an export that is initiated. -/
def InFlight (row : Rotation.WalletRotationTransfer) : Prop :=
  (row.status = .pending ∨ row.status = .submitting) ∧ row.deleted = false

/-- A copy of an item, as a call has it in memory, with the id of the item. -/
abbrev Copy : Type := ℕ × WalletExportItem

/-- The items of an export. -/
def itemsOf (items : List WalletExportItem) (exportId : ℕ) : List Copy :=
  (items.zipIdx.filter fun p => p.1.exportId = exportId).map fun p => (p.2, p.1)

/-! ### The statements -/

/-- `upsertItemBuild`. An item that the call has found earlier is built again; otherwise one is
inserted, without a look at the table. -/
def upsertItemBuild (items : List WalletExportItem) (existingId : Option ℕ) (exportId : ℕ)
    (tokenContract : Address) (amountScaled : ℕ) : List WalletExportItem :=
  match existingId with
  | some id => items.modify id fun row => { row with amountScaled, status := .pending }
  | none => items ++ [⟨exportId, tokenContract, amountScaled, .pending⟩]

/-- `claimItemForSubmit`. -/
def claimItemForSubmit (items : List WalletExportItem) (itemId : ℕ) :
    Option (List WalletExportItem) :=
  compareAndSet items itemId (fun row => row.status = .pending ∨ row.status = .failed)
    fun row => { row with status := .submitted }

/-- `markItemConfirmed`, whatever the status. -/
def markItemConfirmed (items : List WalletExportItem) (itemId : ℕ) : List WalletExportItem :=
  items.modify itemId fun row => { row with status := .confirmed }

/-- `reconcileItemConfirmed`. -/
def reconcileItemConfirmed (items : List WalletExportItem) (itemId : ℕ) :
    Option (List WalletExportItem) :=
  compareAndSet items itemId (fun row => row.status = .submitted)
    fun row => { row with status := .confirmed }

/-- `markItemFailed`, whatever the status. -/
def markItemFailed (items : List WalletExportItem) (itemId : ℕ) : List WalletExportItem :=
  items.modify itemId fun row => { row with status := .failed }

/-- The items of an export are all confirmed, and there is one: the count of
`finalizeIfAllConfirmed`. -/
def AllConfirmed (items : List WalletExportItem) (exportId : ℕ) : Prop :=
  (∃ row ∈ items, row.exportId = exportId)
    ∧ ∀ row ∈ items, row.exportId = exportId → row.status = .confirmed

/-- The export is completed. -/
def complete (exports : List WalletExport) (exportId : ℕ) : List WalletExport :=
  exports.modify exportId fun row => { row with status := .completed, completedAt := true }

/-- The export is marked as being submitted, whatever its status, if the constraint allows. -/
def demote (exports : List WalletExport) (exportId : ℕ) : Option (List WalletExport) :=
  compareAndSet exports exportId (fun row => { row with status := .submitting }.Checked)
    fun row => { row with status := .submitting }

/-- What the map of the items by token may have for a token: one of them, when there is one. -/
def ExistingFor (existing : List Copy) (token : Address) : Option Copy → Prop
  | some copy => copy ∈ existing ∧ copy.2.tokenContract = token
  | none => ∀ copy ∈ existing, copy.2.tokenContract ≠ token

/-! ### The calls -/

/-- A token with an amount. -/
abbrev Holding : Type := Address × ℕ

/-- Where a call stands, as for a rotation; `initiate` and `submit` have first `resolved` the
wallet. A call has `caught` that the statement that confirms an item was not acknowledged. A call
that is `completing` has the lock of the wallet. -/
inductive Phase where
  | idle
  | resolved (target : Address)
  | reading (target : Address) (holdings : List Holding)
  | creating (target : Address) (holdings : List Holding)
  | building (exportId : ℕ) (target : Address) (existing : List Copy) (holdings : List Holding)
  | submitting (exportId : ℕ) (copies : List Copy)
  | claimed (exportId : ℕ) (copies : List Copy) (copy : Copy)
  | caught (exportId : ℕ) (copies : List Copy) (copy : Copy)
  | checking (exportId : ℕ) (tokens : List Address)
  | polling (exportId : ℕ) (copies stuck drained : List Copy)
  | reconciling (exportId : ℕ) (copies drained : List Copy)
  | finalizing (exportId : ℕ) (allBalancesZero : Bool)
  | completing (exportId : ℕ)

/-- What is noted: a balance that is found to be zero, and an item of an export that is
confirmed. -/
inductive Event where
  | zero (token : Address)
  | confirmed (itemId exportId : ℕ)
  deriving DecidableEq, Repr

/-- The rotations of the wallet with its balances, whether the wallet is exported, the exports with
their items, what has been noted, and the calls. -/
structure State where
  rotation : Rotation.State
  exported : Bool
  exports : List WalletExport
  items : List WalletExportItem
  events : List Event
  calls : ℕ → Phase

/-- A call enters a phase. -/
def State.enter (s : State) (n : ℕ) (phase : Phase) : State :=
  { s with calls := Function.update s.calls n phase }

/-- A call enters a phase, and something is noted. -/
def State.note (s : State) (n : ℕ) (phase : Phase) (event : Event) : State :=
  { s with calls := Function.update s.calls n phase, events := s.events ++ [event] }

/-- The status of a copy is written. -/
def mark (copies : List Copy) (id : ℕ) (status : WalletExportItemStatus) : List Copy :=
  copies.map fun copy => if copy.1 = id then (id, { copy.2 with status }) else copy

/-- The copies are all confirmed, and there is one. -/
def AllCopies (copies : List Copy) : Prop :=
    copies ≠ [] ∧ ∀ copy ∈ copies, copy.2.status = .confirmed

/-- Some call has the lock of the wallet. -/
def State.Locked (s : State) : Prop := ∃ n exportId, s.calls n = .completing exportId

/-- The transaction that latches the wallet, which is done once, and completes the export. -/
def State.latch (s : State) (exportId : ℕ) : State :=
  { s with exported := true, exports := complete s.exports exportId }

/-- What is seen of a step. -/
inductive Label where
  | create
  | upsert (exportId : ℕ)
  | confirm (exportId : ℕ)
  | check (exportId : ℕ) (copies : List Copy)
  | reconciled (exportId : ℕ)
  | latch (exportId : ℕ)
  | rotation (label : Rotation.Label)
  | other

/-- The steps of the calls on the exports, beside those on the rotations and of the chain. -/
inductive Step : State → Label → State → Prop where
  /-- The wallet is not exported. -/
  | resolve {s : State} {n : ℕ} {target : Address} : s.calls n = .idle → s.exported = false →
      Step s .other (s.enter n (.resolved target))
  /-- No rotation is active. -/
  | initiate {s : State} {n : ℕ} {target : Address} : s.calls n = .resolved target →
      (∀ row ∈ s.rotation.rotations, ¬ InFlight row) →
      Step s .other (s.enter n (.reading target []))
  | read {s : State} {n : ℕ} {target token : Address} {holdings : List Holding} :
      s.calls n = .reading target holdings → (∀ h ∈ holdings, h.1 ≠ token) →
      0 < s.rotation.balances token →
      Step s .other
        (s.enter n (.reading target (holdings ++ [(token, s.rotation.balances token)])))
  | readZero {s : State} {n : ℕ} {target token : Address} {holdings : List Holding} :
      s.calls n = .reading target holdings → s.rotation.balances token = 0 →
      Step s .other (s.note n (.reading target holdings) (.zero token))
  /-- `findActiveByWalletIdWithItems`, for the same target. -/
  | found {s : State} {n exportId : ℕ} {target : Address} {holdings : List Holding}
      {row : WalletExport} : s.calls n = .reading target holdings → holdings ≠ [] →
      s.exports[exportId]? = some row → row.status ≠ .completed → row.targetAddress = target →
      Step s .other (s.enter n (.building exportId target (itemsOf s.items exportId) holdings))
  | absent {s : State} {n : ℕ} {target : Address} {holdings : List Holding} :
      s.calls n = .reading target holdings → holdings ≠ [] →
      (∀ row ∈ s.exports, row.status = .completed) →
      Step s .other (s.enter n (.creating target holdings))
  | create {s : State} {n : ℕ} {target : Address} {holdings : List Holding} :
      s.calls n = .creating target holdings → (∀ row ∈ s.exports, row.status = .completed) →
      Step s .create (State.enter { s with exports := s.exports ++ [⟨target, .pending, false⟩] }
        n (.building s.exports.length target [] holdings))
  /-- Another call has created the export; its target is not looked at. -/
  | conflict {s : State} {n exportId : ℕ} {target : Address} {holdings : List Holding}
      {row : WalletExport} : s.calls n = .creating target holdings →
      s.exports[exportId]? = some row → row.status ≠ .completed →
      Step s .other (s.enter n (.building exportId target (itemsOf s.items exportId) holdings))
  /-- A confirmed item is not built again. -/
  | skip {s : State} {n exportId : ℕ} {target : Address} {existing : List Copy} {holding : Holding}
      {holdings : List Holding} {copy : Copy} :
      s.calls n = .building exportId target existing (holding :: holdings) →
      ExistingFor existing holding.1 (some copy) → copy.2.status = .confirmed →
      Step s .other (s.enter n (.building exportId target existing holdings))
  | upsert {s : State} {n exportId : ℕ} {target : Address} {existing : List Copy}
      {holding : Holding} {holdings : List Holding} {existingCopy : Option Copy}
      {items : List WalletExportItem} :
      s.calls n = .building exportId target existing (holding :: holdings) →
      ExistingFor existing holding.1 existingCopy →
      (∀ copy, existingCopy = some copy → copy.2.status ≠ .confirmed) →
      upsertItemBuild s.items (existingCopy.map Prod.fst) exportId holding.1 holding.2 = items →
      Step s (.upsert exportId)
        (State.enter { s with items } n (.building exportId target existing holdings))
  /-- `findOwnedWithItems`. -/
  | load {s : State} {n exportId : ℕ} {target : Address} {row : WalletExport} :
      s.calls n = .resolved target → s.exports[exportId]? = some row →
      Step s .other (s.enter n (.submitting exportId (itemsOf s.items exportId)))
  | claim {s : State} {n exportId : ℕ} {copies : List Copy} {copy : Copy}
      {items : List WalletExportItem} : s.calls n = .submitting exportId copies → copy ∈ copies →
      copy.2.status ≠ .confirmed → claimItemForSubmit s.items copy.1 = some items →
      Step s .other (State.enter { s with items } n (.claimed exportId copies copy))
  /-- The target is allowed, and the relayer reports success. -/
  | confirm {s : State} {n exportId : ℕ} {copies : List Copy} {copy : Copy} :
      s.calls n = .claimed exportId copies copy →
      Step s (.confirm exportId) (State.note { s with items := markItemConfirmed s.items copy.1 } n
        (.submitting exportId (mark copies copy.1 .confirmed)) (.confirmed copy.1 exportId))
  /-- The statement is committed, and this is not acknowledged. -/
  | confirmLost {s : State} {n exportId : ℕ} {copies : List Copy} {copy : Copy} :
      s.calls n = .claimed exportId copies copy →
      Step s (.confirm exportId) (State.note { s with items := markItemConfirmed s.items copy.1 } n
        (.caught exportId copies copy) (.confirmed copy.1 exportId))
  /-- The target is not allowed, the relayer reports an error, or a confirmation is lost, that of
  the transfer or that of the statement. -/
  | fail {s : State} {n exportId : ℕ} {copies : List Copy} {copy : Copy} :
      s.calls n = .claimed exportId copies copy ∨ s.calls n = .caught exportId copies copy →
      Step s .other (State.enter { s with items := markItemFailed s.items copy.1 } n
        (.submitting exportId (mark copies copy.1 .failed)))
  | check {s : State} {n exportId : ℕ} {copies : List Copy} :
      s.calls n = .submitting exportId copies → AllCopies copies →
      Step s (.check exportId copies)
        (s.enter n (.checking exportId (copies.map fun copy => copy.2.tokenContract)))
  | checked {s : State} {n exportId : ℕ} {token : Address} {tokens : List Address} :
      s.calls n = .checking exportId (token :: tokens) → s.rotation.balances token = 0 →
      Step s .other (s.note n (.checking exportId tokens) (.zero token))
  | gone {s : State} {n exportId : ℕ} : s.calls n = .checking exportId [] →
      Step s .other (s.enter n (.finalizing exportId true))
  /-- Some copy is not confirmed, some balance is not gone, or it cannot be read. -/
  | unchecked {s : State} {n exportId : ℕ} {copies : List Copy} {tokens : List Address} :
      s.calls n = .submitting exportId copies ∨ s.calls n = .checking exportId tokens →
      Step s .other (s.enter n (.finalizing exportId false))
  /-- `findLatestByWalletIdWithItems`: some item is submitted. -/
  | poll {s : State} {n exportId : ℕ} {row : WalletExport} : s.calls n = .idle →
      s.exports[exportId]? = some row → exportId + 1 = s.exports.length →
      (∃ copy ∈ itemsOf s.items exportId, copy.2.status = .submitted) →
      Step s .other (s.enter n (.polling exportId (itemsOf s.items exportId)
        ((itemsOf s.items exportId).filter fun copy => copy.2.status = .submitted) []))
  | drained {s : State} {n exportId : ℕ} {copies stuck drained : List Copy} {copy : Copy} :
      s.calls n = .polling exportId copies (copy :: stuck) drained →
      s.rotation.balances copy.2.tokenContract = 0 →
      Step s .other (s.note n (.polling exportId copies stuck (drained ++ [copy]))
        (.zero copy.2.tokenContract))
  | held {s : State} {n exportId : ℕ} {copies stuck drained : List Copy} {copy : Copy} :
      s.calls n = .polling exportId copies (copy :: stuck) drained →
      0 < s.rotation.balances copy.2.tokenContract →
      Step s .other (s.enter n (.polling exportId copies stuck drained))
  | polled {s : State} {n exportId : ℕ} {copies drained : List Copy} :
      s.calls n = .polling exportId copies [] drained →
      Step s .other (s.enter n (.reconciling exportId copies drained))
  | reconcile {s : State} {n exportId : ℕ} {copies drained : List Copy} {copy : Copy}
      {items : List WalletExportItem} :
      s.calls n = .reconciling exportId copies (copy :: drained) →
      reconcileItemConfirmed s.items copy.1 = some items →
      Step s (.confirm exportId) (State.note { s with items } n
        (.reconciling exportId (mark copies copy.1 .confirmed) drained) (.confirmed copy.1 exportId))
  /-- The item is no longer stuck. -/
  | unstuck {s : State} {n exportId : ℕ} {copies drained : List Copy} {copy : Copy} :
      s.calls n = .reconciling exportId copies (copy :: drained) →
      reconcileItemConfirmed s.items copy.1 = none →
      Step s .other (s.enter n (.reconciling exportId copies drained))
  | reconciled {s : State} {n exportId : ℕ} {copies : List Copy} :
      s.calls n = .reconciling exportId copies [] → AllCopies copies →
      Step s (.reconciled exportId) (s.enter n (.finalizing exportId true))
  | count {s : State} {n exportId : ℕ} : s.calls n = .finalizing exportId true → ¬ s.Locked →
      AllConfirmed s.items exportId → Step s .other (s.enter n (.completing exportId))
  | demote {s : State} {n exportId : ℕ} {allBalancesZero : Bool} {exports : List WalletExport} :
      s.calls n = .finalizing exportId allBalancesZero → ¬ s.Locked →
      (allBalancesZero = true → ¬ AllConfirmed s.items exportId) →
      demote s.exports exportId = some exports →
      Step s .other (State.enter { s with exports } n .idle)
  | latch {s : State} {n exportId : ℕ} : s.calls n = .completing exportId →
      Step s (.latch exportId) ((s.latch exportId).enter n .idle)
  /-- The call is over: it has no more to do, it throws, or the process crashes. -/
  | stop {s : State} {n : ℕ} : Step s .other (s.enter n .idle)
  /-- A step on the rotations, or of the chain. A rotation is initiated when no export is active. -/
  | rotation {s : State} {label : Rotation.Label} {rotation : Rotation.State} :
      Rotation.Step s.rotation label rotation →
      (label = .begin → ∀ row ∈ s.exports, ¬ row.InFlight) →
      Step s (.rotation label) { s with rotation }

/-- The calls on a wallet as a transition system. -/
def system : Transition.System State Label where
  init s := Rotation.system.init s.rotation ∧ s.exported = false ∧ s.exports = [] ∧ s.items = []
    ∧ s.events = [] ∧ ∀ n, s.calls n = .idle
  step := Step

end WalletExports
