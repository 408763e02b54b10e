import Tove.Base.ReadCommitted
import Tove.Base.Transition

/-!
# The primary wallet

A user has several wallets, one of which is the primary one: it is where the user is paid. A
wallet is bound, brought back after it was removed, made the primary one, or removed. Each of
these is a transaction at READ COMMITTED without row locks: it reads some rows, decides from
them, and updates rows by their ids. `UQ_wallets_primary_active` refuses a second primary
wallet, and a transaction that it refuses is tried once more.
-/

namespace PrimaryWallet

open ReadCommitted

/-! ### The rows -/

/-- `WalletKind`. -/
inductive WalletKind where
  | byow
  | embeddedPasskey
  deriving DecidableEq, Repr

/-- `WalletStatus`. -/
inductive WalletStatus where
  | active
  | exported
  deriving DecidableEq, Repr

/-- A row of `wallets` of the user. -/
structure Wallet where
  publicKey : Option String
  kind : WalletKind
  isPrimary : Bool
  status : WalletStatus
  deleted : Bool
  createdAt : ℕ
  deriving DecidableEq, Repr

/-- `UQ_wallets_primary_active`. -/
def Wallet.LivePrimary (row : Wallet) : Prop := row.isPrimary = true ∧ row.deleted = false

instance (row : Wallet) : Decidable row.LivePrimary := inferInstanceAs (Decidable (_ ∧ _))

/-- A wallet that may be the primary one. -/
def Wallet.Eligible (row : Wallet) : Prop :=
  row.kind = .byow ∧ row.status = .active ∧ row.deleted = false

instance (row : Wallet) : Decidable row.Eligible := inferInstanceAs (Decidable (_ ∧ _ ∧ _))

/-- What `reactivateRow` writes. -/
def Wallet.reactivate (row : Wallet) (isPrimary : Bool) : Wallet :=
  { row with isPrimary, status := .active, deleted := false }

/-- The order in which a sibling is looked for. -/
def Older (k k' : ℕ) (row row' : Wallet) : Prop :=
  row.createdAt < row'.createdAt ∨ row.createdAt = row'.createdAt ∧ k ≤ k'

/-! ### The calls -/

/-- What is asked for. `reactivate` is the log in with a wallet that was removed. -/
inductive Operation where
  | bindByow (publicKey : String)
  | reactivate (walletId : ℕ)
  | setPrimary (walletId : ℕ)
  | removeWallet (walletId : ℕ)
  deriving DecidableEq, Repr

/-- How far a transaction is. * It has `begun`. A wallet is bound or brought back: it is about
to be `counting` the primary wallets, knowing the row that is there, and to be `saving` the row.
* A wallet is made the primary one: it is `found` and is not, and the current one is looked for.
Then the one is to be demoted, and the other promoted. * A wallet is removed: when it is the
primary one, a sibling is looked for (`seeking`). After the sibling is promoted, the wallet is
deleted. When it is not, it is unbound. * There is nothing left but to be committed. -/
inductive Stage where
  | begun
  | counting (own : Option ℕ)
  | saving (own : Option ℕ) (isPrimary : Bool)
  | found
  | seeking
  | demoting (current target : ℕ)
  | promoting (target : ℕ)
  | deleting (target : ℕ)
  | unbinding
  | committing
  deriving DecidableEq, Repr

/-- A call is idle, or it has a transaction; `allowPrimary` is set for the first attempt. -/
inductive Phase where
  | idle
  | running (operation : Operation) (allowPrimary : Bool) (stage : Stage)
  deriving DecidableEq, Repr

/-- The table, and the calls. -/
structure State where
  wallets : Store ℕ Wallet
  calls : ℕ → Phase

/-- A call enters a phase. -/
def State.enter (s : State) (n : ℕ) (phase : Phase) : State :=
  { s with calls := Function.update s.calls n phase }

/-- A statement of a call writes a row. -/
def State.write (s : State) (n : ℕ) (walletId : ℕ) (row : Wallet) (phase : Phase) : State :=
  { wallets := s.wallets.write n walletId row, calls := Function.update s.calls n phase }

/-- What is seen of a step: a wallet is unbound that was not the primary one when it was read, a
row is written that is to be live and not the primary one, or something else. -/
inductive Label where
  | unbind (walletId : ℕ)
  | restore (walletId : ℕ)
  | other

/-- The statements of the transactions. -/
inductive Step : State → Label → State → Prop where
  | start {s : State} {n : ℕ} {operation : Operation} : s.calls n = .idle →
      (∀ walletId, operation ≠ .reactivate walletId) →
      Step s .other (s.enter n (.running operation true .begun))
  /-- `findAnyByPublicKey`, outside of the transaction. -/
  | login {s : State} {n walletId : ℕ} {row : Wallet} : s.calls n = .idle →
      s.wallets.committed walletId = some row →
      Step s .other (s.enter n (.running (.reactivate walletId) true .begun))
  /-- There is a row with the key, which is live. -/
  | bound {s : State} {n k : ℕ} {publicKey : String} {allowPrimary : Bool} {row : Wallet} :
      s.calls n = .running (.bindByow publicKey) allowPrimary .begun →
      s.wallets.view n k = some row → row.publicKey = some publicKey → row.deleted = false →
      Step s .other (s.enter n (.running (.bindByow publicKey) allowPrimary .committing))
  /-- There is a row with the key, which was removed. -/
  | own {s : State} {n k : ℕ} {publicKey : String} {allowPrimary : Bool} {row : Wallet} :
      s.calls n = .running (.bindByow publicKey) allowPrimary .begun →
      s.wallets.view n k = some row → row.publicKey = some publicKey → row.deleted = true →
      Step s .other (s.enter n (.running (.bindByow publicKey) allowPrimary (.counting (some k))))
  | unknown {s : State} {n : ℕ} {publicKey : String} {allowPrimary : Bool} :
      s.calls n = .running (.bindByow publicKey) allowPrimary .begun →
      (∀ k row, s.wallets.view n k = some row → row.publicKey ≠ some publicKey) →
      Step s .other (s.enter n (.running (.bindByow publicKey) allowPrimary (.counting none)))
  /-- The row is not read again. -/
  | reactivating {s : State} {n walletId : ℕ} {allowPrimary : Bool} :
      s.calls n = .running (.reactivate walletId) allowPrimary .begun →
      Step s .other
        (s.enter n (.running (.reactivate walletId) allowPrimary (.counting (some walletId))))
  | count {s : State} {n : ℕ} {operation : Operation} {allowPrimary isPrimary : Bool}
      {own : Option ℕ} : s.calls n = .running operation allowPrimary (.counting own) →
      (isPrimary = true ↔ allowPrimary = true
        ∧ ∀ k row, s.wallets.view n k = some row → ¬ row.LivePrimary) →
      Step s .other (s.enter n (.running operation allowPrimary (.saving own isPrimary)))
  | insert {s : State} {n walletId createdAt : ℕ} {publicKey : String}
      {allowPrimary isPrimary : Bool} :
      s.calls n = .running (.bindByow publicKey) allowPrimary (.saving none isPrimary) →
      s.wallets.committed walletId = none → (∀ m, s.wallets.writes m walletId = none) →
      (isPrimary = true → s.wallets.Admits Wallet.LivePrimary n walletId) →
      Step s .other (s.write n walletId ⟨some publicKey, .byow, isPrimary, .active, false, createdAt⟩
        (.running (.bindByow publicKey) allowPrimary .committing))
  /-- `reactivateRow`. -/
  | reactivateRow {s : State} {n walletId : ℕ} {operation : Operation} {allowPrimary : Bool}
      {row : Wallet} : s.calls n = .running operation allowPrimary (.saving (some walletId) true) →
      s.wallets.view n walletId = some row → s.wallets.Free n walletId →
      s.wallets.Admits Wallet.LivePrimary n walletId →
      Step s .other (s.write n walletId (row.reactivate true)
        (.running operation allowPrimary .committing))
  /-- `reactivateRow`, of a row that is not to be the primary one. -/
  | restore {s : State} {n walletId : ℕ} {operation : Operation} {allowPrimary : Bool}
      {row : Wallet} : s.calls n = .running operation allowPrimary (.saving (some walletId) false) →
      s.wallets.view n walletId = some row → s.wallets.Free n walletId →
      Step s (.restore walletId) (s.write n walletId (row.reactivate false)
        (.running operation allowPrimary .committing))
  /-- The wallet is the primary one already. -/
  | unchanged {s : State} {n walletId : ℕ} {allowPrimary : Bool} {row : Wallet} :
      s.calls n = .running (.setPrimary walletId) allowPrimary .begun →
      s.wallets.view n walletId = some row → row.Eligible → row.isPrimary = true →
      Step s .other (s.enter n (.running (.setPrimary walletId) allowPrimary .committing))
  | find {s : State} {n walletId : ℕ} {allowPrimary : Bool} {row : Wallet} :
      s.calls n = .running (.setPrimary walletId) allowPrimary .begun →
      s.wallets.view n walletId = some row → row.Eligible → row.isPrimary = false →
      Step s .other (s.enter n (.running (.setPrimary walletId) allowPrimary .found))
  | current {s : State} {n walletId current : ℕ} {allowPrimary : Bool} {row : Wallet} :
      s.calls n = .running (.setPrimary walletId) allowPrimary .found →
      s.wallets.view n current = some row → row.LivePrimary →
      Step s .other
        (s.enter n (.running (.setPrimary walletId) allowPrimary (.demoting current walletId)))
  | noCurrent {s : State} {n walletId : ℕ} {allowPrimary : Bool} :
      s.calls n = .running (.setPrimary walletId) allowPrimary .found →
      (∀ k row, s.wallets.view n k = some row → ¬ row.LivePrimary) →
      Step s .other (s.enter n (.running (.setPrimary walletId) allowPrimary (.promoting walletId)))
  | demote {s : State} {n current target : ℕ} {operation : Operation} {allowPrimary : Bool}
      {row : Wallet} : s.calls n = .running operation allowPrimary (.demoting current target) →
      s.wallets.view n current = some row → s.wallets.Free n current →
      Step s .other (s.write n current { row with isPrimary := false }
        (.running operation allowPrimary (.promoting target)))
  /-- The wallet is still live and active; after it `setPrimary` is over. -/
  | promote {s : State} {n target walletId : ℕ} {allowPrimary : Bool} {row : Wallet} :
      s.calls n = .running (.setPrimary walletId) allowPrimary (.promoting target) →
      s.wallets.view n target = some row → row.deleted = false → row.status = .active →
      s.wallets.Free n target → s.wallets.Admits Wallet.LivePrimary n target →
      Step s .other (s.write n target { row with isPrimary := true }
        (.running (.setPrimary walletId) allowPrimary .committing))
  /-- The sibling is still live and active. -/
  | promoteSibling {s : State} {n target walletId : ℕ} {allowPrimary : Bool} {row : Wallet} :
      s.calls n = .running (.removeWallet walletId) allowPrimary (.promoting target) →
      s.wallets.view n target = some row → row.deleted = false → row.status = .active →
      s.wallets.Free n target → s.wallets.Admits Wallet.LivePrimary n target →
      Step s .other (s.write n target { row with isPrimary := true }
        (.running (.removeWallet walletId) allowPrimary (.deleting target)))
  /-- The wallet is not the primary one. -/
  | secondary {s : State} {n walletId : ℕ} {allowPrimary : Bool} {row : Wallet} :
      s.calls n = .running (.removeWallet walletId) allowPrimary .begun →
      s.wallets.view n walletId = some row → row.kind = .byow → row.deleted = false →
      row.isPrimary = false →
      Step s .other (s.enter n (.running (.removeWallet walletId) allowPrimary .unbinding))
  | primary {s : State} {n walletId : ℕ} {allowPrimary : Bool} {row : Wallet} :
      s.calls n = .running (.removeWallet walletId) allowPrimary .begun →
      s.wallets.view n walletId = some row → row.kind = .byow → row.deleted = false →
      row.isPrimary = true →
      Step s .other (s.enter n (.running (.removeWallet walletId) allowPrimary .seeking))
  /-- The oldest sibling that may be the primary one. -/
  | sibling {s : State} {n walletId sibling : ℕ} {allowPrimary : Bool} {row : Wallet} :
      s.calls n = .running (.removeWallet walletId) allowPrimary .seeking →
      s.wallets.view n sibling = some row → row.Eligible → sibling ≠ walletId →
      (∀ k row', s.wallets.view n k = some row' → row'.Eligible → k ≠ walletId →
        Older sibling k row row') →
      Step s .other
        (s.enter n (.running (.removeWallet walletId) allowPrimary (.demoting walletId sibling)))
  | unbind {s : State} {n walletId : ℕ} {allowPrimary : Bool} {row : Wallet} :
      s.calls n = .running (.removeWallet walletId) allowPrimary .unbinding →
      s.wallets.view n walletId = some row → s.wallets.Free n walletId →
      Step s (.unbind walletId) (s.write n walletId { row with deleted := true }
        (.running (.removeWallet walletId) allowPrimary .committing))
  | delete {s : State} {n walletId target : ℕ} {allowPrimary : Bool} {row : Wallet} :
      s.calls n = .running (.removeWallet walletId) allowPrimary (.deleting target) →
      s.wallets.view n walletId = some row → s.wallets.Free n walletId →
      Step s .other (s.write n walletId { row with deleted := true }
        (.running (.removeWallet walletId) allowPrimary .committing))
  | commit {s : State} {n : ℕ} {operation : Operation} {allowPrimary : Bool} :
      s.calls n = .running operation allowPrimary .committing →
      Step s .other (State.enter { s with wallets := s.wallets.commit n } n .idle)
  /-- The index refuses a row for the first time, and the transaction is tried again. -/
  | retry {s : State} {n k : ℕ} {operation : Operation} {stage : Stage} {row : Wallet} :
      s.calls n = .running operation true stage →
      (∃ own, stage = .saving own true) ∨ (∃ target, stage = .promoting target) →
      s.wallets.view n k = some row → row.LivePrimary → s.wallets.Free n k →
      Step s .other (State.enter { s with wallets := s.wallets.abort n } n
        (.running operation false .begun))
  /-- The transaction fails otherwise, or the process crashes. -/
  | fail {s : State} {n : ℕ} :
      Step s .other (State.enter { s with wallets := s.wallets.abort n } n .idle)

/-- The transactions on the wallets of a user as a transition system. At first one wallet that
is live is the primary one. -/
def system : Transition.System State Label where
  init s := (∃! walletId, ∃ row, s.wallets.committed walletId = some row ∧ row.LivePrimary)
    ∧ (∀ n, s.wallets.writes n = fun _ => none) ∧ ∀ n, s.calls n = .idle
  step := Step

end PrimaryWallet
