import Tove.Base.Rows
import Tove.Base.Transition
import Tove.Soroban

/-!
# The deployment of the fraction token of an artwork

An admin requests a fractionalisation, which moves the artwork on and inserts a row of
`fraction_contracts`. The worker of `fraction-deploy.processor.ts` attempts to deploy the token
of the row: it looks whether the registry of the factory has a token of the artwork, and
otherwise it sends a transaction and polls for its outcome. `fraction-reconcile.processor.ts`
looks for the tokens of the rows that have been deploying for long. What is read from the
registry is adopted by the artwork alone.

Meanwhile the network applies transactions or drops them, calls time out, and attempts are retried.
Any number of attempts may run at a time, also for the same row.
-/

namespace Fractionalization

open Soroban Transition

/-! ### The rows -/

/-- `FractionContractStatus`. -/
inductive FractionContractStatus where
  | deploying
  | deployed
  | failed
  deriving DecidableEq, Repr

/-- `ARTWORK_STATUSES`. -/
inductive ArtworkStatus where
  | verified
  | published
  | fractionalizing
  | fractionalized
  deriving DecidableEq, Repr

/-- The columns of `fraction_contracts` that are written when the row is inserted. -/
structure TokenTerms where
  artworkId : String
  tokenName : String
  tokenSymbol : String
  artistAddress : Address
  totalSupply : ℕ
  artistRetentionPct : ℕ
  treasuryRetentionPct : ℕ
  artistLockupDays : ℕ
  treasuryLockupDays : ℕ
  deriving DecidableEq, Repr

/-- A row of `fraction_contracts`. -/
structure FractionContract where
  terms : TokenTerms
  status : FractionContractStatus
  tokenAddress : Option Address
  artistRetentionAmount : Option ℕ
  treasuryRetentionAmount : Option ℕ
  artistLockupUntil : Option ℕ
  deployLedger : Option ℕ
  txHash : Option ℕ
  deriving DecidableEq, Repr

/-- `DeployedLatch`. -/
structure DeployedLatch where
  tokenAddress : Address
  deployLedger : Option ℕ
  artistRetentionAmount : ℕ
  treasuryRetentionAmount : ℕ
  artistLockupUntil : Option ℕ

/-- `casStatus` of the artworks. -/
def casStatus (artworks : String → Option ArtworkStatus) (id : String) (source target : ArtworkStatus) :
    String → Option ArtworkStatus :=
  if artworks id = some source then Function.update artworks id (some target) else artworks

/-- The row with the columns that `casDeployed` sets. -/
def FractionContract.latch (row : FractionContract) (latch : DeployedLatch) : FractionContract :=
  { row with
    status := .deployed
    tokenAddress := some latch.tokenAddress
    deployLedger := latch.deployLedger
    artistRetentionAmount := some latch.artistRetentionAmount
    treasuryRetentionAmount := some latch.treasuryRetentionAmount
    artistLockupUntil := latch.artistLockupUntil }

def casDeployed (contracts : List FractionContract) (id : ℕ) (latch : DeployedLatch) :
    Option (List FractionContract) :=
  Rows.compareAndSet contracts id (fun row => row.status = .deploying) fun row => row.latch latch

def casFailed (contracts : List FractionContract) (id : ℕ) : Option (List FractionContract) :=
  Rows.compareAndSet contracts id (fun row => row.status = .deploying)
    fun row => { row with status := .failed }

/-- `setTxHash`, whatever the status. -/
def setTxHash (contracts : List FractionContract) (id txHash : ℕ) : List FractionContract :=
  contracts.modify id fun row => { row with txHash := some txHash }

/-! ### The parameters of a token -/

/-- `TokenInitInput`. -/
structure TokenInitInput where
  artworkId : String
  name : String
  symbol : String
  artistAddress : Address
  artistRetentionAmount : ℕ
  treasuryRetentionAmount : ℕ
  artistLockupUntil : ℕ
  treasuryLockupUntil : ℕ
  deriving DecidableEq, Repr

def computeRetentionAmount (totalSupply pct : ℕ) : ℕ := totalSupply * pct / 100

def computeLockupUntil (deployTsSeconds days : ℕ) : ℕ := deployTsSeconds + days * 86400

/-- The parameters that `process` computes at a time. -/
def tokenInit (row : TokenTerms) (deployTs : ℕ) : TokenInitInput where
  artworkId := row.artworkId
  name := row.tokenName
  symbol := row.tokenSymbol
  artistAddress := row.artistAddress
  artistRetentionAmount := computeRetentionAmount row.totalSupply row.artistRetentionPct
  treasuryRetentionAmount := computeRetentionAmount row.totalSupply row.treasuryRetentionPct
  artistLockupUntil := computeLockupUntil deployTs row.artistLockupDays
  treasuryLockupUntil := computeLockupUntil deployTs row.treasuryLockupDays

/-! ### The attempts and the chain -/

/-- An attempt: its row, the time at which it has started, and the parameters it has computed. -/
structure Attempt where
  contractId : ℕ
  deployTs : ℕ
  init : TokenInitInput
  deriving DecidableEq, Repr

/-- A token on chain. The attempt has the parameters of its constructor; whose they are is not
stored. -/
structure Token where
  address : Address
  attempt : Attempt
  deriving DecidableEq, Repr

/-- What has become of a transaction, from the moment at which it has been signed. -/
inductive TxStatus where
  | signed
  | pending
  | success (ledger : ℕ)
  | failed
  | dropped
  deriving DecidableEq, Repr

/-- A transaction that calls `deploy` of the factory. Its hash is its position. -/
structure Tx where
  attempt : Attempt
  status : TxStatus
  deriving DecidableEq, Repr

/-- `DeployFractionTokenResult`. Without a ledger, the token is one that the registry had. -/
structure DeployFractionTokenResult where
  tokenAddress : Address
  deployLedger : Option ℕ
  deriving DecidableEq, Repr

/-- What `deployFractionToken` throws: the two errors that are retried, or any other, such as the
timeout of an RPC call. -/
inductive DeployError where
  | FractionThrottledError
  | FractionSequenceError
  | other
  deriving DecidableEq, Repr

/-- Where a worker stands. In `checking` it reads the registry, in `building` it waits for the lock,
simulates and signs, and in `latching` the token has been found. -/
inductive Phase where
  | idle
  | checking (a : Attempt)
  | building (a : Attempt)
  | sending (a : Attempt) (txHash : ℕ)
  | polling (a : Attempt) (txHash : ℕ)
  | latching (a : Attempt) (result : DeployFractionTokenResult)
  | caught (a : Attempt) (err : DeployError)
  deriving DecidableEq, Repr

/-- The tables, the registry of the factory, the transactions that have been signed, the workers,
and the rows that a reconcile pass has found, before and after it has read the registry. -/
structure State where
  now : ℕ
  contracts : List FractionContract
  artworks : String → Option ArtworkStatus
  registry : String → Option Token
  txs : List Tx
  workers : ℕ → Phase
  stale : List ℕ
  resolved : List (ℕ × Address)

/-- The bounds of `fractionFactoryConfig`, and the address that is derived from the factory and the
salt of an artwork. -/
structure Config where
  maxTotalSupply : ℕ
  maxLockupDays : ℕ
  derived : String → Address

/-! ### The request -/

/-- The errors of a request. -/
inductive FractionalizeError where
  | VALIDATION_FAILED
  | ARTWORK_NOT_FOUND
  | ARTWORK_ALREADY_FRACTIONALIZED
  | ARTWORK_FRACTIONALIZATION_IN_PROGRESS
  | ARTWORK_NOT_FRACTIONALIZABLE
  | ARTIST_NO_PRIMARY_WALLET
  deriving DecidableEq, Repr

/-- `FractionalizeArtworkDto`. -/
structure FractionalizeArtworkDto where
  totalSupply : ℕ
  artistRetentionPct : ℕ
  treasuryRetentionPct : ℕ
  artistLockupDays : ℕ
  treasuryLockupDays : ℕ
  name : String
  symbol : String

/-- `notFractionalizable`. -/
def notFractionalizable : ArtworkStatus → FractionalizeError
  | .fractionalized => .ARTWORK_ALREADY_FRACTIONALIZED
  | .fractionalizing => .ARTWORK_FRACTIONALIZATION_IN_PROGRESS
  | _ => .ARTWORK_NOT_FRACTIONALIZABLE

/-- The row occupies the artwork in `UQ_fraction_contracts_active_per_artwork`. -/
def FractionContract.Active (row : FractionContract) (artworkId : String) : Prop :=
  row.terms.artworkId = artworkId ∧ row.status ≠ .failed

instance (row : FractionContract) (artworkId : String) : Decidable (row.Active artworkId) :=
  inferInstanceAs (Decidable (_ ∧ _))

/-- The row that a request inserts. -/
def newContract (artworkId : String) (dto : FractionalizeArtworkDto) (artistAddress : Address) :
    FractionContract where
  terms := {
    artworkId
    tokenName := dto.name
    tokenSymbol := dto.symbol
    artistAddress
    totalSupply := dto.totalSupply
    artistRetentionPct := dto.artistRetentionPct
    treasuryRetentionPct := dto.treasuryRetentionPct
    artistLockupDays := dto.artistLockupDays
    treasuryLockupDays := dto.treasuryLockupDays }
  status := .deploying
  tokenAddress := none
  artistRetentionAmount := none
  treasuryRetentionAmount := none
  artistLockupUntil := none
  deployLedger := none
  txHash := none

/-- `fractionalize`, with the primary settlement wallet of the artist. -/
def fractionalize (cfg : Config) (artworkId : String) (dto : FractionalizeArtworkDto)
    (artistAddress : Option Address) (s : State) : Except FractionalizeError State := do
  Checks.rejectIf (cfg.maxTotalSupply < dto.totalSupply) .VALIDATION_FAILED
  Checks.rejectIf (cfg.maxLockupDays < dto.artistLockupDays
    ∨ cfg.maxLockupDays < dto.treasuryLockupDays)
    .VALIDATION_FAILED
  match s.artworks artworkId with
  | none => throw .ARTWORK_NOT_FOUND
  | some status =>
    Checks.rejectIf (status ≠ .verified) (notFractionalizable status)
    match artistAddress with
    | none => throw .ARTIST_NO_PRIMARY_WALLET
    | some artistAddress =>
      Checks.rejectIf (∃ row ∈ s.contracts, row.Active artworkId) .ARTWORK_FRACTIONALIZATION_IN_PROGRESS
      return { s with
        contracts := s.contracts ++ [newContract artworkId dto artistAddress]
        artworks := casStatus s.artworks artworkId .verified .fractionalizing }

/-! ### The steps -/

/-- A worker enters a phase. -/
def State.enter (s : State) (w : ℕ) (phase : Phase) : State :=
  { s with workers := Function.update s.workers w phase }

/-- The transaction `latchDeployed`, and that of the reconcile pass. -/
def State.latchDeployed (s : State) (contractId : ℕ) (artworkId : String) (latch : DeployedLatch) :
    State :=
  match casDeployed s.contracts contractId latch with
  | none => s
  | some contracts =>
    { s with contracts, artworks := casStatus s.artworks artworkId .fractionalizing .fractionalized }

/-- The transaction `latchFailed`. -/
def State.latchFailed (s : State) (contractId : ℕ) (artworkId : String) : State :=
  match casFailed s.contracts contractId with
  | none => s
  | some contracts =>
    { s with contracts, artworks := casStatus s.artworks artworkId .fractionalizing .verified }

/-- What the worker latches for a token: the parameters that its own attempt has computed. -/
def Attempt.latch (a : Attempt) (result : DeployFractionTokenResult) : DeployedLatch where
  tokenAddress := result.tokenAddress
  deployLedger := result.deployLedger
  artistRetentionAmount := a.init.artistRetentionAmount
  treasuryRetentionAmount := a.init.treasuryRetentionAmount
  artistLockupUntil := some a.init.artistLockupUntil

/-- What the reconcile pass latches for a token. -/
def reconcileLatch (row : TokenTerms) (tokenAddress : Address) : DeployedLatch where
  tokenAddress
  deployLedger := none
  artistRetentionAmount := computeRetentionAmount row.totalSupply row.artistRetentionPct
  treasuryRetentionAmount := computeRetentionAmount row.totalSupply row.treasuryRetentionPct
  artistLockupUntil := none

/-- The steps of an attempt that change nothing but its phase. -/
inductive Advance (cfg : Config) (s : State) : Phase → Phase → Prop where
  /-- `token_of` cannot be read. -/
  | unread {a : Attempt} : Advance cfg s (.checking a) (.caught a .FractionThrottledError)
  | found {a : Attempt} {token : Token} : s.registry a.init.artworkId = some token →
      Advance cfg s (.checking a) (.latching a ⟨token.address, none⟩)
  | absent {a : Attempt} : s.registry a.init.artworkId = none →
      Advance cfg s (.checking a) (.building a)
  /-- The lock, an RPC call, the simulation, the authorisation of the admin, or the write of the
  hash fails. -/
  | unbuilt {a : Attempt} : Advance cfg s (.building a) (.caught a .other)
  | throttled {a : Attempt} {txHash : ℕ} :
      Advance cfg s (.sending a txHash) (.caught a .FractionThrottledError)
  | badSequence {a : Attempt} {txHash : ℕ} :
      Advance cfg s (.sending a txHash) (.caught a .FractionSequenceError)
  | rejected {a : Attempt} {txHash : ℕ} : Advance cfg s (.sending a txHash) (.caught a .other)
  | succeeded {a : Attempt} {txHash ledger : ℕ} : s.txs[txHash]? = some ⟨a, .success ledger⟩ →
      Advance cfg s (.polling a txHash) (.latching a ⟨cfg.derived a.init.artworkId, some ledger⟩)
  | failed {a : Attempt} {txHash : ℕ} : s.txs[txHash]? = some ⟨a, .failed⟩ →
      Advance cfg s (.polling a txHash) (.caught a .other)
  | pollTimeout {a : Attempt} {txHash : ℕ} :
      Advance cfg s (.polling a txHash) (.caught a .FractionThrottledError)
  | rpcTimeout {a : Attempt} {txHash : ℕ} : Advance cfg s (.polling a txHash) (.caught a .other)
  /-- The database fails while the token is latched. -/
  | unlatched {a : Attempt} {result : DeployFractionTokenResult} :
      Advance cfg s (.latching a result) (.caught a .other)

/-- Who takes a step: a worker that latches a row, or anyone else. -/
inductive Label where
  | latchDeployed (w : ℕ)
  | latchFailed (w : ℕ)
  | other
  deriving DecidableEq, Repr

/-- The steps of the requests, the workers, the reconcile passes and the network. -/
inductive Step (cfg : Config) : State → Label → State → Prop where
  | tick {s : State} {now : ℕ} : s.now ≤ now → Step cfg s .other { s with now }
  | fractionalize {s s' : State} {artworkId : String} {dto : FractionalizeArtworkDto}
      {artistAddress : Option Address} : fractionalize cfg artworkId dto artistAddress s = .ok s' →
      Step cfg s .other s'
  | start {s : State} {w contractId : ℕ} {row : FractionContract} : s.workers w = .idle →
      s.contracts[contractId]? = some row → row.status = .deploying →
      Step cfg s .other (s.enter w (.checking ⟨contractId, s.now, tokenInit row.terms s.now⟩))
  | advance {s : State} {w : ℕ} {phase : Phase} : Advance cfg s (s.workers w) phase →
      Step cfg s .other (s.enter w phase)
  /-- The simulation has succeeded, the transaction is signed, and its hash is written. -/
  | built {s : State} {w : ℕ} {a : Attempt} : s.workers w = .building a →
      s.registry a.init.artworkId = none →
      Step cfg s .other (State.enter { s with
        contracts := setTxHash s.contracts a.contractId s.txs.length
        txs := s.txs ++ [⟨a, .signed⟩] } w (.sending a s.txs.length))
  | accepted {s : State} {w txHash : ℕ} {a : Attempt} : s.workers w = .sending a txHash →
      s.txs[txHash]? = some ⟨a, .signed⟩ →
      Step cfg s .other (State.enter { s with txs := s.txs.set txHash ⟨a, .pending⟩ } w
        (.polling a txHash))
  /-- The transaction is accepted, but the call has timed out. -/
  | replyLost {s : State} {w txHash : ℕ} {a : Attempt} : s.workers w = .sending a txHash →
      s.txs[txHash]? = some ⟨a, .signed⟩ →
      Step cfg s .other (State.enter { s with txs := s.txs.set txHash ⟨a, .pending⟩ } w
        (.caught a .other))
  | latchDeployed {s : State} {w : ℕ} {a : Attempt} {result : DeployFractionTokenResult} :
      s.workers w = .latching a result →
      Step cfg s (.latchDeployed w)
        ((s.latchDeployed a.contractId a.init.artworkId (a.latch result)).enter w .idle)
  /-- The transaction commits, but the worker sees an error. -/
  | commitLost {s : State} {w : ℕ} {a : Attempt} {result : DeployFractionTokenResult} :
      s.workers w = .latching a result →
      Step cfg s (.latchDeployed w)
        ((s.latchDeployed a.contractId a.init.artworkId (a.latch result)).enter w (.caught a .other))
  | latchFailed {s : State} {w : ℕ} {a : Attempt} : s.workers w = .caught a .other →
      Step cfg s (.latchFailed w)
        ((s.latchFailed a.contractId a.init.artworkId).enter w .idle)
  /-- The attempt is to be retried, the database fails, or the worker crashes. -/
  | stop {s : State} {w : ℕ} : Step cfg s .other (s.enter w .idle)
  /-- A reconcile pass finds a row that is deploying; how long it waits before it looks only
  delays it. -/
  | findStale {s : State} {id : ℕ} {row : FractionContract} : s.contracts[id]? = some row →
      row.status = .deploying → Step cfg s .other { s with stale := id :: s.stale }
  | resolve {s : State} {id : ℕ} {row : FractionContract} {token : Token} : id ∈ s.stale →
      s.contracts[id]? = some row → s.registry row.terms.artworkId = some token →
      Step cfg s .other { s with resolved := (id, token.address) :: s.resolved }
  | promote {s : State} {id : ℕ} {row : FractionContract} {tokenAddress : Address} :
      (id, tokenAddress) ∈ s.resolved → s.contracts[id]? = some row →
      Step cfg s .other
        (s.latchDeployed id row.terms.artworkId (reconcileLatch row.terms tokenAddress))
  /-- The pass ends. -/
  | endPass {s : State} : Step cfg s .other { s with stale := [], resolved := [] }
  /-- A pending transaction deploys the token of an artwork that has none. -/
  | land {s : State} {txHash ledger : ℕ} {a : Attempt} : s.txs[txHash]? = some ⟨a, .pending⟩ →
      s.registry a.init.artworkId = none →
      Step cfg s .other { s with
        registry := Function.update s.registry a.init.artworkId
          (some ⟨cfg.derived a.init.artworkId, a⟩)
        txs := s.txs.set txHash ⟨a, .success ledger⟩ }
  /-- A pending transaction fails, or it is dropped. -/
  | spent {s : State} {txHash : ℕ} {a : Attempt} {status : TxStatus} :
      s.txs[txHash]? = some ⟨a, .pending⟩ → status = .failed ∨ status = .dropped →
      Step cfg s .other { s with txs := s.txs.set txHash ⟨a, status⟩ }

/-- The deployments as a transition system, before the first request. -/
def system (cfg : Config) : Transition.System State Label where
  init s := s.contracts = [] ∧ (∀ artworkId, s.registry artworkId = none) ∧ s.txs = []
    ∧ (∀ w, s.workers w = .idle) ∧ s.stale = [] ∧ s.resolved = []
  step := Step cfg

end Fractionalization
