import Tove.Base.Base64
import Tove.Base.ReadCommitted
import Tove.Js
import Tove.Wallets.Factory

/-!
# Sign-up and log-in with a passkey

A challenge is issued for an email. A registration answers it with a new credential; then the
relayer deploys a wallet for the credential, and one transaction consumes the challenge and inserts
the user, the wallet and the credential. A log-in answers it with a credential that is bound to the
email, and consumes it with a statement of its own. A registration that is sent again, when its
credential is bound, issues tokens without a challenge being consumed.

The relayer sends a transaction to the factory, and polls for its outcome; after an error it looks
whether the wallet is there, and it tries again a few times. Transactions are applied, or dropped,
at any time; a reply may be lost, and a process may crash. Emails are in lower case.
-/

namespace Passkeys

open Js ReadCommitted Soroban WalletFactory

/-! ### The rows -/

/-- A row of `passkey_challenges`, whose key is the challenge. -/
structure PasskeyChallenge where
  email : JsString
  expiresAt : ℕ
  consumed : Bool
  deriving DecidableEq, Repr

/-- The columns of `users` that the sign-up uses. -/
structure User where
  email : Option JsString
  deleted : Bool
  deriving DecidableEq, Repr

/-- A row of `wallets` of the kind `embedded_passkey`. -/
structure EmbeddedWallet where
  userId : ℕ
  contractAddress : Address
  deriving DecidableEq, Repr

/-- A row of `passkey_credentials`. -/
structure PasskeyCredential where
  walletId : ℕ
  credentialId : JsString
  publicKey : List UInt8
  deriving DecidableEq, Repr

/-- `UQ_users_email_active`. -/
def User.HasEmail (email : JsString) (row : User) : Prop :=
  row.email = some email ∧ row.deleted = false

/-- `UQ_wallets_contract_address_active`. -/
def EmbeddedWallet.HasAddress (contractAddress : Address) (row : EmbeddedWallet) : Prop :=
  row.contractAddress = contractAddress

/-- `UQ_passkey_credentials_credential_id_active`. -/
def PasskeyCredential.HasCredentialId (credentialId : JsString) (row : PasskeyCredential) : Prop :=
  row.credentialId = credentialId

/-! ### The encoding of signers -/

/-- The configuration of the relayer, and the functions that come from elsewhere:
`deriveWalletAddress`, for the factory of the configuration, as the host has it; `sha256`; and
`decodeCoseToRawP256`, which fails on what is not a key. -/
structure Config where
  factoryAdmin : Address
  webauthnVerifierAddress : Address
  deriveWalletAddress : BytesN32 → Address
  sha256 : List UInt8 → BytesN32
  decodeCoseToRawP256 : List UInt8 → Option (List UInt8)

/-- `decodeCredentialId`. -/
def decodeCredentialId (credentialId : JsString) : List UInt8 := Base64.decode credentialId

def SECP256R1_PUBLIC_KEY_SIZE : ℕ := 65

/-- `buildKeyData`. -/
def buildKeyData (secp256r1PublicKey : List UInt8) (credentialId : JsString) :
    Except String (List UInt8) := do
  Checks.rejectIf (secp256r1PublicKey.length ≠ SECP256R1_PUBLIC_KEY_SIZE)
    (s!"expected a {SECP256R1_PUBLIC_KEY_SIZE}-byte uncompressed secp256r1 point, got "
      ++ toString secp256r1PublicKey.length)
  return secp256r1PublicKey ++ decodeCredentialId credentialId

/-- `deriveSalt`. -/
def Config.deriveSalt (cfg : Config) (credentialId : JsString) : BytesN32 :=
  cfg.sha256 (decodeCredentialId credentialId)

/-- The address of the wallet of a credential. -/
def Config.walletOf (cfg : Config) (credentialId : JsString) : Address :=
  cfg.deriveWalletAddress (cfg.deriveSalt credentialId)

/-- The signers of the wallet of a credential: its key, as the COSE key is decoded. -/
def Config.signers (cfg : Config) (credentialId : JsString) (publicKey : List UInt8) :
    Option (List Signer) := do
  let secp256r1PublicKey ← cfg.decodeCoseToRawP256 publicKey
  let keyData ← (buildKeyData secp256r1PublicKey credentialId).toOption
  return [.external cfg.webauthnVerifierAddress keyData]

/-! ### The calls -/

def MAX_DEPLOY_RETRIES : ℕ := 3

/-- A registration that has been verified: the challenge, the row that was read, and the
credential. -/
structure Registration where
  challenge : JsString
  row : PasskeyChallenge
  credentialId : JsString
  publicKey : List UInt8
  deriving DecidableEq, Repr

/-- What has become of a transaction of the relayer. -/
inductive TxStatus where
  | pending
  | success (contractAddress : Address)
  | failed
  | dropped
  deriving DecidableEq, Repr

/-- A transaction that calls `deploy_wallet`, with the credential that it is for. -/
structure Tx where
  credentialId : JsString
  signers : List Signer
  status : TxStatus
  deriving DecidableEq, Repr

/-- Where a call is. A registration has been verified; its credential is not bound; the relayer
looks for the wallet, builds a transaction, polls for its outcome, or has caught an error that may
be tried again; then the transaction of the database consumes the challenge, saves the user, the
wallet and the credential, and is committed. A log-in has read the challenge, or has been verified.
At last tokens are issued. -/
inductive Phase where
  | idle
  | verified (r : Registration)
  | unbound (r : Registration)
  | checking (r : Registration)
  | building (r : Registration) (attempt : ℕ)
  | polling (r : Registration) (attempt tx : ℕ)
  | caught (r : Registration) (attempt : ℕ) (retryable : Bool)
  | consuming (r : Registration) (contractAddress : Address)
  | savingUser (r : Registration) (contractAddress : Address)
  | savingWallet (r : Registration) (contractAddress : Address) (userId : ℕ)
  | savingCredential (r : Registration) (contractAddress : Address) (userId walletId : ℕ)
  | committing (r : Registration) (contractAddress : Address) (userId walletId id : ℕ)
  | answering (challenge email : JsString)
  | asserted (challenge credentialId : JsString) (userId : ℕ)
  | issuing (challenge credentialId : JsString) (userId : ℕ)
  deriving DecidableEq, Repr

/-- What has happened: a challenge was issued for an email; a registration or a log-in was verified
with a key; a challenge was consumed, by a registration or by a log-in; or tokens were issued to a
user for a challenge. -/
inductive Event where
  | issued (challenge email : JsString)
  | registered (challenge credentialId : JsString) (publicKey : List UInt8)
  | asserted (challenge credentialId : JsString) (publicKey : List UInt8)
  | consumed (challenge : JsString)
  | tokens (challenge credentialId : JsString) (userId : ℕ)
  deriving DecidableEq, Repr

/-- The tables, the time, the factory, the transactions of the relayer, the calls, and what has
happened. -/
structure State where
  challenges : Store JsString PasskeyChallenge
  users : Store ℕ User
  wallets : Store ℕ EmbeddedWallet
  credentials : Store ℕ PasskeyCredential
  now : ℕ
  factory : WalletFactory.Storage Unit
  txs : List Tx
  calls : ℕ → Phase
  events : List Event

def State.enter (s : State) (n : ℕ) (phase : Phase) : State :=
  { s with calls := Function.update s.calls n phase }

/-- Something has happened. -/
def State.log (s : State) (event : Event) : State := { s with events := s.events ++ [event] }

/-- The transaction of a call is committed. -/
def State.commit (s : State) (n : ℕ) : State :=
  { s with
    challenges := s.challenges.commit n
    users := s.users.commit n
    wallets := s.wallets.commit n
    credentials := s.credentials.commit n }

/-- The transaction of a call, if it has one, is rolled back. -/
def State.abort (s : State) (n : ℕ) : State :=
  { s with
    challenges := s.challenges.abort n
    users := s.users.abort n
    wallets := s.wallets.abort n
    credentials := s.credentials.abort n }

/-- What becomes of a transaction of the relayer. -/
def State.settle (s : State) (i : ℕ) (tx : Tx) (status : TxStatus) : State :=
  { s with txs := s.txs.set i { tx with status } }

/-- The environment of a transaction of the relayer: the factory admin is its source. -/
def Config.env (cfg : Config) : Env := ⟨fun a => a = cfg.factoryAdmin, true, true⟩

/-- What is seen of a step: a registration has been verified, or something else happens. -/
inductive Label where
  | registered (credentialId : JsString) (publicKey : List UInt8)
  | other

/-- The statements of the calls, and the steps of the network. -/
inductive Step (cfg : Config) : State → Label → State → Prop where
  /-- `persistChallenge`. -/
  | issue {s : State} {challenge : JsString} {row : PasskeyChallenge} :
      (∀ email, .issued challenge email ∉ s.events) → row.consumed = false →
      Step cfg s .other (State.log
        { s with challenges := s.challenges.put challenge (some row) } (.issued challenge row.email))
  /-- `pruneOutstandingByEmail` and `deleteExpired`. -/
  | delete {s : State} {challenge : JsString} : (∀ m, s.challenges.writes m challenge = none) →
      Step cfg s .other { s with challenges := s.challenges.put challenge none }
  | tick {s : State} : Step cfg s .other { s with now := s.now + 1 }
  /-- Users are created, changed and deleted by what is not modelled here. -/
  | alter {s : State} {userId : ℕ} {row : User} : (∀ m, s.users.writes m userId = none) →
      (∀ email, row.HasEmail email → ∀ k row', k ≠ userId → s.users.Version k row' →
        ¬ row'.HasEmail email) →
      Step cfg s .other { s with users := s.users.put userId (some row) }
  /-- `finish`: the challenge is found, and the attestation is verified. -/
  | register {s : State} {n : ℕ} {challenge credentialId : JsString} {row : PasskeyChallenge}
      {publicKey secp256r1PublicKey : List UInt8} : s.calls n = .idle →
      s.challenges.committed challenge = some row →
      cfg.decodeCoseToRawP256 publicKey = some secp256r1PublicKey →
      Step cfg s (.registered credentialId publicKey)
        ((s.enter n (.verified ⟨challenge, row, credentialId, publicKey⟩)).log
          (.registered challenge credentialId publicKey))
  /-- The credential is bound to the email: the registration is sent again. -/
  | replay {s : State} {n k : ℕ} {r : Registration} {credential : PasskeyCredential}
      {wallet : EmbeddedWallet} {user : User} : s.calls n = .verified r →
      s.credentials.committed k = some credential → credential.credentialId = r.credentialId →
      s.wallets.committed credential.walletId = some wallet →
      s.users.committed wallet.userId = some user → user.HasEmail r.row.email →
      Step cfg s .other (s.enter n (.issuing r.challenge r.credentialId wallet.userId))
  | unbound {s : State} {n : ℕ} {r : Registration} : s.calls n = .verified r →
      (∀ k credential, s.credentials.committed k = some credential →
        credential.credentialId ≠ r.credentialId) →
      Step cfg s .other (s.enter n (.unbound r))
  /-- The challenge was neither consumed nor expired, and there is no user with the email. -/
  | deploy {s : State} {n : ℕ} {r : Registration} : s.calls n = .unbound r →
      r.row.consumed = false → s.now ≤ r.row.expiresAt →
      (∀ k user, s.users.committed k = some user → ¬ user.HasEmail r.row.email) →
      Step cfg s .other (s.enter n (.checking r))
  /-- `walletExists`, before a transaction is sent. -/
  | found {s : State} {n : ℕ} {r : Registration} : s.calls n = .checking r →
      s.factory.wallets (cfg.walletOf r.credentialId) ≠ none →
      Step cfg s .other (s.enter n (.consuming r (cfg.walletOf r.credentialId)))
  /-- The wallet is not seen. -/
  | absent {s : State} {n : ℕ} {r : Registration} : s.calls n = .checking r →
      Step cfg s .other (s.enter n (.building r 0))
  /-- `buildAndSubmit`. -/
  | submit {s : State} {n attempt : ℕ} {r : Registration} {signers : List Signer} :
      s.calls n = .building r attempt → cfg.signers r.credentialId r.publicKey = some signers →
      Step cfg s .other (State.enter
        { s with txs := s.txs ++ [⟨r.credentialId, signers, .pending⟩] } n
        (.polling r attempt s.txs.length))
  /-- The transaction was sent before. -/
  | duplicate {s : State} {n attempt i : ℕ} {r : Registration} {tx : Tx} :
      s.calls n = .building r attempt → s.txs[i]? = some tx → tx.credentialId = r.credentialId →
      cfg.signers r.credentialId r.publicKey = some tx.signers →
      Step cfg s .other (s.enter n (.polling r attempt i))
  /-- A call of the RPC fails, the simulation does, or the transaction is rejected. -/
  | reject {s : State} {n attempt : ℕ} {r : Registration} {retryable : Bool} :
      s.calls n = .building r attempt → Step cfg s .other (s.enter n (.caught r attempt retryable))
  /-- `pollForResult`. -/
  | confirm {s : State} {n attempt i : ℕ} {r : Registration} {tx : Tx} {contractAddress : Address} :
      s.calls n = .polling r attempt i → s.txs[i]? = some tx →
      tx.status = .success contractAddress →
      Step cfg s .other (s.enter n (.consuming r contractAddress))
  | timeout {s : State} {n attempt i : ℕ} {r : Registration} {retryable : Bool} :
      s.calls n = .polling r attempt i →
      Step cfg s .other (s.enter n (.caught r attempt retryable))
  /-- `walletExists`, after an error. -/
  | heal {s : State} {n attempt : ℕ} {r : Registration} {retryable : Bool} :
      s.calls n = .caught r attempt retryable →
      s.factory.wallets (cfg.walletOf r.credentialId) ≠ none →
      Step cfg s .other (s.enter n (.consuming r (cfg.walletOf r.credentialId)))
  | retry {s : State} {n attempt : ℕ} {r : Registration} : s.calls n = .caught r attempt true →
      attempt < MAX_DEPLOY_RETRIES → Step cfg s .other (s.enter n (.building r (attempt + 1)))
  /-- A transaction of the relayer is applied. -/
  | land {s : State} {i : ℕ} {tx : Tx} {accepts : Bool} {factory : WalletFactory.Storage Unit}
      {contractAddress : Address} : s.txs[i]? = some tx → tx.status = .pending →
      deployWallet cfg.deriveWalletAddress cfg.env accepts (cfg.deriveSalt tx.credentialId)
        tx.signers [] s.factory = .ok (factory, contractAddress) →
      Step cfg s .other (State.settle { s with factory } i tx (.success contractAddress))
  | fail {s : State} {i : ℕ} {tx : Tx} {accepts : Bool} {failure : Failure WalletFactory.Error} :
      s.txs[i]? = some tx → tx.status = .pending →
      deployWallet cfg.deriveWalletAddress cfg.env accepts (cfg.deriveSalt tx.credentialId)
        tx.signers [] s.factory = .error failure → Step cfg s .other (s.settle i tx .failed)
  | drop {s : State} {i : ℕ} {tx : Tx} : s.txs[i]? = some tx → tx.status = .pending →
      Step cfg s .other (s.settle i tx .dropped)
  /-- Others call the factory. Its admin deploys wallets by way of the relayer only. -/
  | others {s : State} {env : Env} {c : WalletFactory.Call Unit}
      {factory : WalletFactory.Storage Unit} :
      (∀ accepts salt signers policies, c = .deployWallet accepts salt signers policies →
        env.auth s.factory.admin = false) →
      perform cfg.deriveWalletAddress env c s.factory = .ok factory →
      Step cfg s .other { s with factory }
  /-- `consumeByChallenge`, in the transaction that binds the wallet. -/
  | consume {s : State} {n : ℕ} {r : Registration} {contractAddress : Address}
      {row : PasskeyChallenge} : s.calls n = .consuming r contractAddress →
      s.challenges.view n r.challenge = some row → row.consumed = false →
      s.challenges.Free n r.challenge →
      Step cfg s .other (State.enter
        { s with challenges := s.challenges.write n r.challenge { row with consumed := true } } n
        (.savingUser r contractAddress))
  /-- `createPasskeyUser`. -/
  | saveUser {s : State} {n userId : ℕ} {r : Registration} {contractAddress : Address} :
      s.calls n = .savingUser r contractAddress → (∀ row, ¬ s.users.Version userId row) →
      s.users.Admits (User.HasEmail r.row.email) n userId →
      Step cfg s .other (State.enter
        { s with users := s.users.write n userId ⟨some r.row.email, false⟩ } n
        (.savingWallet r contractAddress userId))
  | saveWallet {s : State} {n userId walletId : ℕ} {r : Registration} {contractAddress : Address} :
      s.calls n = .savingWallet r contractAddress userId →
      (∀ row, ¬ s.wallets.Version walletId row) →
      s.wallets.Admits (EmbeddedWallet.HasAddress contractAddress) n walletId →
      Step cfg s .other (State.enter
        { s with wallets := s.wallets.write n walletId ⟨userId, contractAddress⟩ } n
        (.savingCredential r contractAddress userId walletId))
  | saveCredential {s : State} {n userId walletId id : ℕ} {r : Registration}
      {contractAddress : Address} :
      s.calls n = .savingCredential r contractAddress userId walletId →
      (∀ row, ¬ s.credentials.Version id row) →
      s.credentials.Admits (PasskeyCredential.HasCredentialId r.credentialId) n id →
      Step cfg s .other (State.enter
        { s with credentials := s.credentials.write n id ⟨walletId, r.credentialId, r.publicKey⟩ } n
        (.committing r contractAddress userId walletId id))
  | commit {s : State} {n userId walletId id : ℕ} {r : Registration} {contractAddress : Address} :
      s.calls n = .committing r contractAddress userId walletId id →
      Step cfg s .other (((s.commit n).enter n (.issuing r.challenge r.credentialId userId)).log
        (.consumed r.challenge))
  /-- `loginFinish`: the challenge is found. -/
  | answer {s : State} {n : ℕ} {challenge : JsString} {row : PasskeyChallenge} :
      s.calls n = .idle → s.challenges.committed challenge = some row → row.consumed = false →
      s.now ≤ row.expiresAt → Step cfg s .other (s.enter n (.answering challenge row.email))
  /-- The credential is bound to the email, and the assertion is verified with its key. -/
  | assert {s : State} {n k : ℕ} {challenge email : JsString} {credential : PasskeyCredential}
      {wallet : EmbeddedWallet} {user : User} : s.calls n = .answering challenge email →
      s.credentials.committed k = some credential →
      s.wallets.committed credential.walletId = some wallet →
      s.users.committed wallet.userId = some user → user.HasEmail email →
      Step cfg s .other ((s.enter n (.asserted challenge credential.credentialId wallet.userId)).log
        (.asserted challenge credential.credentialId credential.publicKey))
  /-- `consumeByChallenge`, as a statement of its own. -/
  | login {s : State} {n userId : ℕ} {challenge credentialId : JsString} {row : PasskeyChallenge} :
      s.calls n = .asserted challenge credentialId userId →
      s.challenges.committed challenge = some row → row.consumed = false →
      (∀ m, s.challenges.writes m challenge = none) →
      Step cfg s .other ((State.enter
        { s with challenges := s.challenges.put challenge (some { row with consumed := true }) } n
        (.issuing challenge credentialId userId)).log (.consumed challenge))
  /-- `issueTokensForUser`. -/
  | issueTokens {s : State} {n userId : ℕ} {challenge credentialId : JsString} :
      s.calls n = .issuing challenge credentialId userId →
      Step cfg s .other ((s.enter n .idle).log (.tokens challenge credentialId userId))
  /-- A check fails, an index refuses a row, or the process crashes. -/
  | stop {s : State} {n : ℕ} : Step cfg s .other ((s.abort n).enter n .idle)

/-- The service from its beginning on, as a transition system. At first there are no wallets. -/
def system (cfg : Config) : Transition.System State Label where
  init s := (∀ n, s.calls n = .idle) ∧ (∀ challenge, s.challenges.committed challenge = none)
    ∧ (∀ k, s.wallets.committed k = none) ∧ (∀ k, s.credentials.committed k = none)
    ∧ (∀ n, s.challenges.writes n = fun _ => none) ∧ (∀ n, s.users.writes n = fun _ => none)
    ∧ (∀ n, s.wallets.writes n = fun _ => none) ∧ (∀ n, s.credentials.writes n = fun _ => none)
    ∧ (∀ a, s.factory.wallets a = none) ∧ s.txs = [] ∧ s.events = []
  step := Step cfg

end Passkeys
