import Tove.Base.ReadCommitted
import Tove.Base.Transition
import Tove.Js

/-!
# The challenges of SEP-10

A challenge is issued for a public key, to a user who wants to add a wallet or to nobody, for a
log in. The wallet signs it, and it is presented. A log in consumes the challenge with a
statement of its own; then it finds the wallet of the key, brings it back, or creates it
together with a user, and issues tokens. A wallet is added in one transaction, which consumes
the challenge, and inserts the wallet or brings it back. When `UQ_wallets_primary_active`
refuses the wallet, the transaction is tried once more.

Challenges that are old, or too many for one key, are deleted: a challenge is deleted at any
time. A row that a transaction holds is waited for.
-/

namespace Sep10

open Js ReadCommitted

/-! ### The rows -/

/-- A row of `auth_challenges`, whose key is the hash of the challenge. -/
structure AuthChallenge where
  publicKey : JsString
  userId : Option ℕ
  expiresAt : ℕ
  consumed : Bool
  deriving DecidableEq, Repr

/-- A row of `wallets` with a public key. -/
structure Wallet where
  userId : ℕ
  publicKey : JsString
  isPrimary : Bool
  deleted : Bool
  deriving DecidableEq, Repr

/-- `UQ_wallets_public_key_active`. -/
def Wallet.Live (publicKey : JsString) (row : Wallet) : Prop :=
  row.publicKey = publicKey ∧ row.deleted = false

/-- `UQ_wallets_primary_active`. -/
def Wallet.LivePrimary (userId : ℕ) (row : Wallet) : Prop :=
  row.userId = userId ∧ row.isPrimary = true ∧ row.deleted = false

/-- A challenge that is presented, with the keys that have signed it. -/
structure SignedChallenge where
  txHash : JsString
  signers : List JsString
  deriving DecidableEq, Repr

/-- `verifySignedChallenge` accepts what is presented for a row. -/
structure AuthChallenge.Verifies (now : ℕ) (signed : SignedChallenge) (row : AuthChallenge) :
    Prop where
  pending : row.consumed = false
  unexpired : now ≤ row.expiresAt
  signature : row.publicKey ∈ signed.signers

/-! ### The calls -/

/-- What a transaction is for: a log in consumes the challenge, brings back a wallet, or creates
one; or a wallet is bound to a user. -/
inductive Operation where
  | consume (txHash publicKey : JsString)
  | reactivate (txHash : JsString) (walletId userId : ℕ)
  | create (txHash publicKey : JsString)
  | bind (txHash publicKey : JsString) (userId : ℕ)
  deriving DecidableEq, Repr

/-- How far a transaction is: it is about to consume the challenge, to look for a wallet with
the key of another user or of the user, to count the primary wallets, or to save the wallet.
There is nothing left but to be committed, with the wallet that has been written and its user. -/
inductive Stage where
  | consuming
  | searching
  | owning
  | counting (own : Option ℕ)
  | saving (own : Option ℕ) (isPrimary : Bool)
  | committing (attached : Option (ℕ × ℕ))
  deriving DecidableEq, Repr

/-- A call is idle, or it has a transaction. Between its transactions a log in looks for the
wallet of the key, which is live (`resolving`), or which there is at all (`unknown`), or which
another call has inserted (`rereading`); then it is to issue tokens. -/
inductive Phase where
  | idle
  | resolving (txHash publicKey : JsString)
  | unknown (txHash publicKey : JsString)
  | rereading (txHash publicKey : JsString)
  | issuing (txHash : JsString) (userId : ℕ)
  | running (operation : Operation) (allowPrimary : Bool) (stage : Stage)
  deriving DecidableEq, Repr

/-- Where a transaction begins again that is tried once more. -/
def Operation.restart : Operation → Option Stage
  | .bind .. => some .consuming
  | .reactivate _ walletId _ => some (.counting (some walletId))
  | .consume .. | .create .. => none

/-- Where a call goes on after the transaction is committed. -/
def Operation.next : Operation → Option (ℕ × ℕ) → Phase
  | .consume txHash publicKey, _ => .resolving txHash publicKey
  | .reactivate txHash _ userId, _ => .issuing txHash userId
  | .create txHash _, some attached => .issuing txHash attached.2
  | _, _ => .idle

def Operation.txHash : Operation → JsString
  | .consume txHash _ | .reactivate txHash .. | .create txHash _ | .bind txHash .. => txHash

/-- The user whose wallet it is. -/
def Operation.userId : Operation → Option ℕ
  | .reactivate _ _ userId | .bind _ _ userId => some userId
  | .consume .. | .create .. => none

/-- What has happened: a challenge was issued; for a challenge, tokens were issued to a user, or
a wallet was inserted or brought back for a user. -/
inductive Event where
  | issued (txHash : JsString) (challenge : AuthChallenge)
  | tokens (txHash : JsString) (userId : ℕ)
  | attached (txHash : JsString) (walletId userId : ℕ)
  deriving DecidableEq, Repr

/-- The tables, the time, the calls, and what has happened. -/
structure State where
  challenges : Store JsString AuthChallenge
  wallets : Store ℕ Wallet
  now : ℕ
  calls : ℕ → Phase
  events : List Event

def State.enter (s : State) (n : ℕ) (phase : Phase) : State :=
  { s with calls := Function.update s.calls n phase }

/-- Something has happened. -/
def State.log (s : State) (events : List Event) : State := { s with events := s.events ++ events }

/-- A challenge is inserted. -/
def State.issue (s : State) (txHash : JsString) (challenge : AuthChallenge) : State :=
  { s with
    challenges :=
      { s.challenges with
        committed := Function.update s.challenges.committed txHash (some challenge) } }

/-- A challenge is deleted. -/
def State.delete (s : State) (txHash : JsString) : State :=
  { s with
    challenges :=
      { s.challenges with committed := Function.update s.challenges.committed txHash none } }

/-- A wallet is changed by what is not modelled here. -/
def State.alter (s : State) (walletId : ℕ) (row : Wallet) : State :=
  { s with
    wallets :=
      { s.wallets with committed := Function.update s.wallets.committed walletId (some row) } }

/-- `consumeByTxHash`, of a row. -/
def State.consume (s : State) (n : ℕ) (txHash : JsString) (row : AuthChallenge) (phase : Phase) :
    State :=
  { s with
    challenges := s.challenges.write n txHash { row with consumed := true }
    calls := Function.update s.calls n phase }

/-- A transaction writes a wallet. -/
def State.save (s : State) (n walletId : ℕ) (row : Wallet) (phase : Phase) : State :=
  { s with
    wallets := s.wallets.write n walletId row
    calls := Function.update s.calls n phase }

def State.commit (s : State) (n : ℕ) (phase : Phase) : State :=
  { s with
    challenges := s.challenges.commit n
    wallets := s.wallets.commit n
    calls := Function.update s.calls n phase }

def State.abort (s : State) (n : ℕ) (phase : Phase) : State :=
  { s with
    challenges := s.challenges.abort n
    wallets := s.wallets.abort n
    calls := Function.update s.calls n phase }

section Calls

variable {s : State} {n walletId : ℕ} {txHash : JsString} {row : AuthChallenge} {wallet : Wallet}
  {phase : Phase}

@[simp] theorem enter_calls :
  (s.enter n phase).calls = Function.update s.calls n phase
  := rfl

@[simp] theorem consume_calls :
  (s.consume n txHash row phase).calls = Function.update s.calls n phase
  := rfl

@[simp] theorem commit_calls :
  (s.commit n phase).calls = Function.update s.calls n phase
  := rfl

@[simp] theorem abort_calls :
  (s.abort n phase).calls = Function.update s.calls n phase
  := rfl

@[simp] theorem commit_challenges :
  (s.commit n phase).challenges = s.challenges.commit n
  := rfl

@[simp] theorem abort_challenges :
  (s.abort n phase).challenges = s.challenges.abort n
  := rfl

end Calls

/-- The indexes let a transaction write a wallet. -/
structure Indexed (db : Store ℕ Wallet) (n walletId : ℕ) (row : Wallet) : Prop where
  publicKey : row.Live row.publicKey → db.Admits (Wallet.Live row.publicKey) n walletId
  primary : row.LivePrimary row.userId → db.Admits (Wallet.LivePrimary row.userId) n walletId

/-- The wallet that a transaction has written, as an event. -/
def Operation.attached (operation : Operation) : Option (ℕ × ℕ) → List Event
  | none => []
  | some (walletId, userId) => [.attached operation.txHash walletId userId]

/-- What is seen of a step: the transaction of a call is rolled back, or something else happens. -/
inductive Label where
  | rollback (n : ℕ)
  | other

/-- The statements of the calls. -/
inductive Step : State → Label → State → Prop where
  /-- `buildChallenge`. -/
  | build {s : State} {txHash : JsString} {challenge : AuthChallenge} :
      (∀ challenge', .issued txHash challenge' ∉ s.events) → challenge.consumed = false →
      Step s .other ((s.issue txHash challenge).log [.issued txHash challenge])
  /-- `pruneOutstanding` and `deleteExpired`. -/
  | delete {s : State} {txHash : JsString} : (∀ m, s.challenges.writes m txHash = none) →
      Step s .other (s.delete txHash)
  | tick {s : State} : Step s .other { s with now := s.now + 1 }
  | alter {s : State} {walletId : ℕ} {row : Wallet} {isPrimary deleted : Bool} :
      s.wallets.committed walletId = some row → (∀ m, s.wallets.writes m walletId = none) →
      Step s .other (s.alter walletId { row with isPrimary, deleted })
  /-- `verify`, of a challenge that was issued to nobody. -/
  | login {s : State} {n : ℕ} {signed : SignedChallenge} {row : AuthChallenge} :
      s.calls n = .idle → s.challenges.committed signed.txHash = some row →
      row.Verifies s.now signed → row.userId = none →
      Step s .other
        (s.enter n (.running (.consume signed.txHash row.publicKey) true .consuming))
  /-- `verifyBindChallenge`, of a challenge that was issued to the user. -/
  | bind {s : State} {n userId : ℕ} {signed : SignedChallenge} {row : AuthChallenge} :
      s.calls n = .idle → s.challenges.committed signed.txHash = some row →
      row.Verifies s.now signed → row.userId = some userId →
      Step s .other
        (s.enter n (.running (.bind signed.txHash row.publicKey userId) true .consuming))
  /-- The challenge is consumed by a log in. -/
  | consume {s : State} {n : ℕ} {txHash publicKey : JsString} {allowPrimary : Bool}
      {row : AuthChallenge} :
      s.calls n = .running (.consume txHash publicKey) allowPrimary .consuming →
      s.challenges.view n txHash = some row → row.consumed = false → s.challenges.Free n txHash →
      Step s .other (s.consume n txHash row
        (.running (.consume txHash publicKey) allowPrimary (.committing none)))
  /-- The challenge is consumed by a transaction that binds a wallet. -/
  | consumeBind {s : State} {n userId : ℕ} {txHash publicKey : JsString} {allowPrimary : Bool}
      {row : AuthChallenge} :
      s.calls n = .running (.bind txHash publicKey userId) allowPrimary .consuming →
      s.challenges.view n txHash = some row → row.consumed = false → s.challenges.Free n txHash →
      Step s .other (s.consume n txHash row
        (.running (.bind txHash publicKey userId) allowPrimary .searching))
  /-- There is no row of another user with the key. -/
  | search {s : State} {n userId : ℕ} {txHash publicKey : JsString} {allowPrimary : Bool} :
      s.calls n = .running (.bind txHash publicKey userId) allowPrimary .searching →
      (∀ k row, s.wallets.view n k = some row → row.publicKey = publicKey → row.userId = userId) →
      Step s .other (s.enter n (.running (.bind txHash publicKey userId) allowPrimary .owning))
  /-- The wallet is bound to the user already. -/
  | bound {s : State} {n userId k : ℕ} {txHash publicKey : JsString} {allowPrimary : Bool}
      {row : Wallet} : s.calls n = .running (.bind txHash publicKey userId) allowPrimary .owning →
      s.wallets.view n k = some row → row.publicKey = publicKey → row.userId = userId →
      row.deleted = false →
      Step s .other
        (s.enter n (.running (.bind txHash publicKey userId) allowPrimary (.committing none)))
  /-- The wallet was removed. -/
  | own {s : State} {n userId k : ℕ} {txHash publicKey : JsString} {allowPrimary : Bool}
      {row : Wallet} : s.calls n = .running (.bind txHash publicKey userId) allowPrimary .owning →
      s.wallets.view n k = some row → row.publicKey = publicKey → row.userId = userId →
      row.deleted = true →
      Step s .other
        (s.enter n (.running (.bind txHash publicKey userId) allowPrimary (.counting (some k))))
  | unowned {s : State} {n userId : ℕ} {txHash publicKey : JsString} {allowPrimary : Bool} :
      s.calls n = .running (.bind txHash publicKey userId) allowPrimary .owning →
      (∀ k row, s.wallets.view n k = some row → row.publicKey = publicKey → row.userId ≠ userId) →
      Step s .other
        (s.enter n (.running (.bind txHash publicKey userId) allowPrimary (.counting none)))
  | count {s : State} {n userId : ℕ} {operation : Operation} {allowPrimary isPrimary : Bool}
      {own : Option ℕ} : s.calls n = .running operation allowPrimary (.counting own) →
      operation.userId = some userId →
      (isPrimary = true ↔ allowPrimary = true
        ∧ ∀ k row, s.wallets.view n k = some row → ¬ row.LivePrimary userId) →
      Step s .other (s.enter n (.running operation allowPrimary (.saving own isPrimary)))
  /-- The wallet is inserted. -/
  | insert {s : State} {n userId walletId : ℕ} {txHash publicKey : JsString}
      {allowPrimary isPrimary : Bool} :
      s.calls n = .running (.bind txHash publicKey userId) allowPrimary (.saving none isPrimary) →
      s.wallets.committed walletId = none → (∀ m, s.wallets.writes m walletId = none) →
      Indexed s.wallets n walletId ⟨userId, publicKey, isPrimary, false⟩ →
      Step s .other (s.save n walletId ⟨userId, publicKey, isPrimary, false⟩
        (.running (.bind txHash publicKey userId) allowPrimary
          (.committing (some (walletId, userId)))))
  /-- `reactivateRow`. -/
  | reactivateRow {s : State} {n walletId : ℕ} {operation : Operation}
      {allowPrimary isPrimary : Bool} {row : Wallet} :
      s.calls n = .running operation allowPrimary (.saving (some walletId) isPrimary) →
      s.wallets.view n walletId = some row → s.wallets.Free n walletId →
      Indexed s.wallets n walletId { row with isPrimary, deleted := false } →
      Step s .other (s.save n walletId { row with isPrimary, deleted := false }
        (.running operation allowPrimary (.committing (some (walletId, row.userId)))))
  /-- A user is created, with the wallet. -/
  | create {s : State} {n userId walletId : ℕ} {txHash publicKey : JsString} {allowPrimary : Bool} :
      s.calls n = .running (.create txHash publicKey) allowPrimary (.saving none true) →
      (∀ k row, s.wallets.Version k row → row.userId ≠ userId) →
      s.wallets.committed walletId = none → (∀ m, s.wallets.writes m walletId = none) →
      Indexed s.wallets n walletId ⟨userId, publicKey, true, false⟩ →
      Step s .other (s.save n walletId ⟨userId, publicKey, true, false⟩
        (.running (.create txHash publicKey) allowPrimary (.committing (some (walletId, userId)))))
  | commit {s : State} {n : ℕ} {operation : Operation} {allowPrimary : Bool}
      {attached : Option (ℕ × ℕ)} :
      s.calls n = .running operation allowPrimary (.committing attached) →
      Step s .other ((s.commit n (operation.next attached)).log (operation.attached attached))
  /-- `findByPublicKey` finds the wallet. -/
  | resolve {s : State} {n k : ℕ} {txHash publicKey : JsString} {row : Wallet} :
      s.calls n = .resolving txHash publicKey ∨ s.calls n = .rereading txHash publicKey →
      s.wallets.committed k = some row → row.Live publicKey →
      Step s .other (s.enter n (.issuing txHash row.userId))
  | unresolved {s : State} {n : ℕ} {txHash publicKey : JsString} :
      s.calls n = .resolving txHash publicKey →
      (∀ k row, s.wallets.committed k = some row → ¬ row.Live publicKey) →
      Step s .other (s.enter n (.unknown txHash publicKey))
  /-- `findAnyByPublicKey` finds a wallet. -/
  | removed {s : State} {n k : ℕ} {txHash publicKey : JsString} {row : Wallet} :
      s.calls n = .unknown txHash publicKey → s.wallets.committed k = some row →
      row.publicKey = publicKey →
      Step s .other
        (s.enter n (.running (.reactivate txHash k row.userId) true (.counting (some k))))
  | absent {s : State} {n : ℕ} {txHash publicKey : JsString} :
      s.calls n = .unknown txHash publicKey →
      (∀ k row, s.wallets.committed k = some row → row.publicKey ≠ publicKey) →
      Step s .other (s.enter n (.running (.create txHash publicKey) true (.saving none true)))
  /-- `UQ_wallets_public_key_active` refuses the wallet. -/
  | raced {s : State} {n k : ℕ} {txHash publicKey : JsString} {allowPrimary : Bool} {stage : Stage}
      {row : Wallet} : s.calls n = .running (.create txHash publicKey) allowPrimary stage →
      s.wallets.view n k = some row → row.Live publicKey →
      Step s (.rollback n) (s.abort n (.rereading txHash publicKey))
  /-- `UQ_wallets_primary_active` refuses the wallet, and the transaction is tried once more. -/
  | retry {s : State} {n k userId : ℕ} {operation : Operation} {own : Option ℕ} {stage : Stage}
      {row : Wallet} : s.calls n = .running operation true (.saving own true) →
      operation.restart = some stage → operation.userId = some userId →
      s.wallets.view n k = some row → row.LivePrimary userId →
      Step s (.rollback n) (s.abort n (.running operation false stage))
  /-- `issueTokensForUser`. -/
  | issueTokens {s : State} {n userId : ℕ} {txHash : JsString} :
      s.calls n = .issuing txHash userId →
      Step s .other ((s.enter n .idle).log [.tokens txHash userId])
  /-- The call fails otherwise, or the process crashes. -/
  | fail {s : State} {n : ℕ} : Step s (.rollback n) (s.abort n .idle)

/-- The calls as a transition system. At first there are no challenges. -/
def system : Transition.System State Label where
  init s := (∀ txHash, s.challenges.committed txHash = none)
    ∧ (∀ n, s.challenges.writes n = fun _ => none) ∧ (∀ n, s.wallets.writes n = fun _ => none)
    ∧ (∀ n, s.calls n = .idle) ∧ s.events = []
  step := Step

/-! ### What is to hold -/

/-- The challenge of which an event is an effect. -/
def Event.effect : Event → Option JsString
  | .tokens txHash _ | .attached txHash .. => some txHash
  | .issued .. => none

/-- A challenge has one effect at most. -/
def OneEffect (s : State) : Prop :=
  s.events.Pairwise fun e e' => ∀ txHash, e.effect = some txHash → e'.effect ≠ some txHash

/-- The challenge was issued to a user, or to nobody. -/
def IssuedTo (events : List Event) (txHash : JsString) (userId : Option ℕ) : Prop :=
  ∃ challenge, .issued txHash challenge ∈ events ∧ challenge.userId = userId

/-- For a challenge tokens are issued once at most, and a wallet is attached once at most.
Tokens are issued only for one that was issued to nobody. For one that was issued to a user, a
wallet is attached only to the user; for one that was issued to nobody, only to the user who is
issued the tokens. -/
structure SingleUse (s : State) : Prop where
  tokens : s.events.Pairwise fun e e' =>
    ∀ txHash userId userId', e = .tokens txHash userId → e' ≠ .tokens txHash userId'
  attached : s.events.Pairwise fun e e' => ∀ txHash walletId walletId' userId userId',
    e = .attached txHash walletId userId → e' ≠ .attached txHash walletId' userId'
  anonymous : ∀ txHash userId userId', .tokens txHash userId ∈ s.events →
    IssuedTo s.events txHash userId' → userId' = none
  owner : ∀ txHash walletId userId userId', .attached txHash walletId userId ∈ s.events →
    IssuedTo s.events txHash userId' → userId' = some userId
      ∨ userId' = none ∧ ∀ userId'', .tokens txHash userId'' ∈ s.events → userId'' = userId

/-- When a transaction that binds a wallet is rolled back, its challenge is left as it was; it
has not been consumed, if it was the transaction that was to consume it. -/
def Restores (s : State) (l : Label) (s' : State) : Prop :=
  ∀ n txHash publicKey userId allowPrimary stage, l = .rollback n →
    s.calls n = .running (.bind txHash publicKey userId) allowPrimary stage →
    s'.challenges.committed = s.challenges.committed ∧ s'.challenges.writes n txHash = none
      ∧ (stage ≠ .consuming → ∃ row, s'.challenges.committed txHash = some row
        ∧ row.consumed = false)

end Sep10
