import Tove.Base.Movement
import Tove.Base.Transition
import Tove.Soroban

/-!
# The fraction token

The contract `FractionToken` of `tove-fraction-token`. Its units are the fractions of one
artwork. They are issued once, by `mint_settle`, and every later movement passes the compliance
checks and the lockup floors of `guard_movement`. An upgrade of the executable seals the
movements until `migrate` has compared the state with the snapshot that the upgrade recorded.

A slot of the storage is empty or holds a value, and reading an empty slot traps. The operations
of the fungible base, the encoding of values and the hash function come from other packages, and
are parameters. The metadata of the token and the lifetime extensions of storage entries are
left out.
-/

namespace Token

open Soroban Ledgers

/-- Royalty share routed to the artist on secondary settlement, in basis points. -/
def ROYALTY_BPS : ℤ := 150

/-- Platform fee share on secondary settlement, in basis points. -/
def PLATFORM_FEE_BPS : ℤ := 150

/-- The storage schema that the executable understands. -/
def CURRENT_SCHEMA_VERSION : ℕ := 1

/-- The errors of the contract. -/
inductive Error where
  | InvariantViolated
  | AlreadyMinted
  | UnauthorizedMinter
  | EmptyMint
  | RecipientNotWhitelisted
  | Frozen
  | ArtistLockupViolated
  | TreasuryLockupViolated
  | LeftoverAlreadyRecorded
  | InvalidTrade
  | MigrationPending
  | InvalidAmount
  deriving DecidableEq, Repr

/-- The outcome of a call. -/
abbrev Outcome (α : Type) : Type := Except (Failure Error) α

/-! ### The storage -/

/-- The parameters of the constructor. -/
structure TokenInit where
  artworkId : BytesN32
  proxyAdmin : Address
  artist : Address
  artistPayout : Address
  treasury : Address
  artistRetention : I128
  artistLockupUntil : ℕ
  treasuryRetention : I128
  treasuryLockupUntil : ℕ
  kycAllowlist : Address
  freezeSet : Address
  marketplaceSettler : Address
  minter : Address
  usdc : Address
  implWasmHash : BytesN32
  deriving DecidableEq, Repr

/-- The baseline that `upgrade` records and `migrate` compares with. -/
structure InvariantSnapshot where
  totalSupply : ℤ
  artistLockupUntil : ℕ
  treasuryLockupUntil : ℕ
  minted : Bool
  configDigest : BytesN32
  deriving DecidableEq, Repr

/-- The slots of the contract, and the schema version of the upgradeable base. -/
structure Storage where
  artworkId : Option BytesN32
  proxyAdmin : Option Address
  artist : Option Address
  artistPayout : Option Address
  treasury : Option Address
  artistRetention : Option I128
  artistLockupUntil : Option ℕ
  treasuryRetention : Option I128
  treasuryLockupUntil : Option ℕ
  kycAllowlist : Option Address
  freezeSet : Option Address
  marketplaceSettler : Option Address
  minter : Option Address
  usdc : Option Address
  implWasmHash : Option BytesN32
  mintDone : Option Bool
  artistAbsorbedLeftover : Option I128
  migrationPending : Option Bool
  invariantSnapshot : Option InvariantSnapshot
  schemaVersion : Option ℕ
  deriving DecidableEq, Repr

/-- What the fungible base stores: the balances, the total supply, and the allowances with the
ledgers up to which they live. -/
structure Holdings where
  balances : Ledger Address
  totalSupply : ℤ
  allowances : Address → Address → ℤ × ℕ

/-- The storage of the contract, and the balances of the USDC tokens. -/
structure World where
  storage : Storage
  holdings : Holdings
  usdc : Address → Ledger Address

/-- The gating contract that a setter replaces. -/
inductive GatingKind where
  | kyc
  | freeze
  deriving DecidableEq, Repr

/-- The events that the contract publishes, those of the fungible base first. -/
inductive Event where
  | Mint (target : Address) (amount : ℤ)
  | Transfer (source target : Address) (toMuxedId : Option ℕ) (amount : ℤ)
  | Burn (source : Address) (amount : ℤ)
  | Approve (owner spender : Address) (amount : ℤ) (liveUntilLedger : ℕ)
  | TradeSettled (buyer seller : Address) (count grossUsdc platformCut artistCut sellerNet : ℤ)
  | ProxyUpgraded (oldWasmHash newWasmHash : BytesN32)
  | MigrationCompleted (schema : ℕ)
  | GatingUpdated (kind : GatingKind) (old new : Address)
  deriving DecidableEq, Repr

/-! ### What other packages provide -/

/-- An address with an optional id. -/
structure MuxedAddress where
  address : Address
  id : Option ℕ
  deriving DecidableEq, Repr

/-- The functions of the gating contracts. -/
inductive GateFn where
  | isFrozen
  | isAllowed
  deriving DecidableEq, Repr

/-- What the host decides: the time, and what a gating contract answers, if it does. -/
structure Host extends Soroban.Env where
  timestamp : ℕ
  invokeGate : Address → GateFn → Address → Option Bool

/-- The fungible base. Each of its operations returns the new holdings with the events that it
publishes; `update` publishes none. -/
structure Base where
  update : Option Address → Option Address → ℤ → Holdings → Outcome Holdings
  mint : Address → ℤ → Holdings → Outcome (Holdings × List Event)
  transfer : Host → Address → MuxedAddress → ℤ → Holdings → Outcome (Holdings × List Event)
  transferFrom : Host → Address → Address → Address → ℤ → Holdings →
    Outcome (Holdings × List Event)
  burn : Host → Address → ℤ → Holdings → Outcome (Holdings × List Event)
  burnFrom : Host → Address → Address → ℤ → Holdings → Outcome (Holdings × List Event)
  approve : Host → Address → Address → ℤ → ℕ → Holdings → Outcome (Holdings × List Event)

/-- What the contract uses of other packages: the fungible base, the schema version as the
upgradeable base reads it, the hash function, and the encodings of values. -/
structure Packages where
  base : Base
  getSchemaVersion : Option ℕ → Outcome ℕ
  sha256 : List UInt8 → BytesN32
  bytesToXdr : BytesN32 → List UInt8
  addressToXdr : Address → List UInt8
  i128ToXdr : I128 → List UInt8

/-- Read a slot. -/
def unwrap {α : Type} : Option α → Outcome α
  | none => throw .trap
  | some a => return a

/-! ### The guard of the movements -/

/-- `migration_pending`. -/
def migrationPending (s : Storage) : Bool := s.migrationPending.isSome

/-- `gate_check`: ask a gating contract about a party. -/
def gateCheck (host : Host) (gating : Address) (fn : GateFn) (party : Address) : Outcome Bool :=
  unwrap (host.invokeGate gating fn party)

/-- `check_lockup_floor`: what is taken from the artist or from the treasury has to leave the
floor. -/
def checkLockupFloor (host : Host) (source : Address) (amount : ℤ) (w : World) : Outcome Unit := do
  let artist ← unwrap w.storage.artist
  let treasury ← unwrap w.storage.treasury
  if source = artist then
    let lockupUntil ← unwrap w.storage.artistLockupUntil
    if host.timestamp < lockupUntil then
      let retention ← unwrap w.storage.artistRetention
      let leftover : ℤ := (w.storage.artistAbsorbedLeftover.map Subtype.val).getD 0
      let rest ← i128 (w.holdings.balances source - amount)
      let floor ← i128 (retention + leftover)
      errorIf (rest < floor) .ArtistLockupViolated
  else if source = treasury then
    let lockupUntil ← unwrap w.storage.treasuryLockupUntil
    if host.timestamp < lockupUntil then
      let retention ← unwrap w.storage.treasuryRetention
      let rest ← i128 (w.holdings.balances source - amount)
      errorIf (rest < retention) .TreasuryLockupViolated

/-- The part of `guard_movement` about the recipient: not frozen, and on the allowlist. -/
def checkRecipient (host : Host) (freezeSet : Address) (s : Storage) : Option Address → Outcome Unit
  | none => return ()
  | some target => do
    let frozen ← gateCheck host freezeSet .isFrozen target
    errorIf (frozen = true) .Frozen
    let kyc ← unwrap s.kycAllowlist
    let allowed ← gateCheck host kyc .isAllowed target
    errorIf (allowed = false) .RecipientNotWhitelisted

/-- `guard_movement`: no movement while a migration is pending; a movement out of an account
passes the freeze set, the allowlist and the lockup floors. -/
def guardMovement (host : Host) (source target : Option Address) (amount : ℤ) (w : World) :
    Outcome Unit := do
  errorIf (migrationPending w.storage = true) .MigrationPending
  match source with
  | none => return ()
  | some source =>
    let freezeSet ← unwrap w.storage.freezeSet
    let frozen ← gateCheck host freezeSet .isFrozen source
    errorIf (frozen = true) .Frozen
    checkRecipient host freezeSet w.storage target
    checkLockupFloor host source amount w

/-! ### Deployment and initial distribution -/

/-- `__constructor`: bind the parameters of the artwork. -/
def construct (init : TokenInit) (usdc : Address → Ledger Address) : World where
  storage := {
    artworkId := some init.artworkId
    proxyAdmin := some init.proxyAdmin
    artist := some init.artist
    artistPayout := some init.artistPayout
    treasury := some init.treasury
    artistRetention := some init.artistRetention
    artistLockupUntil := some init.artistLockupUntil
    treasuryRetention := some init.treasuryRetention
    treasuryLockupUntil := some init.treasuryLockupUntil
    kycAllowlist := some init.kycAllowlist
    freezeSet := some init.freezeSet
    marketplaceSettler := some init.marketplaceSettler
    minter := some init.minter
    usdc := some init.usdc
    implWasmHash := some init.implWasmHash
    mintDone := none
    artistAbsorbedLeftover := none
    migrationPending := none
    invariantSnapshot := none
    schemaVersion := some CURRENT_SCHEMA_VERSION }
  holdings := ⟨fun _ => 0, 0, fun _ _ => (0, 0)⟩
  usdc

/-- The checks that `mint_settle` and `record_absorbed_leftover` share: the minter calls, before
the distribution. -/
def checkMinter (host : Host) (operator : Address) (s : Storage) : Outcome Unit := do
  requireAuth host.toEnv operator
  errorIf (migrationPending s = true) .MigrationPending
  let minter ← unwrap s.minter
  errorIf (operator ≠ minter) .UnauthorizedMinter
  errorIf (s.mintDone.isSome = true) .AlreadyMinted

/-- One round of `mint_settle`: issue the units of a recipient. -/
def mintTo (pkg : Packages) (host : Host) (minted : World × List Event) (recipient : Address × ℤ) :
    Outcome (World × List Event) := do
  errorIf (recipient.2 ≤ 0) .InvalidAmount
  guardMovement host none (some recipient.1) recipient.2 minted.1
  let (holdings, events) ← pkg.base.mint recipient.1 recipient.2 minted.1.holdings
  return ({ minted.1 with holdings }, minted.2 ++ events)

/-- `mint_settle`: issue the initial distribution, once. -/
def mintSettle (pkg : Packages) (host : Host) (operator : Address) (recipients : List (Address × ℤ))
    (w : World) : Outcome (World × List Event) := do
  checkMinter host operator w.storage
  errorIf (recipients = []) .EmptyMint
  let (w, events) ← recipients.foldlM (mintTo pkg host) (w, [])
  return ({ w with storage := { w.storage with mintDone := some true } }, events)

/-- `record_absorbed_leftover`: raise the floor of the artist, once and before the distribution. -/
def recordAbsorbedLeftover (host : Host) (operator : Address) (amount : I128) (w : World) :
    Outcome (World × List Event) := do
  checkMinter host operator w.storage
  errorIf (w.storage.artistAbsorbedLeftover.isSome = true) .LeftoverAlreadyRecorded
  errorIf (amount.val < 0) .InvalidAmount
  return ({ w with storage := { w.storage with artistAbsorbedLeftover := some amount } }, [])

/-! ### Secondary trades -/

/-- A leg of `settle_trade`, which is left out when its amount is not positive. -/
def usdcLeg (host : Host) (source target : Address) (amount : ℤ) (balances : Ledger Address) :
    Outcome (Ledger Address) :=
  if 0 < amount then usdcTransfer host.toEnv balances source target amount else return balances

/-- The USDC legs of `settle_trade`: the fee of the platform, the royalty, and the rest to the
seller. -/
def payTrade (host : Host) (buyer seller : Address) (gross platformCut artistCut sellerNet : ℤ)
    (w : World) : Outcome (Address → Ledger Address) :=
  if 0 < gross then do
    let usdc ← unwrap w.storage.usdc
    let treasury ← unwrap w.storage.treasury
    let artistPayout ← unwrap w.storage.artistPayout
    let balances ← usdcLeg host buyer treasury platformCut (w.usdc usdc)
    let balances ← usdcLeg host buyer artistPayout artistCut balances
    let balances ← usdcLeg host buyer seller sellerNet balances
    return Function.update w.usdc usdc balances
  else return w.usdc

/-- `settle_trade`: move the fractions of a secondary trade and split its price. -/
def settleTrade (pkg : Packages) (host : Host) (buyer seller : Address) (count gross : ℤ)
    (w : World) : Outcome (World × List Event) := do
  let settler ← unwrap w.storage.marketplaceSettler
  requireAuth host.toEnv settler
  errorIf (count ≤ 0 ∨ gross < 0 ∨ buyer = seller) .InvalidTrade
  guardMovement host (some seller) (some buyer) count w
  let holdings ← pkg.base.update (some seller) (some buyer) count w.holdings
  let platformFee ← i128 (gross * PLATFORM_FEE_BPS)
  let platformCut := platformFee / 10000
  let royalty ← i128 (gross * ROYALTY_BPS)
  let artistCut := royalty / 10000
  let sellerNet := gross - platformCut - artistCut
  let usdc ← payTrade host buyer seller gross platformCut artistCut sellerNet w
  return ({ w with holdings, usdc }, [.Transfer seller buyer none count,
    .TradeSettled buyer seller count gross platformCut artistCut sellerNet])

/-! ### Movements by holders and spenders -/

/-- A movement that the fungible base carries out after the guard. -/
def guarded (host : Host) (source target : Option Address) (amount : ℤ)
    (move : Holdings → Outcome (Holdings × List Event)) (w : World) :
    Outcome (World × List Event) := do
  guardMovement host source target amount w
  let (holdings, events) ← move w.holdings
  return ({ w with holdings }, events)

/-- `transfer`. -/
def transfer (pkg : Packages) (host : Host) (source : Address) (target : MuxedAddress)
    (amount : ℤ) :
    World → Outcome (World × List Event) :=
  guarded host (some source) (some target.address) amount
    (pkg.base.transfer host source target amount)

/-- `transfer_from`. -/
def transferFrom (pkg : Packages) (host : Host) (spender source target : Address) (amount : ℤ) :
    World → Outcome (World × List Event) :=
  guarded host (some source) (some target) amount
    (pkg.base.transferFrom host spender source target amount)

/-- `burn`. -/
def burn (pkg : Packages) (host : Host) (source : Address) (amount : ℤ) :
    World → Outcome (World × List Event) :=
  guarded host (some source) none amount (pkg.base.burn host source amount)

/-- `burn_from`. -/
def burnFrom (pkg : Packages) (host : Host) (spender source : Address) (amount : ℤ) :
    World → Outcome (World × List Event) :=
  guarded host (some source) none amount (pkg.base.burnFrom host spender source amount)

/-- `approve`, which the contract takes over from the fungible base. -/
def approve (pkg : Packages) (host : Host) (owner spender : Address) (amount : ℤ)
    (liveUntilLedger : ℕ) (w : World) : Outcome (World × List Event) := do
  let (holdings, events) ← pkg.base.approve host owner spender amount liveUntilLedger w.holdings
  return ({ w with holdings }, events)

/-! ### Upgrades -/

/-- `require_proxy_admin`. -/
def requireProxyAdmin (host : Host) (s : Storage) : Outcome Unit := do
  let admin ← unwrap s.proxyAdmin
  requireAuth host.toEnv admin

/-- What `config_digest` hashes: the slots of the configuration that are written once. -/
def configBytes (pkg : Packages) (s : Storage) : Outcome (List UInt8) := do
  let artworkId ← unwrap s.artworkId
  let artist ← unwrap s.artist
  let artistPayout ← unwrap s.artistPayout
  let treasury ← unwrap s.treasury
  let settler ← unwrap s.marketplaceSettler
  let minter ← unwrap s.minter
  let usdc ← unwrap s.usdc
  let artistRetention ← unwrap s.artistRetention
  let treasuryRetention ← unwrap s.treasuryRetention
  let absorbedLeftover := s.artistAbsorbedLeftover.getD ⟨0, by decide⟩
  return pkg.bytesToXdr artworkId ++ pkg.addressToXdr artist ++ pkg.addressToXdr artistPayout
    ++ pkg.addressToXdr treasury ++ pkg.addressToXdr settler ++ pkg.addressToXdr minter
    ++ pkg.addressToXdr usdc ++ pkg.i128ToXdr artistRetention ++ pkg.i128ToXdr treasuryRetention
    ++ pkg.i128ToXdr absorbedLeftover

/-- `config_digest`. -/
def configDigest (pkg : Packages) (s : Storage) : Outcome BytesN32 := do
  let buf ← configBytes pkg s
  return pkg.sha256 buf

/-- The snapshot that `upgrade` records. -/
def takeSnapshot (pkg : Packages) (w : World) : Outcome InvariantSnapshot := do
  let artistLockupUntil ← unwrap w.storage.artistLockupUntil
  let treasuryLockupUntil ← unwrap w.storage.treasuryLockupUntil
  let configDigest ← configDigest pkg w.storage
  return {
    totalSupply := w.holdings.totalSupply
    artistLockupUntil
    treasuryLockupUntil
    minted := w.storage.mintDone.isSome
    configDigest }

/-- The storage with the seal and the snapshot, which the first upgrade records. -/
def recordSnapshot (pkg : Packages) (w : World) : Outcome Storage :=
  if migrationPending w.storage then return w.storage
  else do
    let snapshot ← takeSnapshot pkg w
    return { w.storage with invariantSnapshot := some snapshot, migrationPending := some true }

/-- `upgrade`: swap the executable. -/
def upgrade (pkg : Packages) (host : Host) (newWasmHash : BytesN32) (w : World) :
    Outcome (World × List Event) := do
  requireProxyAdmin host w.storage
  let oldWasmHash ← unwrap w.storage.implWasmHash
  let storage ← recordSnapshot pkg w
  return ({ w with storage := { storage with implWasmHash := some newWasmHash } },
    [.ProxyUpgraded oldWasmHash newWasmHash])

/-- The comparison of the state with the snapshot. -/
def checkSnapshot (pkg : Packages) (snapshot : InvariantSnapshot) (w : World) : Outcome Unit := do
  let artistLockupUntil ← unwrap w.storage.artistLockupUntil
  let treasuryLockupUntil ← unwrap w.storage.treasuryLockupUntil
  errorIf (w.holdings.totalSupply ≠ snapshot.totalSupply) .InvariantViolated
  errorIf (artistLockupUntil < snapshot.artistLockupUntil) .InvariantViolated
  errorIf (treasuryLockupUntil < snapshot.treasuryLockupUntil) .InvariantViolated
  errorIf (w.storage.mintDone.isSome ≠ snapshot.minted) .InvariantViolated
  let configDigest ← configDigest pkg w.storage
  errorIf (configDigest ≠ snapshot.configDigest) .InvariantViolated

/-- `migrate`: lift the seal when the state agrees with the snapshot. -/
def migrate (pkg : Packages) (host : Host) (w : World) : Outcome (World × List Event) := do
  requireProxyAdmin host w.storage
  if migrationPending w.storage then
    errorIf (ROYALTY_BPS ≠ 150 ∨ PLATFORM_FEE_BPS ≠ 150) .InvariantViolated
    let snapshot ← unwrap w.storage.invariantSnapshot
    checkSnapshot pkg snapshot w
    return ({ w with storage := { w.storage with
        migrationPending := none
        invariantSnapshot := none
        schemaVersion := some CURRENT_SCHEMA_VERSION } },
      [.MigrationCompleted CURRENT_SCHEMA_VERSION])
  else
    let version ← pkg.getSchemaVersion w.storage.schemaVersion
    errorIf (version ≠ CURRENT_SCHEMA_VERSION) .InvariantViolated
    return (w, [])

/-! ### Administration -/

/-- `set_proxy_admin`. -/
def setProxyAdmin (host : Host) (newAdmin : Address)
    (w : World) : Outcome (World × List Event) := do
  requireProxyAdmin host w.storage
  return ({ w with storage := { w.storage with proxyAdmin := some newAdmin } }, [])

/-- `set_kyc_allowlist`. -/
def setKycAllowlist (host : Host) (new : Address) (w : World) : Outcome (World × List Event) := do
  requireProxyAdmin host w.storage
  let old ← unwrap w.storage.kycAllowlist
  return ({ w with storage := { w.storage with kycAllowlist := some new } },
    [.GatingUpdated .kyc old new])

/-- `set_freeze_set`. -/
def setFreezeSet (host : Host) (new : Address) (w : World) : Outcome (World × List Event) := do
  requireProxyAdmin host w.storage
  let old ← unwrap w.storage.freezeSet
  return ({ w with storage := { w.storage with freezeSet := some new } },
    [.GatingUpdated .freeze old new])

/-! ### The contract as a transition system -/

/-- A call of the contract. -/
inductive Call where
  | mintSettle (operator : Address) (recipients : List (Address × ℤ))
  | recordAbsorbedLeftover (operator : Address) (amount : I128)
  | settleTrade (buyer seller : Address) (count gross : ℤ)
  | transfer (source : Address) (target : MuxedAddress) (amount : ℤ)
  | transferFrom (spender source target : Address) (amount : ℤ)
  | burn (source : Address) (amount : ℤ)
  | burnFrom (spender source : Address) (amount : ℤ)
  | approve (owner spender : Address) (amount : ℤ) (liveUntilLedger : ℕ)
  | upgrade (newWasmHash : BytesN32)
  | migrate
  | setProxyAdmin (newAdmin : Address)
  | setKycAllowlist (new : Address)
  | setFreezeSet (new : Address)
  deriving DecidableEq, Repr

/-- Run a call. -/
def perform (pkg : Packages) (host : Host) : Call → World → Outcome (World × List Event)
  | .mintSettle operator recipients => mintSettle pkg host operator recipients
  | .recordAbsorbedLeftover operator amount => recordAbsorbedLeftover host operator amount
  | .settleTrade buyer seller count gross => settleTrade pkg host buyer seller count gross
  | .transfer source target amount => transfer pkg host source target amount
  | .transferFrom spender source target amount => transferFrom pkg host spender source target amount
  | .burn source amount => burn pkg host source amount
  | .burnFrom spender source amount => burnFrom pkg host spender source amount
  | .approve owner spender amount live => approve pkg host owner spender amount live
  | .upgrade newWasmHash => upgrade pkg host newWasmHash
  | .migrate => migrate pkg host
  | .setProxyAdmin newAdmin => setProxyAdmin host newAdmin
  | .setKycAllowlist new => setKycAllowlist host new
  | .setFreezeSet new => setFreezeSet host new

/-- A step of the system: a call with its events, a call that fails, or a movement of USDC
outside the contract. -/
inductive Label where
  | call (host : Host) (c : Call) (events : List Event)
  | failed (host : Host) (c : Call) (failure : Failure Error)
  | outside

/-- The steps of the system.  A failed call changes nothing. -/
inductive Step (pkg : Packages) : World → Label → World → Prop where
  | call {host : Host} {c : Call} {w w' : World} {events : List Event} :
    perform pkg host c w = .ok (w', events) → Step pkg w (.call host c events) w'
  | failed {host : Host} {c : Call} {w : World} {failure : Failure Error} :
    perform pkg host c w = .error failure → Step pkg w (.failed host c failure) w
  | outside {w : World} {usdc : Address → Ledger Address} : Step pkg w .outside { w with usdc }

/-- The contract from its deployment on, as a transition system. -/
def system (pkg : Packages) (init : TokenInit) : Transition.System World Label where
  init w := ∃ usdc, construct init usdc = w
  step := Step pkg

end Token
