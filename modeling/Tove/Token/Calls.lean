import Tove.Base.Digits
import Tove.Token.Contract

/-!
# What the calls of the token do

The guard is taken apart into the demands that a movement meets, and a successful call into one
of the changes that calls make. What the fungible base is relied on for is stated once, as laws.
-/

namespace Token

open Soroban Ledgers Totals Digits

/-! ### The laws of the fungible base -/

/-- The holdings after a movement: the amount is not negative, the source has it, and the
balances and the supply change by the movement. -/
structure Holdings.Moved (h : Holdings) (m : Movement Address) (h' : Holdings) : Prop where
  nonneg : 0 ≤ m.amount
  covered : ∀ a, m.source = some a → m.amount ≤ h.balances a
  balances : h'.balances = m.post h.balances
  totalSupply : h'.totalSupply = h.totalSupply + m.issued

/-- The fungible base carries out the movements of SEP-41, with one event for each of them. It
rejects negative amounts and amounts that the source does not have. -/
structure Base.Lawful (base : Base) : Prop where
  update : ∀ {source target amount h h'}, base.update source target amount h = .ok h' →
    h.Moved ⟨source, target, amount⟩ h'
  mint : ∀ {target amount h h' events}, base.mint target amount h = .ok (h', events) →
    h.Moved ⟨none, some target, amount⟩ h' ∧ events = [.Mint target amount]
  transfer : ∀ {host source} {target : MuxedAddress} {amount h h' events},
    base.transfer host source target amount h = .ok (h', events) →
    h.Moved ⟨some source, some target.address, amount⟩ h'
      ∧ events = [.Transfer source target.address target.id amount]
  transferFrom : ∀ {host spender source target amount h h' events},
    base.transferFrom host spender source target amount h = .ok (h', events) →
    h.Moved ⟨some source, some target, amount⟩ h' ∧ events = [.Transfer source target none amount]
  burn : ∀ {host source amount h h' events}, base.burn host source amount h = .ok (h', events) →
    h.Moved ⟨some source, none, amount⟩ h' ∧ events = [.Burn source amount]
  burnFrom : ∀ {host spender source amount h h' events},
    base.burnFrom host spender source amount h = .ok (h', events) →
    h.Moved ⟨some source, none, amount⟩ h' ∧ events = [.Burn source amount]
  approve : ∀ {host owner spender amount live} {h h' : Holdings} {events},
    base.approve host owner spender amount live h = .ok (h', events) →
    (h'.balances = h.balances ∧ h'.totalSupply = h.totalSupply)
      ∧ events = [.Approve owner spender amount live]

/-- Carry out a movement. -/
def Holdings.move (h : Holdings) (m : Movement Address) : Outcome Holdings := do
  trapIf (m.amount < 0 ∨ ∃ a ∈ m.source, h.balances a < m.amount)
  return { h with balances := m.post h.balances, totalSupply := h.totalSupply + m.issued }

theorem Holdings.moved_of_move {h h' : Holdings} {m : Movement Address}
    (hmove : h.move m = .ok h') :
  h.Moved m h'
  := by
  simp only [move, trapIf, Checks.bind_eq_ok, Checks.rejectIf_eq_ok, Checks.pure_eq_ok,
    exists_const, not_or, not_lt, not_exists, not_and] at hmove
  obtain ⟨⟨hnonneg, hcovered⟩, rfl⟩ := hmove
  exact ⟨hnonneg, hcovered, rfl, rfl⟩

/-- Take an amount from an allowance. -/
def Holdings.spendAllowance (h : Holdings) (owner spender : Address) (amount : ℤ) :
    Outcome Holdings := do
  let allowance := h.allowances owner spender
  trapIf (allowance.1 < amount)
  let allowances := Function.update h.allowances owner
    (Function.update (h.allowances owner) spender (allowance.1 - amount, allowance.2))
  return { h with allowances }

theorem Holdings.moved_of_spend {h h₁ h' : Holdings} {owner spender : Address} {amount : ℤ}
    {m : Movement Address} (hspend : h.spendAllowance owner spender amount = .ok h₁)
    (hmove : h₁.move m = .ok h') :
  h.Moved m h'
  := by
  simp only [spendAllowance, trapIf, Checks.bind_eq_ok, Checks.rejectIf_eq_ok, Checks.pure_eq_ok,
    exists_const] at hspend
  obtain ⟨_, rfl⟩ := hspend
  obtain ⟨hnonneg, hcovered, hbalances, hsupply⟩ := moved_of_move hmove
  exact ⟨hnonneg, hcovered, hbalances, hsupply⟩

/-- A fungible base without the expiry of allowances. -/
def plainBase : Base where
  update source target amount h := h.move ⟨source, target, amount⟩
  mint target amount h := do
    let h ← h.move ⟨none, some target, amount⟩
    return (h, [.Mint target amount])
  transfer host source target amount h := do
    requireAuth host.toEnv source
    let h ← h.move ⟨some source, some target.address, amount⟩
    return (h, [.Transfer source target.address target.id amount])
  transferFrom host spender source target amount h := do
    requireAuth host.toEnv spender
    let h ← h.spendAllowance source spender amount
    let h ← h.move ⟨some source, some target, amount⟩
    return (h, [.Transfer source target none amount])
  burn host source amount h := do
    requireAuth host.toEnv source
    let h ← h.move ⟨some source, none, amount⟩
    return (h, [.Burn source amount])
  burnFrom host spender source amount h := do
    requireAuth host.toEnv spender
    let h ← h.spendAllowance source spender amount
    let h ← h.move ⟨some source, none, amount⟩
    return (h, [.Burn source amount])
  approve host owner spender amount live h := do
    requireAuth host.toEnv owner
    let allowances := Function.update h.allowances owner
      (Function.update (h.allowances owner) spender (amount, live))
    return ({ h with allowances }, [.Approve owner spender amount live])

/-- The laws can be met. -/
theorem plainBase_lawful :
  plainBase.Lawful
  := by
  constructor
  · intro source target amount h h' hok
    apply Holdings.moved_of_move hok
  · intro target amount h h' events hok
    simp only [plainBase, Checks.bind_eq_ok, Checks.pure_eq_ok, Prod.mk.injEq] at hok
    obtain ⟨_, hmove, rfl, rfl⟩ := hok
    exact ⟨Holdings.moved_of_move hmove, rfl⟩
  · intro host source target amount h h' events hok
    simp only [plainBase, Checks.bind_eq_ok, Checks.pure_eq_ok, Prod.mk.injEq] at hok
    obtain ⟨_, _, _, hmove, rfl, rfl⟩ := hok
    exact ⟨Holdings.moved_of_move hmove, rfl⟩
  · intro host spender source target amount h h' events hok
    simp only [plainBase, Checks.bind_eq_ok, Checks.pure_eq_ok, Prod.mk.injEq] at hok
    obtain ⟨_, _, _, hspend, _, hmove, rfl, rfl⟩ := hok
    exact ⟨Holdings.moved_of_spend hspend hmove, rfl⟩
  · intro host source amount h h' events hok
    simp only [plainBase, Checks.bind_eq_ok, Checks.pure_eq_ok, Prod.mk.injEq] at hok
    obtain ⟨_, _, _, hmove, rfl, rfl⟩ := hok
    exact ⟨Holdings.moved_of_move hmove, rfl⟩
  · intro host spender source amount h h' events hok
    simp only [plainBase, Checks.bind_eq_ok, Checks.pure_eq_ok, Prod.mk.injEq] at hok
    obtain ⟨_, _, _, hspend, _, hmove, rfl, rfl⟩ := hok
    exact ⟨Holdings.moved_of_spend hspend hmove, rfl⟩
  · intro host owner spender amount live h h' events hok
    simp only [plainBase, Checks.bind_eq_ok, Checks.pure_eq_ok, Prod.mk.injEq] at hok
    obtain ⟨_, _, rfl, rfl⟩ := hok
    exact ⟨⟨rfl, rfl⟩, rfl⟩

/-- Packages with the plain fungible base and with the encodings of XDR. -/
def plainPackages : Packages where
  base := plainBase
  getSchemaVersion := unwrap
  sha256 bytes := BitVec.ofNat 256 (bytes.foldl (fun n b => 257 * n + b.toNat + 1) 0)
  bytesToXdr b := bigEndian 13 4 ++ bigEndian 32 4 ++ bigEndian b.toNat 32
  addressToXdr
    | .account key => bigEndian 18 4 ++ bigEndian 0 4 ++ bigEndian 0 4 ++ bigEndian key.toNat 32
    | .contract hash => bigEndian 18 4 ++ bigEndian 1 4 ++ bigEndian hash.toNat 32
  i128ToXdr x := bigEndian 10 4 ++ bigEndian (x.val % 2 ^ 128).toNat 16

/-- The movement that an event reports. -/
def Event.movement : Event → Option (Movement Address)
  | .Mint target amount => some ⟨none, some target, amount⟩
  | .Transfer source target _ amount => some ⟨some source, some target, amount⟩
  | .Burn source amount => some ⟨some source, none, amount⟩
  | _ => none

/-- The movement that a call asks for, when it is not the initial distribution. -/
def Call.movement : Call → Option (Movement Address)
  | .settleTrade buyer seller count _ => some ⟨some seller, some buyer, count⟩
  | .transfer source target amount => some ⟨some source, some target.address, amount⟩
  | .transferFrom _ source target amount => some ⟨some source, some target, amount⟩
  | .burn source amount => some ⟨some source, none, amount⟩
  | .burnFrom _ source amount => some ⟨some source, none, amount⟩
  | _ => none

/-- A call of a setter. -/
def Call.Configures : Call → Prop
  | .setProxyAdmin _ | .setKycAllowlist _ | .setFreezeSet _ => True
  | _ => False

/-! ### The guard -/

section Guard

variable {host : Host} {w : World} {s : Storage}

@[simp]
theorem unwrap_eq_ok {α : Type} {o : Option α} {a : α} :
  unwrap o = .ok a ↔ o = some a
  := by
  cases o with
  | none => simp [unwrap]
  | some b => simp [unwrap]

theorem gateCheck_eq_ok {gating party : Address} {fn : GateFn} {b : Bool} :
  gateCheck host gating fn party = .ok b ↔ host.invokeGate gating fn party = some b
  := unwrap_eq_ok

/-- The floor of the artist: the retention, and the leftover once it is recorded. -/
def Storage.artistFloor (s : Storage) : ℤ :=
  (s.artistRetention.map Subtype.val).getD 0 + (s.artistAbsorbedLeftover.map Subtype.val).getD 0

/-- The floor of the treasury. -/
def Storage.treasuryFloor (s : Storage) : ℤ := (s.treasuryRetention.map Subtype.val).getD 0

/-- The lockup of the artist is running. -/
def Storage.ArtistLocked (s : Storage) (time : ℕ) : Prop := ∃ t ∈ s.artistLockupUntil, time < t

/-- The lockup of the treasury is running. -/
def Storage.TreasuryLocked (s : Storage) (time : ℕ) : Prop := ∃ t ∈ s.treasuryLockupUntil, time < t

/-- What the guard demands of a movement out of an account. -/
structure Cleared (host : Host) (w : World) (m : Movement Address) : Prop where
  notPending : w.storage.migrationPending = none
  source : ∀ a ∈ m.source, ∃ freezeSet ∈ w.storage.freezeSet,
    host.invokeGate freezeSet .isFrozen a = some false
  target : ∀ a ∈ m.target, ∃ freezeSet ∈ w.storage.freezeSet, ∃ kyc ∈ w.storage.kycAllowlist,
    host.invokeGate freezeSet .isFrozen a = some false
      ∧ host.invokeGate kyc .isAllowed a = some true
  artistFloor : ∀ a ∈ m.source, w.storage.artist = some a →
    w.storage.ArtistLocked host.timestamp →
    w.storage.artistFloor ≤ w.holdings.balances a - m.amount
  treasuryFloor : ∀ a ∈ m.source, w.storage.artist ≠ some a → w.storage.treasury = some a →
    w.storage.TreasuryLocked host.timestamp →
    w.storage.treasuryFloor ≤ w.holdings.balances a - m.amount

theorem checkRecipient_of_ok {freezeSet a : Address} {x : Unit}
    (h : checkRecipient host freezeSet s (some a) = .ok x) :
  ∃ kyc ∈ s.kycAllowlist, host.invokeGate freezeSet .isFrozen a = some false
    ∧ host.invokeGate kyc .isAllowed a = some true
  := by
  simp only [checkRecipient, errorIf, Checks.bind_eq_ok, Checks.rejectIf_eq_ok, gateCheck_eq_ok,
    unwrap_eq_ok, exists_const, Bool.not_eq_true, Bool.not_eq_false] at h
  obtain ⟨_, hfrozen, rfl, kyc, hkyc, _, hallowed, rfl⟩ := h
  exact ⟨kyc, hkyc, hfrozen, hallowed⟩

/-- The artist is checked against its own floor only. -/
theorem artistFloor_of_checkLockupFloor {a : Address} {amount : ℤ} {x : Unit}
    (h : checkLockupFloor host a amount w = .ok x) (hartist : w.storage.artist = some a)
    (hlocked : w.storage.ArtistLocked host.timestamp) :
  w.storage.artistFloor ≤ w.holdings.balances a - amount
  := by
  obtain ⟨t, ht, hlt⟩ := hlocked
  simp only [checkLockupFloor, Checks.bind_eq_ok, unwrap_eq_ok] at h
  obtain ⟨_, hartist', _, _, h⟩ := h
  obtain rfl := Option.some.inj (hartist.symm.trans hartist')
  rw [if_pos rfl] at h
  simp only [Checks.bind_eq_ok, unwrap_eq_ok] at h
  obtain ⟨_, ht', h⟩ := h
  obtain rfl := Option.some.inj (ht.symm.trans ht')
  rw [if_pos hlt] at h
  simp only [errorIf, Checks.bind_eq_ok, unwrap_eq_ok, i128_eq_ok, Checks.rejectIf_eq_ok,
    not_lt] at h
  obtain ⟨retention, hretention, _, ⟨_, rfl⟩, _, ⟨_, rfl⟩, hfloor⟩ := h
  rwa [Storage.artistFloor, hretention]

/-- Another account is checked against the floor of the treasury when it is the treasury. -/
theorem treasuryFloor_of_checkLockupFloor {a : Address} {amount : ℤ} {x : Unit}
    (h : checkLockupFloor host a amount w = .ok x) (hartist : w.storage.artist ≠ some a)
    (htreasury : w.storage.treasury = some a)
    (hlocked : w.storage.TreasuryLocked host.timestamp) :
  w.storage.treasuryFloor ≤ w.holdings.balances a - amount
  := by
  obtain ⟨t, ht, hlt⟩ := hlocked
  simp only [checkLockupFloor, Checks.bind_eq_ok, unwrap_eq_ok] at h
  obtain ⟨artist, hartist', _, htreasury', h⟩ := h
  obtain rfl := Option.some.inj (htreasury.symm.trans htreasury')
  have hne : a ≠ artist := by
    rintro rfl
    apply hartist hartist'
  rw [if_neg hne, if_pos rfl] at h
  simp only [Checks.bind_eq_ok, unwrap_eq_ok] at h
  obtain ⟨_, ht', h⟩ := h
  obtain rfl := Option.some.inj (ht.symm.trans ht')
  rw [if_pos hlt] at h
  simp only [errorIf, Checks.bind_eq_ok, unwrap_eq_ok, i128_eq_ok, Checks.rejectIf_eq_ok,
    not_lt] at h
  obtain ⟨retention, hretention, _, ⟨_, rfl⟩, hfloor⟩ := h
  rwa [Storage.treasuryFloor, hretention]

/-- Nothing passes the guard while a migration is pending. -/
theorem not_pending_of_guardMovement {source target : Option Address} {amount : ℤ} {x : Unit}
    (h : guardMovement host source target amount w = .ok x) :
  w.storage.migrationPending = none
  := by
  rw [guardMovement.eq_def, Checks.check_bind_eq_ok, errorIf, Checks.rejectIf_eq_ok] at h
  simpa [migrationPending] using h.1

/-- A movement out of an account that passes the guard meets its demands. -/
theorem cleared_of_guardMovement {m : Movement Address} {a : Address} (ha : m.source = some a)
    {x : Unit} (h : guardMovement host m.source m.target m.amount w = .ok x) :
  Cleared host w m
  := by
  have hpending := not_pending_of_guardMovement h
  rw [guardMovement.eq_def, Checks.check_bind_eq_ok, ha] at h
  simp only [errorIf, Checks.bind_eq_ok, Checks.rejectIf_eq_ok, gateCheck_eq_ok, unwrap_eq_ok,
    exists_const, Bool.not_eq_true] at h
  obtain ⟨_, freezeSet, hfreeze, _, hsource, rfl, _, hrecipient, hfloor⟩ := h
  constructor
  · apply hpending
  · rintro _ hc
    obtain rfl := Option.some.inj (ha.symm.trans hc)
    exact ⟨freezeSet, hfreeze, hsource⟩
  · intro b hb
    rw [hb] at hrecipient
    obtain ⟨kyc, hkyc, hfrozen, hallowed⟩ := checkRecipient_of_ok hrecipient
    exact ⟨freezeSet, hfreeze, kyc, hkyc, hfrozen, hallowed⟩
  · rintro _ hc hartist hlocked
    obtain rfl := Option.some.inj (ha.symm.trans hc)
    apply artistFloor_of_checkLockupFloor hfloor hartist hlocked
  · rintro _ hc hartist htreasury hlocked
    obtain rfl := Option.some.inj (ha.symm.trans hc)
    apply treasuryFloor_of_checkLockupFloor hfloor hartist htreasury hlocked

end Guard

/-! ### The initial distribution -/

/-- The movement that issues the units of a recipient. -/
def issue (recipient : Address × ℤ) : Movement Address := ⟨none, some recipient.1, recipient.2⟩

/-- The movement that issues units issues its amount. -/
theorem issued_issue (recipient : Address × ℤ) :
  (issue recipient).issued = recipient.2
  := Movement.issued_of_mint recipient.2

/-- What the minter has to meet. -/
structure MayMint (host : Host) (operator : Address) (s : Storage) : Prop where
  auth : host.auth operator = true
  notPending : s.migrationPending = none
  minter : s.minter = some operator
  notMinted : s.mintDone = none

theorem checkMinter_eq_ok {host : Host} {operator : Address} {s : Storage} {x : Unit} :
  checkMinter host operator s = .ok x ↔ MayMint host operator s
  := by
  simp only [checkMinter, errorIf, Checks.bind_eq_ok, Checks.rejectIf_eq_ok, requireAuth_eq_ok,
    unwrap_eq_ok, exists_const, migrationPending, Option.isSome_iff_ne_none, ne_eq, not_not]
  constructor
  · rintro ⟨hauth, hpending, _, hminter, rfl, hdone⟩
    exact ⟨hauth, hpending, hminter, hdone⟩
  · rintro ⟨hauth, hpending, hminter, hdone⟩
    exact ⟨hauth, hpending, operator, hminter, rfl, hdone⟩

/-- The holdings after recipients have been issued their units, with the events. -/
structure Issued (h : Holdings) (recipients : List (Address × ℤ)) (h' : Holdings)
    (events : List Event) : Prop where
  positive : ∀ r ∈ recipients, 0 < r.2
  balances : h'.balances = (recipients.map issue).foldl (fun b m => m.post b) h.balances
  totalSupply : h'.totalSupply = h.totalSupply + total Prod.snd recipients
  events : events = recipients.map fun r => .Mint r.1 r.2

theorem Issued.nil (h : Holdings) :
  Issued h [] h []
  := ⟨by simp, rfl, by simp, rfl⟩

theorem Issued.snoc {h h' h'' : Holdings} {pre : List (Address × ℤ)} {events : List Event}
    (hpre : Issued h pre h' events) {r : Address × ℤ} (hr : 0 < r.2)
    (hmoved : h'.Moved (issue r) h'') :
  Issued h (pre ++ [r]) h'' (events ++ [.Mint r.1 r.2])
  := by
  constructor
  · intro c hc
    rcases List.mem_append.mp hc with hc | hc
    · apply hpre.positive c hc
    · rwa [List.mem_singleton.mp hc]
  · rw [List.map_append, List.foldl_append, ← hpre.balances]
    apply hmoved.balances
  · rw [hmoved.totalSupply, hpre.totalSupply, total_append, total_cons, total_nil, issued_issue]
    ring
  · rw [hpre.events, List.map_append]
    rfl

section Mint

variable {pkg : Packages} (laws : pkg.base.Lawful) {host : Host} {w w' : World}

include laws

theorem mintTo_of_ok {minted minted' : World × List Event} {r : Address × ℤ}
    (h : mintTo pkg host minted r = .ok minted') :
  0 < r.2 ∧ minted.1.holdings.Moved (issue r) minted'.1.holdings
    ∧ minted' = ({ minted.1 with holdings := minted'.1.holdings }, minted.2 ++ [.Mint r.1 r.2])
  := by
  simp only [mintTo, errorIf, Checks.bind_eq_ok, Checks.rejectIf_eq_ok, exists_const,
    Checks.pure_eq_ok, Prod.exists, not_le] at h
  obtain ⟨hr, _, _, h', events, hmint, rfl⟩ := h
  obtain ⟨hmoved, rfl⟩ := laws.mint hmint
  exact ⟨hr, hmoved, rfl⟩

theorem mintSettle_of_ok {operator : Address} {recipients : List (Address × ℤ)}
    {events : List Event} (h : mintSettle pkg host operator recipients w = .ok (w', events)) :
  MayMint host operator w.storage ∧ recipients ≠ []
    ∧ Issued w.holdings recipients w'.holdings events
    ∧ w' = { w with
        storage := { w.storage with mintDone := some true }
        holdings := w'.holdings }
  := by
  simp only [mintSettle, errorIf, Checks.bind_eq_ok, Checks.rejectIf_eq_ok, exists_const,
    Checks.pure_eq_ok, checkMinter_eq_ok, Prod.exists, Prod.mk.injEq] at h
  obtain ⟨hminter, hrecipients, w₁, events₁, hloop, rfl, rfl⟩ := h
  have hinv := Checks.foldlM_invariant
    (motive := fun pre (minted : World × List Event) =>
      Issued w.holdings pre minted.1.holdings minted.2
        ∧ minted.1 = { w with holdings := minted.1.holdings })
    ⟨.nil w.holdings, rfl⟩
    (by
      rintro pre r minted minted' _ ⟨hissued, hworld⟩ hround
      obtain ⟨hr, hmoved, heq⟩ := mintTo_of_ok laws hround
      rw [heq]
      refine ⟨hissued.snoc hr hmoved, ?_⟩
      rw [hworld])
    hloop
  obtain ⟨hissued, hworld⟩ := hinv
  refine ⟨hminter, hrecipients, hissued, ?_⟩
  rw [show w₁ = { w with holdings := w₁.holdings } from hworld]

end Mint

/-! ### The changes that calls make -/

/-- What a successful call changes, and which events it publishes. -/
inductive Change (pkg : Packages) (host : Host) (w : World) : Call → World → List Event → Prop where
  | move {c : Call} {m : Movement Address} {holdings : Holdings} {usdc : Address → Ledger Address}
      {events : List Event} :
    c.movement = some m → (∃ a, m.source = some a) → Cleared host w m →
    w.holdings.Moved m holdings →
      events.filterMap Event.movement = [m] → Change pkg host w c { w with holdings, usdc } events
  | mint {operator : Address} {recipients : List (Address × ℤ)} {holdings : Holdings}
      {events : List Event} :
    MayMint host operator w.storage → recipients ≠ [] →
      Issued w.holdings recipients holdings events →
      Change pkg host w (.mintSettle operator recipients)
        { w with storage := { w.storage with mintDone := some true }, holdings } events
  | record {operator : Address} {amount : I128} :
    MayMint host operator w.storage → w.storage.artistAbsorbedLeftover = none → 0 ≤ amount.val →
      Change pkg host w (.recordAbsorbedLeftover operator amount)
        { w with storage := { w.storage with artistAbsorbedLeftover := some amount } } []
  | approve {owner spender : Address} {amount : ℤ} {live : ℕ} {holdings : Holdings} :
    holdings.balances = w.holdings.balances → holdings.totalSupply = w.holdings.totalSupply →
      Change pkg host w (.approve owner spender amount live) { w with holdings }
        [.Approve owner spender amount live]
  | upgrade {newWasmHash oldWasmHash : BytesN32} {storage : Storage} :
    requireProxyAdmin host w.storage = .ok () → w.storage.implWasmHash = some oldWasmHash →
      recordSnapshot pkg w = .ok storage →
      Change pkg host w (.upgrade newWasmHash)
        { w with storage := { storage with implWasmHash := some newWasmHash } }
        [.ProxyUpgraded oldWasmHash newWasmHash]
  | migrate {snapshot : InvariantSnapshot} :
    requireProxyAdmin host w.storage = .ok () → w.storage.migrationPending.isSome →
      w.storage.invariantSnapshot = some snapshot → checkSnapshot pkg snapshot w = .ok () →
      Change pkg host w .migrate
        { w with storage := { w.storage with
            migrationPending := none
            invariantSnapshot := none
            schemaVersion := some CURRENT_SCHEMA_VERSION } }
        [.MigrationCompleted CURRENT_SCHEMA_VERSION]
  | idle : w.storage.migrationPending = none → Change pkg host w .migrate w []
  | configure {c : Call} {proxyAdmin kycAllowlist freezeSet : Option Address}
      {events : List Event} :
    c.Configures → requireProxyAdmin host w.storage = .ok () →
      (w.storage.proxyAdmin.isSome → proxyAdmin.isSome) →
      (w.storage.kycAllowlist.isSome → kycAllowlist.isSome) →
      (w.storage.freezeSet.isSome → freezeSet.isSome) →
      events.filterMap Event.movement = [] →
      Change pkg host w c
        { w with storage := { w.storage with proxyAdmin, kycAllowlist, freezeSet } } events

section Changes

variable {pkg : Packages} (laws : pkg.base.Lawful) {host : Host} {w w' : World}
  {events : List Event}

include laws

theorem settleTrade_of_ok {buyer seller : Address} {count gross : ℤ}
    (h : settleTrade pkg host buyer seller count gross w = .ok (w', events)) :
  Change pkg host w (.settleTrade buyer seller count gross) w' events
  := by
  simp only [settleTrade, Checks.bind_eq_ok, Checks.pure_eq_ok, Prod.mk.injEq] at h
  obtain ⟨_, _, _, _, _, _, _, hguard, holdings, hupdate, _, _, _, _, usdc, _, rfl, rfl⟩ := h
  exact .move rfl ⟨seller, rfl⟩
    (cleared_of_guardMovement (m := ⟨some seller, some buyer, count⟩) rfl hguard)
    (laws.update hupdate) rfl

omit laws in
/-- A guarded movement is a change, when the base carries it out with one event. -/
theorem guarded_of_ok {c : Call} {a : Address} {target : Option Address} {amount : ℤ} {e : Event}
    {move : Holdings → Outcome (Holdings × List Event)}
    (hc : c.movement = some ⟨some a, target, amount⟩)
    (he : e.movement = some ⟨some a, target, amount⟩)
    (hmove : ∀ {h' es}, move w.holdings = .ok (h', es) →
      w.holdings.Moved ⟨some a, target, amount⟩ h' ∧ es = [e])
    (h : guarded host (some a) target amount move w = .ok (w', events)) :
  Change pkg host w c w' events
  := by
  simp only [guarded, Checks.bind_eq_ok, Checks.pure_eq_ok, Prod.mk.injEq, Prod.exists] at h
  obtain ⟨_, hguard, holdings, es, hok, rfl, rfl⟩ := h
  obtain ⟨hmoved, rfl⟩ := hmove hok
  refine .move hc ⟨a, rfl⟩ (cleared_of_guardMovement (m := ⟨some a, target, amount⟩) rfl hguard)
    hmoved ?_
  simp [he]

/-- Every successful call makes one of the changes. -/
theorem change_of_perform {c : Call} (h : perform pkg host c w = .ok (w', events)) :
  Change pkg host w c w' events
  := by
  cases c with
  | mintSettle operator recipients =>
    obtain ⟨hminter, hrecipients, hissued, hw⟩ := mintSettle_of_ok laws h
    rw [hw]
    exact .mint hminter hrecipients hissued
  | recordAbsorbedLeftover operator amount =>
    simp only [perform, recordAbsorbedLeftover, errorIf, Checks.bind_eq_ok, Checks.rejectIf_eq_ok,
      Checks.pure_eq_ok, checkMinter_eq_ok, exists_const, Prod.mk.injEq, not_lt,
      Option.isSome_iff_ne_none, ne_eq, not_not] at h
    obtain ⟨hminter, hleftover, hamount, rfl, rfl⟩ := h
    exact .record hminter hleftover hamount
  | settleTrade buyer seller count gross => apply settleTrade_of_ok laws h
  | transfer source target amount => apply guarded_of_ok rfl rfl laws.transfer h
  | transferFrom spender source target amount => apply guarded_of_ok rfl rfl laws.transferFrom h
  | burn source amount => apply guarded_of_ok rfl rfl laws.burn h
  | burnFrom spender source amount => apply guarded_of_ok rfl rfl laws.burnFrom h
  | approve owner spender amount live =>
    simp only [perform, approve, Checks.bind_eq_ok, Checks.pure_eq_ok, Prod.mk.injEq,
      Prod.exists] at h
    obtain ⟨holdings, es, hok, rfl, rfl⟩ := h
    obtain ⟨⟨hbalances, hsupply⟩, rfl⟩ := laws.approve hok
    exact .approve hbalances hsupply
  | upgrade newWasmHash =>
    simp only [perform, upgrade, Checks.bind_eq_ok, Checks.pure_eq_ok, unwrap_eq_ok,
      Prod.mk.injEq] at h
    obtain ⟨_, hadmin, _, hold, storage, hstorage, rfl, rfl⟩ := h
    exact .upgrade hadmin hold hstorage
  | migrate =>
    simp only [perform, migrate] at h
    rw [Checks.check_bind_eq_ok] at h
    obtain ⟨hadmin, h⟩ := h
    split at h
    · rename_i hpending
      simp only [Checks.bind_eq_ok, Checks.pure_eq_ok, unwrap_eq_ok, Prod.mk.injEq] at h
      obtain ⟨_, _, snapshot, hsnapshot, _, hcheck, rfl, rfl⟩ := h
      exact .migrate hadmin hpending hsnapshot hcheck
    · rename_i hpending
      simp only [Checks.bind_eq_ok, Checks.pure_eq_ok, Prod.mk.injEq] at h
      obtain ⟨_, _, _, _, rfl, rfl⟩ := h
      apply Change.idle
      simpa [migrationPending] using hpending
  | setProxyAdmin newAdmin =>
    simp only [perform, setProxyAdmin, Checks.bind_eq_ok, Checks.pure_eq_ok, Prod.mk.injEq] at h
    obtain ⟨_, hadmin, rfl, rfl⟩ := h
    exact .configure trivial hadmin (fun _ => rfl) id id rfl
  | setKycAllowlist new =>
    simp only [perform, setKycAllowlist, Checks.bind_eq_ok, Checks.pure_eq_ok,
      Prod.mk.injEq] at h
    obtain ⟨_, hadmin, _, _, rfl, rfl⟩ := h
    exact .configure trivial hadmin id (fun _ => rfl) id rfl
  | setFreezeSet new =>
    simp only [perform, setFreezeSet, Checks.bind_eq_ok, Checks.pure_eq_ok, Prod.mk.injEq] at h
    obtain ⟨_, hadmin, _, _, rfl, rfl⟩ := h
    exact .configure trivial hadmin id id (fun _ => rfl) rfl

end Changes

end Token
