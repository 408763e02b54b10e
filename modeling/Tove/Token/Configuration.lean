import Tove.Token.Calls

/-!
# The configuration of the token

Most slots are written by the constructor only. They are compared as a whole: the storage
without the slots that some call writes.
-/

namespace Token

open Soroban Ledgers Transition

/-- The slots that no call writes. -/
def Storage.fixed (s : Storage) : Storage :=
  { s with
    proxyAdmin := none
    kycAllowlist := none
    freezeSet := none
    implWasmHash := none
    mintDone := none
    artistAbsorbedLeftover := none
    migrationPending := none
    invariantSnapshot := none
    schemaVersion := none }

/-- A storage with the configuration that the constructor wrote. -/
structure Configured (init : TokenInit) (s : Storage) : Prop where
  fixed : s.fixed = (construct init fun _ _ => 0).storage.fixed
  proxyAdmin : s.proxyAdmin.isSome = true
  implWasmHash : s.implWasmHash.isSome = true

section Configured

variable {init : TokenInit} {s : Storage} (h : Configured init s)

include h

theorem Configured.artist :
  s.artist = some init.artist
  := congrArg Storage.artist h.fixed

theorem Configured.treasury :
  s.treasury = some init.treasury
  := congrArg Storage.treasury h.fixed

theorem Configured.minter :
  s.minter = some init.minter
  := congrArg Storage.minter h.fixed

theorem Configured.artistRetention :
  s.artistRetention = some init.artistRetention
  := congrArg Storage.artistRetention h.fixed

theorem Configured.treasuryRetention :
  s.treasuryRetention = some init.treasuryRetention
  := congrArg Storage.treasuryRetention h.fixed

theorem Configured.artistLockupUntil :
  s.artistLockupUntil = some init.artistLockupUntil
  := congrArg Storage.artistLockupUntil h.fixed

theorem Configured.treasuryLockupUntil :
  s.treasuryLockupUntil = some init.treasuryLockupUntil
  := congrArg Storage.treasuryLockupUntil h.fixed

theorem Configured.artistLocked {time : ℕ} (hlt : time < init.artistLockupUntil) :
  s.ArtistLocked time
  := ⟨init.artistLockupUntil, h.artistLockupUntil, hlt⟩

theorem Configured.treasuryLocked {time : ℕ} (hlt : time < init.treasuryLockupUntil) :
  s.TreasuryLocked time
  := ⟨init.treasuryLockupUntil, h.treasuryLockupUntil, hlt⟩

theorem Configured.treasuryFloor :
  s.treasuryFloor = init.treasuryRetention
  := by
  rw [Storage.treasuryFloor, h.treasuryRetention]
  rfl

end Configured

section Changes

variable {pkg : Packages} {host : Host} {w w' : World} {c : Call} {events : List Event}

theorem recordSnapshot_cases {storage : Storage} (h : recordSnapshot pkg w = .ok storage) :
  (migrationPending w.storage = true ∧ storage = w.storage)
    ∨ (migrationPending w.storage = false ∧ ∃ snapshot, takeSnapshot pkg w = .ok snapshot
      ∧ storage = { w.storage with
          invariantSnapshot := some snapshot
          migrationPending := some true })
  := by
  rw [recordSnapshot] at h
  split at h
  · rename_i hpending
    rw [Checks.pure_eq_ok] at h
    exact .inl ⟨hpending, h.symm⟩
  · rename_i hpending
    rw [Checks.bind_eq_ok] at h
    obtain ⟨snapshot, hsnapshot, h⟩ := h
    rw [Checks.pure_eq_ok] at h
    exact .inr ⟨Bool.not_eq_true _ ▸ hpending, snapshot, hsnapshot, h.symm⟩

/-- No call writes the fixed slots. -/
theorem Change.fixed (h : Change pkg host w c w' events) :
  w'.storage.fixed = w.storage.fixed
  := by
  cases h with
  | upgrade _ _ hstorage =>
    rcases recordSnapshot_cases hstorage with ⟨_, rfl⟩ | ⟨_, _, _, rfl⟩
    · rfl
    · rfl
  | _ => rfl

/-- The configuration is kept. -/
theorem Change.configured {init : TokenInit} (h : Change pkg host w c w' events)
    (hw : Configured init w.storage) :
  Configured init w'.storage
  := by
  constructor
  · rw [h.fixed, hw.fixed]
  · cases h with
    | upgrade _ _ hstorage =>
      rcases recordSnapshot_cases hstorage with ⟨_, rfl⟩ | ⟨_, _, _, rfl⟩
      · apply hw.proxyAdmin
      · apply hw.proxyAdmin
    | configure _ _ hadmin => apply hadmin hw.proxyAdmin
    | _ => apply hw.proxyAdmin
  · cases h with
    | upgrade => rfl
    | _ => apply hw.implWasmHash

/-- Once the units are issued, the leftover of the artist is not recorded any more. -/
theorem Change.minted (h : Change pkg host w c w' events)
    (hw : w.storage.mintDone.isSome = true) :
  w'.storage.mintDone.isSome = true
    ∧ w'.storage.artistAbsorbedLeftover = w.storage.artistAbsorbedLeftover
  := by
  cases h with
  | mint hminter =>
    rw [hminter.notMinted] at hw
    cases hw
  | record hminter =>
    rw [hminter.notMinted] at hw
    cases hw
  | upgrade _ _ hstorage =>
    rcases recordSnapshot_cases hstorage with ⟨_, rfl⟩ | ⟨_, _, _, rfl⟩
    · exact ⟨hw, rfl⟩
    · exact ⟨hw, rfl⟩
  | _ => exact ⟨hw, rfl⟩

/-- A call of `record_absorbed_leftover`. -/
def Call.Absorbs : Call → Prop
  | .recordAbsorbedLeftover _ _ => True
  | _ => False

/-- A call other than `record_absorbed_leftover` does not change the leftover of the artist. -/
theorem Change.unabsorbed (h : Change pkg host w c w' events) (hc : ¬ c.Absorbs) :
  w'.storage.artistAbsorbedLeftover = w.storage.artistAbsorbedLeftover
  := by
  cases h with
  | record => exact absurd trivial hc
  | upgrade _ _ hstorage =>
    rcases recordSnapshot_cases hstorage with ⟨_, rfl⟩ | ⟨_, _, _, rfl⟩
    · rfl
    · rfl
  | _ => rfl

/-- A change after the distribution leaves the balances alone, or it moves units out of an
account. -/
theorem Change.balances (h : Change pkg host w c w' events)
    (hminted : w.storage.mintDone.isSome = true) :
  w'.holdings.balances = w.holdings.balances
    ∨ ∃ m, c.movement = some m ∧ (∃ a, m.source = some a) ∧ Cleared host w m
      ∧ w.holdings.Moved m w'.holdings
  := by
  cases h with
  | move hc hsource hcleared hmoved => exact .inr ⟨_, hc, hsource, hcleared, hmoved⟩
  | mint hminter =>
    rw [hminter.notMinted] at hminted
    cases hminted
  | approve hbalances => exact .inl hbalances
  | _ => exact .inl rfl

/-- A call that asks for a movement carries it out. -/
theorem Change.cleared (h : Change pkg host w c w' events) {m : Movement Address}
    (hc : c.movement = some m) :
  (∃ a, m.source = some a) ∧ Cleared host w m ∧ w.holdings.Moved m w'.holdings
  := by
  cases h with
  | move hc' hsource hcleared hmoved =>
    obtain rfl := Option.some.inj (hc.symm.trans hc')
    exact ⟨hsource, hcleared, hmoved⟩
  | configure hconfigures =>
    cases c with
    | setProxyAdmin | setKycAllowlist | setFreezeSet => cases hc
    | _ => cases hconfigures
  | _ => cases hc

end Changes

/-! ### Runs -/

section Runs

variable {pkg : Packages} (laws : pkg.base.Lawful) {init : TokenInit} {w w' : World} {l : Label}

include laws

/-- A property of the storage and the holdings that every change keeps is kept by every step. -/
theorem Step.keeps {P : Storage → Holdings → Prop}
    (hchange : ∀ {host c w' events}, Change pkg host w c w' events → P w'.storage w'.holdings)
    (hw : P w.storage w.holdings) (h : Step pkg w l w') :
  P w'.storage w'.holdings
  := by
  cases h with
  | call hok => apply hchange (change_of_perform laws hok)
  | failed => apply hw
  | outside => apply hw

theorem Step.configured (h : Step pkg w l w') (hw : Configured init w.storage) :
  Configured init w'.storage
  := h.keeps (P := fun s _ => Configured init s) laws (fun hchange => hchange.configured hw) hw

theorem Step.minted (h : Step pkg w l w') (hw : w.storage.mintDone.isSome = true) :
  w'.storage.mintDone.isSome = true
    ∧ w'.storage.artistAbsorbedLeftover = w.storage.artistAbsorbedLeftover
  := h.keeps (P := fun s _ => s.mintDone.isSome = true
      ∧ s.artistAbsorbedLeftover = w.storage.artistAbsorbedLeftover) laws
    (fun hchange => hchange.minted hw) ⟨hw, rfl⟩

/-- Every reachable storage has the configuration that the constructor wrote. -/
theorem configured_of_reachable (h : (system pkg init).Reachable w) :
  Configured init w.storage
  := by
  apply h.invariant (I := fun w => Configured init w.storage)
  · rintro _ ⟨_, rfl⟩
    exact ⟨rfl, rfl, rfl⟩
  · intro w l w' hw hstep
    apply Step.configured laws hstep hw

end Runs

/-! ### A small token -/

/-- The parameters of a small token: the artist is locked with two units and the treasury with
five. -/
def sampleInit (treasury : Address) : TokenInit where
  artworkId := 1
  proxyAdmin := .account 1
  artist := .account 10
  artistPayout := .account 12
  treasury
  artistRetention := ⟨2, by decide⟩
  artistLockupUntil := 100
  treasuryRetention := ⟨5, by decide⟩
  treasuryLockupUntil := 100
  kycAllowlist := .contract 2
  freezeSet := .contract 3
  marketplaceSettler := .contract 4
  minter := .contract 5
  usdc := .contract 6
  implWasmHash := 7

/-- A host at time zero that authorises everything, with gating contracts that let everything
pass. -/
def sampleHost : Host where
  auth _ := true
  usdcAccepts := true
  mintSettleAccepts := true
  timestamp := 0
  invokeGate _ fn _ := some (fn = .isAllowed)

/-- The small token as it is deployed. -/
def sampleToken (treasury : Address) : World := construct (sampleInit treasury) fun _ _ => 0

/-- The small token after seven units have been issued to an account. -/
def sampleMinted (treasury holder : Address) : World :=
  { sampleToken treasury with
    storage := { (sampleToken treasury).storage with mintDone := some true }
    holdings := ⟨(issue (holder, 7)).post fun _ => 0, 7, fun _ _ => (0, 0)⟩ }

theorem sampleToken_reachable (treasury : Address) :
  (system plainPackages (sampleInit treasury)).Reachable (sampleToken treasury)
  := .init ⟨fun _ _ => 0, rfl⟩

theorem sampleMinted_step (treasury holder : Address) :
  Step plainPackages (sampleToken treasury)
    (.call sampleHost (.mintSettle (.contract 5) [(holder, 7)]) [.Mint holder 7])
    (sampleMinted treasury holder)
  := .call rfl

theorem sampleMinted_reachable (treasury holder : Address) :
  (system plainPackages (sampleInit treasury)).Reachable (sampleMinted treasury holder)
  := (sampleToken_reachable treasury).step (sampleMinted_step treasury holder)

end Token
