import Tove.Escrow.Calls
import Tove.Js

/-!
# The deployment of an escrow

The deploy worker checks an offering against the contract of its fractions, and calls the
constructor of the escrow with arguments that it gives by position. The constructor has nine
parameters, and the worker gives eight arguments: the leftover of the artist is left out, so the
constructor of the escrow never runs. In the places that are given, the two orders agree.

A column `numeric(39,0)` is an integer. The encoding of values comes from another package, and
is a parameter.
-/

namespace Deployment

open Soroban Ledgers

/-! ### The rows and the configuration -/

/-- The columns of `offerings` that the deployment reads, with those that were frozen when the
offering was planned. -/
structure Offering where
  id : String
  publicFloat : ℤ
  totalSupplyStroops : ℤ
  artistRetentionStroops : ℤ
  treasuryRetentionStroops : ℤ
  snapshotArtistAddress : Option String
  deriving DecidableEq, Repr

/-- The columns of `fraction_contracts` that the deployment reads. -/
structure FractionContract where
  id : String
  totalSupply : ℤ
  artistAddress : String
  artistRetentionAmount : Option ℤ
  treasuryRetentionAmount : Option ℤ
  deriving DecidableEq, Repr

/-- The addresses of the configuration. -/
structure OfferingEscrowConfig where
  usdcAddress : String
  treasuryAddress : String
  adminPublicKey : String
  deriving DecidableEq, Repr

/-- An error of the escrow service, and whether the worker tries again. -/
structure OfferingEscrowError where
  message : String
  retryable : Bool
  deriving DecidableEq, Repr

/-- `EscrowParamDriftError`. -/
def EscrowParamDriftError (message : String) : OfferingEscrowError := ⟨message, false⟩

/-! ### The checks of the worker -/

/-- `requireRetentions`. -/
def requireRetentions (off : Offering) (fc : FractionContract) :
    Except OfferingEscrowError (ℤ × ℤ) :=
  match fc.artistRetentionAmount, fc.treasuryRetentionAmount with
  | some artist, some treasury => return (artist, treasury)
  | _, _ => throw (EscrowParamDriftError (s!"offering {off.id}: fraction_contracts {fc.id} has null "
      ++ "retention amount(s) — cannot deploy escrow"))

/-- `assertPublicFloatMatches`. -/
def assertPublicFloatMatches (off : Offering) (fc : FractionContract) :
    Except OfferingEscrowError Unit := do
  let (artistRetentionAmount, treasuryRetentionAmount) ← requireRetentions off fc
  let expected := fc.totalSupply - artistRetentionAmount - treasuryRetentionAmount
  Checks.rejectIf (off.publicFloat ≠ expected) (EscrowParamDriftError
    s!"offering {off.id}: public_float drift — snapshot={off.publicFloat} expected={expected}")

/-- The checks that `process` makes before it deploys. -/
def gates (off : Offering) (fc : FractionContract) : Except OfferingEscrowError Unit := do
  assertPublicFloatMatches off fc
  let snapshot := off.snapshotArtistAddress.getD "null"
  Checks.rejectIf (off.snapshotArtistAddress ≠ some fc.artistAddress) (EscrowParamDriftError
    (s!"offering {off.id}: attested artist address drifted (snapshot={snapshot} "
      ++ s!"live={fc.artistAddress})"))

/-! ### The arguments -/

/-- The arguments as the worker names them. -/
structure OfferingConstructorArgs where
  usdc : String
  totalSupply : ℤ
  artist : String
  artistRetention : ℤ
  treasury : String
  treasuryRetention : ℤ
  artistPayout : String
  admin : String
  deriving DecidableEq, Repr

/-- `mapConstructorArgs`. -/
def mapConstructorArgs (off : Offering) (fc : FractionContract) (cfg : OfferingEscrowConfig) :
    Except OfferingEscrowError OfferingConstructorArgs := do
  let (artistRetentionAmount, treasuryRetentionAmount) ← requireRetentions off fc
  return {
    usdc := cfg.usdcAddress
    totalSupply := fc.totalSupply
    artist := fc.artistAddress
    artistRetention := artistRetentionAmount
    treasury := cfg.treasuryAddress
    treasuryRetention := treasuryRetentionAmount
    artistPayout := fc.artistAddress
    admin := cfg.adminPublicKey }

/-- The values that are encoded. -/
inductive Native where
  | string (s : String)
  | bigint (x : ℤ)
  deriving DecidableEq, Repr

/-- The type hints of the encoding. -/
inductive ScType where
  | address
  | i128
  deriving DecidableEq, Repr

/-- The values of the host that the constructor takes. -/
inductive ScVal where
  | address (a : Address)
  | i128 (x : I128)
  deriving DecidableEq, Repr

/-- The encoding of values, which throws when a value does not fit its type. -/
abbrev NativeToScVal : Type := Native → ScType → Except String ScVal

/-- `encodeConstructorArgs`: the arguments by position. -/
def encodeConstructorArgs (nativeToScVal : NativeToScVal) (a : OfferingConstructorArgs) :
    Except String (List ScVal) := do
  let usdc ← nativeToScVal (.string a.usdc) .address
  let totalSupply ← nativeToScVal (.bigint a.totalSupply) .i128
  let artist ← nativeToScVal (.string a.artist) .address
  let artistRetention ← nativeToScVal (.bigint a.artistRetention) .i128
  let treasury ← nativeToScVal (.string a.treasury) .address
  let treasuryRetention ← nativeToScVal (.bigint a.treasuryRetention) .i128
  let artistPayout ← nativeToScVal (.string a.artistPayout) .address
  let admin ← nativeToScVal (.string a.admin) .address
  return [usdc, totalSupply, artist, artistRetention, treasury, treasuryRetention, artistPayout, admin]

/-- The host calls the constructor of the escrow with arguments by position. It traps unless
there are as many as the constructor has parameters, of the right types. -/
def invokeConstructor (args : List ScVal) (balances : Ledger Address) :
    Escrow.Outcome Escrow.World :=
  match args with
  | [.address usdc, .i128 totalSupply, .address artist, .i128 artistRetention, .address treasury,
      .i128 treasuryRetention, .i128 leftoverToArtist, .address artistPayout, .address admin] =>
    Escrow.construct {
        usdc
        totalSupply
        artist
        artistRetention
        treasury
        treasuryRetention
        leftoverToArtist
        artistPayout
        admin
        totalSupply_le := totalSupply.property.2 }
      balances
  | _ => throw .trap

/-! ### What was approved -/

/-- The parameters of the escrow are the approved ones: the addresses of the configuration, the
artist that was attested, the supply and the retentions that were planned, and no leftover. -/
structure Approved (nativeToScVal : NativeToScVal) (off : Offering) (cfg : OfferingEscrowConfig)
    (params : Escrow.Params) : Prop where
  usdc : nativeToScVal (.string cfg.usdcAddress) .address = .ok (.address params.usdc)
  treasury : nativeToScVal (.string cfg.treasuryAddress) .address = .ok (.address params.treasury)
  admin : nativeToScVal (.string cfg.adminPublicKey) .address = .ok (.address params.admin)
  artist : ∃ s, off.snapshotArtistAddress = some s
    ∧ nativeToScVal (.string s) .address = .ok (.address params.artist)
  artistPayout : params.artistPayout = params.artist
  totalSupply : params.totalSupply = off.totalSupplyStroops
  artistRetention : params.artistRetention = off.artistRetentionStroops
  treasuryRetention : params.treasuryRetention = off.treasuryRetentionStroops
  leftover : params.leftoverToArtist = 0
  float : params.totalSupply - params.artistRetention - params.treasuryRetention
    - params.leftoverToArtist = off.publicFloat

/-- The escrow is deployed with the approved parameters. -/
def Carried (nativeToScVal : NativeToScVal) (off : Offering) (fc : FractionContract)
    (cfg : OfferingEscrowConfig) (balances : Ledger Address) : Prop :=
  ∃ a args w, mapConstructorArgs off fc cfg = .ok a
    ∧ encodeConstructorArgs nativeToScVal a = .ok args
    ∧ invokeConstructor args balances = .ok w
    ∧ Approved nativeToScVal off cfg w.params

variable {nativeToScVal : NativeToScVal} {off : Offering} {fc : FractionContract}
  {cfg : OfferingEscrowConfig} {a : OfferingConstructorArgs} {args : List ScVal}
  {balances : Ledger Address} {w : Escrow.World}

theorem encodeConstructorArgs_eq_ok :
  encodeConstructorArgs nativeToScVal a = .ok args
    ↔ ∃ usdc totalSupply artist artistRetention treasury treasuryRetention artistPayout admin,
      nativeToScVal (.string a.usdc) .address = .ok usdc
      ∧ nativeToScVal (.bigint a.totalSupply) .i128 = .ok totalSupply
      ∧ nativeToScVal (.string a.artist) .address = .ok artist
      ∧ nativeToScVal (.bigint a.artistRetention) .i128 = .ok artistRetention
      ∧ nativeToScVal (.string a.treasury) .address = .ok treasury
      ∧ nativeToScVal (.bigint a.treasuryRetention) .i128 = .ok treasuryRetention
      ∧ nativeToScVal (.string a.artistPayout) .address = .ok artistPayout
      ∧ nativeToScVal (.string a.admin) .address = .ok admin
      ∧ [usdc, totalSupply, artist, artistRetention, treasury, treasuryRetention, artistPayout,
          admin] = args
  := by
  simp only [encodeConstructorArgs, Checks.bind_eq_ok, Checks.pure_eq_ok]
  constructor
  · rintro ⟨usdc, h1, supply, h2, artist, h3, retention, h4, treasury, h5, retention', h6,
      payout, h7,
      admin, h8, heq⟩
    exact ⟨usdc, supply, artist, retention, treasury, retention', payout, admin, h1, h2, h3, h4, h5,
      h6, h7, h8, heq⟩
  · rintro ⟨usdc, supply, artist, retention, treasury, retention', payout, admin, h1, h2,
      h3, h4, h5,
      h6, h7, h8, heq⟩
    exact ⟨usdc, h1, supply, h2, artist, h3, retention, h4, treasury, h5, retention', h6,
      payout, h7,
      admin, h8, heq⟩

/-- The constructor takes nine arguments. -/
theorem length_of_invokeConstructor (h : invokeConstructor args balances = .ok w) :
  args.length = 9
  := by
  unfold invokeConstructor at h
  split at h
  · rfl
  · cases h

/-- The worker gives eight. -/
theorem length_of_encodeConstructorArgs (h : encodeConstructorArgs nativeToScVal a = .ok args) :
  args.length = 8
  := by
  obtain ⟨_, _, _, _, _, _, _, _, _, _, _, _, _, _, _, _, rfl⟩ := encodeConstructorArgs_eq_ok.mp h
  rfl

/-- No escrow is deployed, whatever the offering, the contract of its fractions and the
configuration are. -/
theorem not_carried (nativeToScVal : NativeToScVal) (off : Offering) (fc : FractionContract)
    (cfg : OfferingEscrowConfig) (balances : Ledger Address) :
  ¬ Carried nativeToScVal off fc cfg balances
  := by
  rintro ⟨a, args, w, _, hencode, hinvoke, _⟩
  have height := length_of_encodeConstructorArgs hencode
  rw [length_of_invokeConstructor hinvoke] at height
  cases height

/-! ### The order of the arguments -/

/-- The encoding of the other package: an address is encoded as an address, and a number that
fits as itself. -/
structure Encodes (nativeToScVal : NativeToScVal) : Prop where
  address : ∀ {s v}, nativeToScVal (.string s) .address = .ok v → ∃ a, v = .address a
  i128 : ∀ {x v}, nativeToScVal (.bigint x) .i128 = .ok v → ∃ h, v = .i128 ⟨x, h⟩

/-- The arguments of the constructor are those of the worker. -/
structure Aligned (nativeToScVal : NativeToScVal) (a : OfferingConstructorArgs)
    (args : Escrow.ConstructorArgs) : Prop where
  usdc : nativeToScVal (.string a.usdc) .address = .ok (.address args.usdc)
  totalSupply : args.totalSupply = a.totalSupply
  artist : nativeToScVal (.string a.artist) .address = .ok (.address args.artist)
  artistRetention : args.artistRetention = a.artistRetention
  treasury : nativeToScVal (.string a.treasury) .address = .ok (.address args.treasury)
  treasuryRetention : args.treasuryRetention = a.treasuryRetention
  artistPayout : nativeToScVal (.string a.artistPayout) .address = .ok (.address args.artistPayout)
  admin : nativeToScVal (.string a.admin) .address = .ok (.address args.admin)

/-- With the leftover in its place, every argument of the worker reaches the parameter of its
name. -/
theorem invokeConstructor_insertIdx (laws : Encodes nativeToScVal)
    (h : encodeConstructorArgs nativeToScVal a = .ok args) (leftover : I128) :
  ∃ c : Escrow.ConstructorArgs, Aligned nativeToScVal a c ∧ c.leftoverToArtist = leftover
    ∧ invokeConstructor (args.insertIdx 6 (.i128 leftover)) balances = Escrow.construct c balances
  := by
  obtain ⟨_, _, _, _, _, _, _, _, husdc, hsupply, hartist, hretention, htreasury,
    hretention', hpayout,
    hadmin, rfl⟩ := encodeConstructorArgs_eq_ok.mp h
  obtain ⟨usdc, rfl⟩ := laws.address husdc
  obtain ⟨supply, rfl⟩ := laws.i128 hsupply
  obtain ⟨artist, rfl⟩ := laws.address hartist
  obtain ⟨retention, rfl⟩ := laws.i128 hretention
  obtain ⟨treasury, rfl⟩ := laws.address htreasury
  obtain ⟨retention', rfl⟩ := laws.i128 hretention'
  obtain ⟨payout, rfl⟩ := laws.address hpayout
  obtain ⟨admin, rfl⟩ := laws.address hadmin
  exact ⟨⟨usdc, a.totalSupply, artist, a.artistRetention, treasury, a.treasuryRetention, leftover,
    payout, admin, supply.2⟩, ⟨husdc, rfl, hartist, rfl, htreasury, rfl, hpayout, hadmin⟩, rfl, rfl⟩

theorem requireRetentions_eq_ok {retentions : ℤ × ℤ} :
  requireRetentions off fc = .ok retentions
    ↔ fc.artistRetentionAmount = some retentions.1 ∧ fc.treasuryRetentionAmount = some retentions.2
  := by
  unfold requireRetentions
  split
  · rename_i artist treasury hartist htreasury
    rw [Checks.pure_eq_ok, hartist, htreasury, Option.some.injEq, Option.some.injEq, Prod.ext_iff]
  · rename_i hnone
    rw [Checks.throw_eq_ok, false_iff]
    rintro ⟨hartist, htreasury⟩
    exact hnone _ _ hartist htreasury

/-- The gates compare the float and the artist, and nothing else. -/
theorem gates_eq_ok {x : Unit} :
  gates off fc = .ok x
    ↔ ∃ artist treasury, fc.artistRetentionAmount = some artist
      ∧ fc.treasuryRetentionAmount = some treasury
      ∧ off.publicFloat = fc.totalSupply - artist - treasury
      ∧ off.snapshotArtistAddress = some fc.artistAddress
  := by
  simp only [gates, assertPublicFloatMatches, Checks.bind_eq_ok, requireRetentions_eq_ok,
    Checks.rejectIf_eq_ok, ne_eq, not_not, Prod.exists, exists_const]
  constructor
  · rintro ⟨⟨artist, treasury, ⟨hartist, htreasury⟩, hfloat⟩, hsnapshot⟩
    exact ⟨artist, treasury, hartist, htreasury, hfloat, hsnapshot⟩
  · rintro ⟨artist, treasury, hartist, htreasury, hfloat, hsnapshot⟩
    exact ⟨⟨artist, treasury, ⟨hartist, htreasury⟩, hfloat⟩, hsnapshot⟩

/-- The parameters of a new escrow are the arguments of its constructor. -/
theorem params_of_construct {c : Escrow.ConstructorArgs} (h : Escrow.construct c balances = .ok w) :
  w.params = ⟨none, c.usdc, c.totalSupply, c.artist, c.artistRetention, c.treasury,
    c.treasuryRetention, c.leftoverToArtist, c.artistPayout, c.admin⟩
  := by
  simp only [Escrow.construct, errorIf, Checks.bind_eq_ok, Checks.rejectIf_eq_ok,
    i128_eq_ok, Checks.pure_eq_ok, exists_const] at h
  obtain ⟨_, _, ⟨_, rfl⟩, _, ⟨_, rfl⟩, _, rfl⟩ := h
  rfl

/-- Even with the leftover in its place, the gates do not see a drift that keeps the float: an
escrow of an offering that passes them is as approved when the supply and the retentions have
not drifted. -/
theorem approved_iff (laws : Encodes nativeToScVal) (hgates : gates off fc = .ok ())
    (hmap : mapConstructorArgs off fc cfg = .ok a)
    (hencode : encodeConstructorArgs nativeToScVal a = .ok args)
    (hinvoke : invokeConstructor (args.insertIdx 6 (.i128 ⟨0, by decide⟩)) balances = .ok w) :
  Approved nativeToScVal off cfg w.params
    ↔ off.totalSupplyStroops = fc.totalSupply
      ∧ some off.artistRetentionStroops = fc.artistRetentionAmount
      ∧ some off.treasuryRetentionStroops = fc.treasuryRetentionAmount
  := by
  obtain ⟨artist, treasury, hartist, htreasury, hfloat, hsnapshot⟩ := gates_eq_ok.mp hgates
  simp only [mapConstructorArgs, Checks.bind_eq_ok, requireRetentions_eq_ok, hartist, htreasury,
    Checks.pure_eq_ok, Prod.exists, Option.some.injEq] at hmap
  obtain ⟨_, _, ⟨rfl, rfl⟩, rfl⟩ := hmap
  obtain ⟨c, haligned, hleftover, hconstruct⟩ :=
    @invokeConstructor_insertIdx _ _ _ balances laws hencode ⟨0, by decide⟩
  have hparams := params_of_construct (hconstruct.symm.trans hinvoke)
  have hpayout : c.artistPayout = c.artist := by
    have heq := haligned.artistPayout.symm.trans haligned.artist
    injection heq with heq
    injection heq
  rw [hartist, htreasury, Option.some.injEq, Option.some.injEq]
  constructor
  · intro h
    have hsupply := h.totalSupply
    have hretention := h.artistRetention
    have hretention' := h.treasuryRetention
    rw [hparams] at hsupply hretention hretention'
    exact ⟨hsupply.symm.trans haligned.totalSupply, hretention.symm.trans haligned.artistRetention,
      hretention'.symm.trans haligned.treasuryRetention⟩
  · rintro ⟨hsupply, hretention, hretention'⟩
    rw [hparams]
    constructor
    · apply haligned.usdc
    · apply haligned.treasury
    · apply haligned.admin
    · exact ⟨_, hsnapshot, haligned.artist⟩
    · apply hpayout
    · exact haligned.totalSupply.trans hsupply.symm
    · exact haligned.artistRetention.trans hretention.symm
    · exact haligned.treasuryRetention.trans hretention'.symm
    · apply hleftover
    · simp only [haligned.totalSupply, haligned.artistRetention, haligned.treasuryRetention,
        hleftover]
      omega

/-! ### A small offering -/

/-- An encoding that knows an address by the last character of its text. -/
def sampleNativeToScVal : NativeToScVal
  | .string s, .address => match s.toList.getLast? with
    | none => throw "Unsupported address type"
    | some char => return .address (.account (BitVec.ofNat 256 char.toNat))
  | .bigint x, .i128 => if h : InI128 x then return .i128 ⟨x, h⟩ else throw "out of range"
  | _, _ => throw "invalid type"

theorem sampleNativeToScVal_encodes :
  Encodes sampleNativeToScVal
  := by
  constructor
  · intro s v h
    simp only [sampleNativeToScVal] at h
    split at h
    · cases h
    · exact ⟨_, (Except.ok.inj h).symm⟩
  · intro x v h
    simp only [sampleNativeToScVal] at h
    split at h
    · exact ⟨_, (Except.ok.inj h).symm⟩
    · cases h

/-- An offering of seven fractions out of ten. -/
def sampleOffering : Offering := ⟨"1", 7, 10, 2, 1, some "GA"⟩

/-- The contract of its fractions, which has not drifted. -/
def sampleFractionContract : FractionContract := ⟨"2", 10, "GA", some 2, some 1⟩

def sampleConfig : OfferingEscrowConfig := ⟨"CU", "GT", "GD"⟩

/-- An offering that passes the gates need not be deployed. -/
theorem not_forall_carried :
  ¬ ∀ (nativeToScVal : NativeToScVal) (off : Offering) (fc : FractionContract)
      (cfg : OfferingEscrowConfig) (balances : Ledger Address),
      Encodes nativeToScVal → gates off fc = .ok () →
      Carried nativeToScVal off fc cfg balances
  := by
  intro hall
  obtain ⟨a, args, w, hmap, hencode, hinvoke, _⟩ := hall sampleNativeToScVal sampleOffering
    sampleFractionContract sampleConfig (fun _ => 0) sampleNativeToScVal_encodes rfl
  obtain rfl := Except.ok.inj hmap
  obtain rfl := Except.ok.inj hencode
  cases hinvoke

end Deployment
