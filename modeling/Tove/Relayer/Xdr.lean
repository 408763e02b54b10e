import Tove.Base.Digits
import Tove.Base.Utf8
import Tove.Js
import Tove.Soroban

/-!
# Transactions and authorisations as the relayer reads them

The values of a transaction that the verifiers of the relayer look at, as the SDK decodes them, and
their XDR encoding, which is what a passkey signs.  A kind of value that no verifier asks for
carries its own encoding.
-/

namespace Relayer

open Js Soroban

/-- A `Buffer` or a `Uint8Array`. -/
abbrev Bytes : Type := List UInt8

/-- 32 bytes, as in `BytesN<32>`. -/
abbrev Bytes32 : Type := { b : Bytes // b.length = 32 }

/-! ### Values -/

/-- An `xdr.ScAddress`; `other` is a muxed account, a claimable balance or a liquidity pool. -/
inductive ScAddress where
  | account (key : BytesN32)
  | contract (hash : BytesN32)
  | other (xdr : Bytes)
  deriving DecidableEq

/-- An `xdr.ScVal`; `other` is a value of another type. -/
inductive ScVal where
  | u32 (n : UInt32)
  | i128 (x : I128)
  | bytes (b : Bytes)
  | string (b : Bytes)
  | symbol (b : Bytes)
  | address (a : ScAddress)
  | other (xdr : Bytes)
  deriving DecidableEq

/-- `xdr.InvokeContractArgs`. -/
structure InvokeContractArgs where
  contractAddress : ScAddress
  functionName : Bytes
  args : List ScVal
  deriving DecidableEq

/-- `xdr.SorobanAuthorizedFunction`; `createContract` stands for both ways to create one. -/
inductive AuthorizedFunction where
  | contractFn (fn : InvokeContractArgs)
  | createContract (xdr : Bytes)

/-- `xdr.SorobanAuthorizedInvocation`. -/
inductive AuthorizedInvocation where
  | mk (function : AuthorizedFunction) (subInvocations : List AuthorizedInvocation)

def AuthorizedInvocation.function : AuthorizedInvocation → AuthorizedFunction
  | .mk function _ => function

def AuthorizedInvocation.subInvocations : AuthorizedInvocation → List AuthorizedInvocation
  | .mk _ subInvocations => subInvocations

/-- `xdr.SorobanAddressCredentials`. -/
structure AddressCredentials where
  address : ScAddress
  nonce : Int64
  signatureExpirationLedger : UInt32
  signature : ScVal

/-- `xdr.SorobanCredentials`. -/
inductive Credentials where
  | sourceAccount
  | address (creds : AddressCredentials)

/-- `xdr.SorobanAuthorizationEntry`. -/
structure AuthorizationEntry where
  credentials : Credentials
  rootInvocation : AuthorizedInvocation

/-- `xdr.HostFunction`; `other` uploads code or creates a contract. -/
inductive HostFunction where
  | invokeContract (args : InvokeContractArgs)
  | other

/-- An operation of a transaction; `other` is not `invokeHostFunction`. -/
inductive Operation where
  | invokeHostFunction (func : HostFunction) (auth : List AuthorizationEntry)
  | other

/-- A `Transaction`, by its operations. -/
structure Transaction where
  operations : List Operation

/-- What `TransactionBuilder.fromXDR` returns. -/
inductive Envelope where
  | transaction (tx : Transaction)
  | feeBump

/-! ### The encoding -/

/-- A number of 4 bytes. -/
def uint32 (n : ℕ) : Bytes := Digits.bigEndian n 4

/-- Bytes of variable length: the length, the bytes, and zeros up to a multiple of four. -/
def varOpaque (b : Bytes) : Bytes :=
  uint32 b.length ++ b ++ List.replicate ((4 - b.length % 4) % 4) 0

def ScAddress.toXDR : ScAddress → Bytes
  | .account key => uint32 0 ++ uint32 0 ++ Digits.bigEndian key.toNat 32
  | .contract hash => uint32 1 ++ Digits.bigEndian hash.toNat 32
  | .other xdr => xdr

def ScVal.toXDR : ScVal → Bytes
  | .u32 n => uint32 3 ++ uint32 n.toNat
  | .i128 x => uint32 10 ++ Digits.bigEndian (x.val % 2 ^ 128).toNat 16
  | .bytes b => uint32 13 ++ varOpaque b
  | .string b => uint32 14 ++ varOpaque b
  | .symbol b => uint32 15 ++ varOpaque b
  | .address a => uint32 18 ++ a.toXDR
  | .other xdr => xdr

def InvokeContractArgs.toXDR (fn : InvokeContractArgs) : Bytes :=
  fn.contractAddress.toXDR ++ varOpaque fn.functionName
    ++ uint32 fn.args.length ++ fn.args.flatMap ScVal.toXDR

def AuthorizedFunction.toXDR : AuthorizedFunction → Bytes
  | .contractFn fn => uint32 0 ++ fn.toXDR
  | .createContract xdr => xdr

mutual

def AuthorizedInvocation.toXDR : AuthorizedInvocation → Bytes
  | .mk function subInvocations =>
    function.toXDR ++ uint32 subInvocations.length ++ subInvocationsXDR subInvocations

def subInvocationsXDR : List AuthorizedInvocation → Bytes
  | [] => []
  | sub :: subs => sub.toXDR ++ subInvocationsXDR subs

end

/-- `xdr.HashIdPreimage` of a Soroban authorisation. -/
structure HashIdPreimage where
  networkId : Bytes
  nonce : Int64
  signatureExpirationLedger : UInt32
  invocation : AuthorizedInvocation

def HashIdPreimage.toXDR (p : HashIdPreimage) : Bytes :=
  uint32 9 ++ p.networkId ++ Digits.bigEndian p.nonce.toBitVec.toNat 8
    ++ uint32 p.signatureExpirationLedger.toNat ++ p.invocation.toXDR

/-- The encoding of `nativeToScVal(ids, { type: 'u32' })`, a vector. -/
def u32VecXDR (ids : List UInt32) : Bytes :=
  uint32 16 ++ uint32 1 ++ uint32 ids.length ++ (ids.map ScVal.u32).flatMap ScVal.toXDR

/-- `invocationsEqual`. The XDR encoding is canonical: values with the same bytes are equal. -/
def invocationsEqual (a b : InvokeContractArgs) : Bool := decide (a = b)

theorem invocationsEqual_iff {a b : InvokeContractArgs} :
  invocationsEqual a b = true ↔ a = b
  := decide_eq_true_iff

/-! ### The SDK -/

/-- What `@noble/curves` has for signatures over P-256. `fromDER` throws on malformed bytes. -/
structure P256 where
  Signature : Type
  fromDER : Bytes → Option Signature
  hasHighS : Signature → Bool
  normalizeS : Signature → Signature
  toCompactRawBytes : Signature → Bytes
  verify : (signature digest publicKey : Bytes) → Bool

/-- What the relayer takes from elsewhere: the reader of transactions, the texts of addresses, of
which the parsing is the inverse, SHA-256, and the curve. -/
structure Sdk where
  fromXDR : (xdr networkPassphrase : JsString) → Option Envelope
  addressText : ScAddress → JsString
  fromString : JsString → Option ScAddress
  fromString_eq_some_iff : ∀ s a, fromString s = some a ↔ addressText a = s
  hash : Bytes → Bytes
  p256 : P256

/-- What `scValToNative` returns: a string, or a value of another type. -/
inductive Native where
  | string (s : JsString)
  | other
  deriving DecidableEq

/-- `new TextDecoder().decode`: a byte order mark is skipped. -/
def textDecoder (b : Bytes) : JsString :=
  Utf8.decode (if [0xEF, 0xBB, 0xBF] <+: b then b.drop 3 else b)

namespace Sdk

variable (sdk : Sdk) {s : JsString} {a b : ScAddress} {v : ScVal}

/-- `scValToNative`. -/
def scValToNative : ScVal → Native
  | .string b | .symbol b => .string (textDecoder b)
  | .address a => .string (sdk.addressText a)
  | .u32 _ | .i128 _ | .bytes _ | .other _ => .other

theorem fromString_addressText (a : ScAddress) :
  sdk.fromString (sdk.addressText a) = some a
  := (sdk.fromString_eq_some_iff _ a).mpr rfl

/-- An address is known by its text. -/
theorem addressText_injective :
  Function.Injective sdk.addressText
  := by
  intro a b h
  apply Option.some_injective
  rw [← sdk.fromString_addressText a, ← sdk.fromString_addressText b, h]

end Sdk

/-- A value that is read as a string without being an address. -/
def ScVal.IsText : ScVal → Prop
  | .string _ | .symbol _ => True
  | .u32 _ | .i128 _ | .bytes _ | .address _ | .other _ => False

@[simp]
theorem ScVal.isText_i128 {x : I128} : (ScVal.i128 x).IsText ↔ False
  := Iff.rfl

@[simp]
theorem ScVal.isText_u32 {n : UInt32} : (ScVal.u32 n).IsText ↔ False
  := Iff.rfl

@[simp]
theorem ScVal.isText_bytes {b : Bytes} : (ScVal.bytes b).IsText ↔ False
  := Iff.rfl

@[simp]
theorem ScVal.isText_address {a : ScAddress} : (ScVal.address a).IsText ↔ False
  := Iff.rfl

/-- A value that is read as the text of an address is this address, or it is a text. -/
theorem Sdk.eq_address_of_scValToNative {sdk : Sdk} {v : ScVal} {a : ScAddress}
    (h : sdk.scValToNative v = .string (sdk.addressText a)) (htext : ¬ v.IsText) :
  v = .address a
  := by
  cases v with
  | address b => rw [sdk.addressText_injective (Native.string.inj h)]
  | string b | symbol b => exact absurd trivial htext
  | _ => cases h

/-! ### Builders -/

/-- `nativeToScVal(x, { type: 'i128' })`, which throws when the integer is out of range. -/
def i128ToScVal (x : ℤ) : Option ScVal :=
  if h : InI128 x then some (.i128 ⟨x, h⟩) else none

theorem i128ToScVal_eq_some {x : ℤ} {v : ScVal} :
  i128ToScVal x = some v ↔ ∃ y : I128, v = .i128 y ∧ y.val = x
  := by
  unfold i128ToScVal
  split
  · rename_i h
    constructor
    · intro heq
      cases heq
      exact ⟨⟨x, h⟩, rfl, rfl⟩
    · rintro ⟨y, rfl, rfl⟩
      rfl
  · rename_i h
    constructor
    · exact nofun
    · rintro ⟨y, _, rfl⟩
      exact absurd y.property h

/-- `nativeToScVal(n, { type: 'u32' })`, which throws when the number is out of range. -/
def u32ToScVal (n : ℕ) : Option ScVal :=
  if n ≤ MAX_U32 then some (.u32 (UInt32.ofNat n)) else none

theorem u32ToScVal_eq_some {n : ℕ} {v : ScVal} :
  u32ToScVal n = some v ↔ ∃ m : UInt32, v = .u32 m ∧ m.toNat = n
  := by
  unfold u32ToScVal
  split
  · rename_i h
    constructor
    · intro heq
      cases heq
      refine ⟨_, rfl, ?_⟩
      dsimp only [MAX_U32] at h
      rw [UInt32.toNat_ofNat']
      omega
    · rintro ⟨m, rfl, rfl⟩
      rw [UInt32.ofNat_toNat]
  · rename_i h
    constructor
    · exact nofun
    · rintro ⟨m, _, rfl⟩
      have := m.toNat_lt
      dsimp only [MAX_U32] at h
      omega

/-- `Address.fromString(s).toScVal()`. -/
def Sdk.addressToScVal (sdk : Sdk) (s : JsString) : Option ScVal :=
  (sdk.fromString s).map ScVal.address

theorem Sdk.addressToScVal_eq {sdk : Sdk} {s : JsString} {a : ScAddress}
    (h : sdk.addressText a = s) :
  sdk.addressToScVal s = some (.address a)
  := by rw [addressToScVal, (sdk.fromString_eq_some_iff s a).mpr h, Option.map_some]

/-- `new Contract(contract).call(method, ...args)`, as the invocation of its operation. The
constructor throws when the string is not the address of a contract. -/
def Sdk.contractCall (sdk : Sdk) (contract : JsString) (method : String) (args : List ScVal) :
    Option InvokeContractArgs :=
  match sdk.fromString contract with
  | some (.contract hash) => some ⟨.contract hash, Utf8.ascii method, args⟩
  | _ => none

theorem Sdk.contractCall_eq {sdk : Sdk} {contract : JsString} {method : String} {args : List ScVal}
    {hash : BytesN32} (h : sdk.addressText (.contract hash) = contract) :
  sdk.contractCall contract method args = some ⟨.contract hash, Utf8.ascii method, args⟩
  := by rw [contractCall, (sdk.fromString_eq_some_iff _ _).mpr h]

end Relayer
