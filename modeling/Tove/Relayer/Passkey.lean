import Tove.Base.Base64
import Tove.Base.Json
import Tove.Relayer.Xdr

/-!
# Passkey assertions

The part that the verifiers of the relayer have in common: a WebAuthn assertion is checked against
the challenge that commits to an authorised invocation, and against the bound key of the wallet.
-/

namespace Relayer

open Checks Js

/-! ### Errors -/

/-- `TransferErrorReason`. -/
inductive TransferErrorReason where
  | simulation_failed
  | expired
  | signature_required
  | signature_invalid
  | transfer_failed
  | unavailable
  deriving DecidableEq

/-- `RelayerTransferError`, with its message when one was given. -/
structure RelayerTransferError where
  reason : TransferErrorReason
  message : Option String
  deriving DecidableEq

/-- What a verifier throws: an error of its own, or the `TypeError` of a property of `null`. -/
inductive Thrown where
  | transfer (e : RelayerTransferError)
  | typeError
  deriving DecidableEq

/-- `invalid`. -/
def invalid (message : String) : Thrown := .transfer ⟨.signature_invalid, some message⟩

/-! ### The challenge -/

/-- The `base64url` of a buffer, without padding. -/
abbrev base64url : Bytes → JsString := Base64.encode

namespace Sdk

variable (sdk : Sdk)

def networkId (networkPassphrase : JsString) : Bytes :=
  sdk.hash (Utf8.encode networkPassphrase)

def computeHostPayloadHash (networkPassphrase : JsString) (creds : AddressCredentials)
    (rootInvocation : AuthorizedInvocation) : Bytes :=
  sdk.hash (HashIdPreimage.toXDR {
    networkId := sdk.networkId networkPassphrase
    nonce := creds.nonce
    signatureExpirationLedger := creds.signatureExpirationLedger
    invocation := rootInvocation })

def computeAuthDigest (hostPayloadHash : Bytes) (contextRuleIds : List UInt32) : Bytes :=
  sdk.hash (hostPayloadHash ++ u32VecXDR contextRuleIds)

/-! ### The signature -/

/-- `toLowSCompactSignature`, which throws on a malformed signature. -/
def toLowSCompactSignature (der : Bytes) : Option Bytes :=
  (sdk.p256.fromDER der).map fun sig =>
    sdk.p256.toCompactRawBytes (if sdk.p256.hasHighS sig then sdk.p256.normalizeS sig else sig)

def webauthnSignedMessage (authenticatorData clientDataJSON : Bytes) : Bytes :=
  authenticatorData ++ sdk.hash clientDataJSON

/-- `verifyP256Assertion`, which throws on a key or a signature of another form. -/
def verifyP256Assertion (publicKey authenticatorData clientDataJSON signatureCompact : Bytes) :
    Option Bool :=
  if publicKey.length ≠ 65 ∨ publicKey.head? ≠ some 4 then none
  else if signatureCompact.length ≠ 64 then none
  else
    some (sdk.p256.verify signatureCompact
      (sdk.hash (sdk.webauthnSignedMessage authenticatorData clientDataJSON)) publicKey)

end Sdk

/-! ### The assertion -/

def MAX_CLIENT_DATA_JSON : ℕ := 4096

def FLAG_UP : UInt8 := 0x01

def FLAG_UV : UInt8 := 0x04

structure PasskeyAssertion where
  contextRuleIds : List UInt32
  boundPublicKey : Bytes
  authenticatorData : Bytes
  clientDataJSON : Bytes
  signatureDer : Bytes
  rpId : JsString
  allowedOrigins : List JsString

/-- The check that an assertion is attached. -/
def requireAssertion (a : PasskeyAssertion) : Except Thrown Unit :=
  rejectIf (a.authenticatorData = [] ∨ a.clientDataJSON = [] ∨ a.signatureDer = [])
    (.transfer ⟨.signature_required, none⟩)

/-- The challenge that commits to an invocation. -/
def Sdk.expectedChallenge (sdk : Sdk) (a : PasskeyAssertion) (networkPassphrase : JsString)
    (creds : AddressCredentials) (root : AuthorizedInvocation) : JsString :=
  base64url (sdk.computeAuthDigest (sdk.computeHostPayloadHash networkPassphrase creds root)
    a.contextRuleIds)

/-- The checks of the client data, of the authenticator data and of the signature. Each verifier
has its own words for a challenge that does not bind. -/
def checkAssertion (sdk : Sdk) (unbound : String) (a : PasskeyAssertion)
    (networkPassphrase : JsString) (creds : AddressCredentials) (root : AuthorizedInvocation) :
    Except Thrown Bytes := do
  rejectIf (MAX_CLIENT_DATA_JSON < a.clientDataJSON.length) (invalid "clientDataJSON too large")
  let clientData : Json.Value Json.Number ←
    orReject (Json.parse (Utf8.decode a.clientDataJSON)) (invalid "malformed clientDataJSON")
  let expectedChallenge := sdk.expectedChallenge a networkPassphrase creds root
  rejectIf (clientData.isNull = true) .typeError
  rejectIf (clientData.stringProperty (Utf8.text "type") ≠ some (Utf8.text "webauthn.get"))
    (invalid "clientDataJSON type is not webauthn.get")
  rejectIf (clientData.stringProperty (Utf8.text "challenge") ≠ some expectedChallenge)
    (invalid unbound)
  rejectIf (clientData.trueProperty (Utf8.text "crossOrigin") = true)
    (invalid "cross-origin assertion")
  rejectIf (¬ ∃ origin ∈ a.allowedOrigins,
      clientData.stringProperty (Utf8.text "origin") = some origin)
    (invalid "origin is not allow-listed")
  rejectIf (a.authenticatorData.length < 37) (invalid "authenticatorData too short")
  rejectIf (a.authenticatorData.take 32 ≠ sdk.hash (Utf8.encode a.rpId))
    (invalid "rpIdHash mismatch")
  let flags := a.authenticatorData.getD 32 0
  rejectIf (flags &&& FLAG_UP = 0) (invalid "user-presence flag not set")
  rejectIf (flags &&& FLAG_UV = 0) (invalid "user-verification flag not set")
  let signatureCompact ← orReject (sdk.toLowSCompactSignature a.signatureDer)
    (invalid "signature verification failed")
  let verified ← orReject (sdk.verifyP256Assertion a.boundPublicKey a.authenticatorData
      a.clientDataJSON signatureCompact)
    (invalid "signature verification failed")
  rejectIf (verified = false) (invalid "signature verification failed")
  return signatureCompact

/-! ### Valid assertions -/

/-- The client data of a request for an assertion with the given challenge. -/
structure ClientDataValid (allowedOrigins : List JsString) (challenge : JsString)
    (clientData : Json.Value Json.Number) : Prop where
  type : clientData.stringProperty (Utf8.text "type") = some (Utf8.text "webauthn.get")
  challenge : clientData.stringProperty (Utf8.text "challenge") = some challenge
  crossOrigin : clientData.trueProperty (Utf8.text "crossOrigin") = false
  origin : ∃ origin ∈ allowedOrigins,
    clientData.stringProperty (Utf8.text "origin") = some origin

/-- An assertion of a present and verified user, for one of the allowed origins, with the bound key
and a challenge that commits to the invocation. -/
structure PasskeyAssertion.Valid (sdk : Sdk) (a : PasskeyAssertion) (networkPassphrase : JsString)
    (creds : AddressCredentials) (root : AuthorizedInvocation) : Prop where
  authenticatorData_ne : a.authenticatorData ≠ []
  clientDataJSON_ne : a.clientDataJSON ≠ []
  signatureDer_ne : a.signatureDer ≠ []
  size : a.clientDataJSON.length ≤ MAX_CLIENT_DATA_JSON
  clientData : ∃ clientData, Json.parse (Utf8.decode a.clientDataJSON) = some clientData
    ∧ ClientDataValid a.allowedOrigins (sdk.expectedChallenge a networkPassphrase creds root)
      clientData
  length : 37 ≤ a.authenticatorData.length
  rpIdHash : a.authenticatorData.take 32 = sdk.hash (Utf8.encode a.rpId)
  userPresent : a.authenticatorData.getD 32 0 &&& FLAG_UP ≠ 0
  userVerified : a.authenticatorData.getD 32 0 &&& FLAG_UV ≠ 0
  signature : ∃ signatureCompact, sdk.toLowSCompactSignature a.signatureDer = some signatureCompact
    ∧ sdk.verifyP256Assertion a.boundPublicKey a.authenticatorData a.clientDataJSON signatureCompact
      = some true

section Valid

variable {sdk : Sdk} {unbound : String} {a : PasskeyAssertion} {networkPassphrase : JsString}
  {creds : AddressCredentials} {root : AuthorizedInvocation}

theorem requireAssertion_eq_ok :
  requireAssertion a = .ok ()
    ↔ a.authenticatorData ≠ [] ∧ a.clientDataJSON ≠ [] ∧ a.signatureDer ≠ []
  := by rw [requireAssertion, rejectIf_eq_ok, not_or, not_or]

/-- An object with a property is not `null`. -/
theorem isNull_of_stringProperty {x : Json.Value Json.Number} {key s : JsString}
    (h : x.stringProperty key = some s) :
  x.isNull = false
  := by
  cases x with
  | null => cases h
  | _ => rfl

/-- The checks pass on just the valid assertions that are attached. -/
theorem checkAssertion_succeeds_iff :
  (requireAssertion a = .ok ()
      ∧ ∃ sig, checkAssertion sdk unbound a networkPassphrase creds root = .ok sig)
    ↔ a.Valid sdk networkPassphrase creds root
  := by
  simp only [requireAssertion_eq_ok, checkAssertion, bind_eq_ok, rejectIf_eq_ok, orReject_eq_ok,
    pure_eq_ok, exists_const, not_lt, not_not, Bool.not_eq_true, Bool.not_eq_false]
  constructor
  · rintro ⟨⟨hauth, hclient, hder⟩, _, hsize, clientData, hparse, _, htype, hchallenge, hcross,
      horigin, hlength, hrp, hup, huv, sig, hsig, _, hverified, rfl, _⟩
    exact ⟨hauth, hclient, hder, hsize, ⟨clientData, hparse, htype, hchallenge, hcross, horigin⟩,
      hlength, hrp, hup, huv, sig, hsig, hverified⟩
  · intro h
    obtain ⟨clientData, hparse, htype, hchallenge, hcross, horigin⟩ := h.clientData
    obtain ⟨sig, hsig, hverified⟩ := h.signature
    exact ⟨⟨h.authenticatorData_ne, h.clientDataJSON_ne, h.signatureDer_ne⟩, sig, h.size,
      clientData,
      hparse, isNull_of_stringProperty htype, htype, hchallenge, hcross, horigin, h.length,
      h.rpIdHash, h.userPresent, h.userVerified, sig, hsig, true, hverified, rfl, rfl⟩

theorem valid_of_isOk (unbound : String)
    (h : (requireAssertion a >>= fun _ => checkAssertion sdk unbound a networkPassphrase creds root).isOk
      = true) :
  a.Valid sdk networkPassphrase creds root
  := by
  cases hcheck : requireAssertion a >>= fun _ =>
      checkAssertion sdk unbound a networkPassphrase creds root with
  | error e => rw [hcheck] at h; cases h
  | ok sig =>
    rw [check_bind_eq_ok] at hcheck
    exact checkAssertion_succeeds_iff.mp ⟨hcheck.1, sig, hcheck.2⟩

end Valid

/-! ### A sample -/

/-- A stand-in for the texts of addresses: a letter, and the number of the address. -/
def sampleText : ScAddress → JsString
  | .account key => [71, key.toNat]
  | .contract hash => [67, hash.toNat]
  | .other xdr => 77 :: xdr.map UInt8.toNat

/-- The address with the given text, if there is one. -/
def sampleAddress : JsString → Option ScAddress
  | [71, n] => some (.account (BitVec.ofNat 256 n))
  | [67, n] => some (.contract (BitVec.ofNat 256 n))
  | 77 :: xdr => some (.other (xdr.map UInt8.ofNat))
  | _ => none

theorem sampleAddress_sampleText (a : ScAddress) :
  sampleAddress (sampleText a) = some a
  := by
  cases a with
  | account key | contract hash => simp [sampleText, sampleAddress]
  | other xdr => simp [sampleText, sampleAddress, Function.comp_def]

/-- A stand-in for the hash: 32 bytes that depend on all bytes of the input. -/
def sampleHash (b : Bytes) : Bytes :=
  Digits.bigEndian (b.foldl (fun h x => (h * 257 + x.toNat + 1) % 2 ^ 256) 0) 32

/-- A stand-in for the curve: a signature is the digest, followed by half of the key. -/
def sampleP256 : P256 where
  Signature := Bytes
  fromDER der := if der.length = 64 then some der else none
  hasHighS _ := false
  normalizeS sig := sig
  toCompactRawBytes sig := sig
  verify sig digest publicKey := sig = digest ++ publicKey.drop 33

def sampleCreds (n : ℕ) : AddressCredentials := ⟨.contract (BitVec.ofNat 256 n), 5, 100, .other []⟩

def sampleId (b : UInt8) : Bytes32 := ⟨List.replicate 32 b, List.length_replicate⟩

def sampleAmount (n : ℕ) (h : (n : ℤ) ≤ Soroban.MAX_I128) : Soroban.I128 :=
  ⟨n, Soroban.inI128_of_nonneg (Int.natCast_nonneg n) h⟩

/-- An SDK that reads one transaction. -/
def sampleSdk (tx : Transaction) : Sdk where
  fromXDR xdr _ := if xdr = Utf8.text "tx" then some (.transaction tx) else none
  addressText := sampleText
  fromString s := (sampleAddress s).filter fun a => sampleText a = s
  fromString_eq_some_iff s a := by
    rw [Option.filter_eq_some_iff, decide_eq_true_eq]
    constructor
    · exact And.right
    · rintro rfl
      exact ⟨sampleAddress_sampleText a, rfl⟩
  hash := sampleHash
  p256 := sampleP256

/-- An assertion that signs an invocation. -/
def sampleAssertion (sdk : Sdk) (networkPassphrase : JsString) (creds : AddressCredentials)
    (root : AuthorizedInvocation) : PasskeyAssertion :=
  let challenge :=
    base64url (sdk.computeAuthDigest (sdk.computeHostPayloadHash networkPassphrase creds root) [0])
  let clientData : Json.Value Json.Number := .obj [
    (Utf8.text "type", .str (Utf8.text "webauthn.get")),
    (Utf8.text "challenge", .str challenge),
    (Utf8.text "origin", .str (Utf8.text "https://tove")),
    (Utf8.text "crossOrigin", .bool false)]
  let clientDataJSON := Utf8.encode (Json.stringify clientData)
  let authenticatorData := sdk.hash (Utf8.encode (Utf8.text "tove")) ++ [0x05, 0, 0, 0, 1]
  let publicKey := 0x04 :: List.replicate 64 0x07
  { contextRuleIds := [0]
    boundPublicKey := publicKey
    authenticatorData
    clientDataJSON
    signatureDer := sdk.hash (sdk.webauthnSignedMessage authenticatorData clientDataJSON)
      ++ publicKey.drop 33
    rpId := Utf8.text "tove"
    allowedOrigins := [Utf8.text "https://tove"] }

end Relayer
