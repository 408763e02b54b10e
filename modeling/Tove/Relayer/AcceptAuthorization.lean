import Tove.Relayer.AcceptInvocation
import Tove.Relayer.Reading

/-!
# The verifier of `accept_quote`

Before the relayer submits the purchase of a quote, it checks that the operation and the two
authorisations in it are those of the trade, and that the passkey of the buyer has signed the
transfers which pay for it.  An accepted transaction is known in all its parts (`Passes`).
-/

namespace Relayer

open Checks Js

/-! ### The verifier -/

structure AcceptTupleTrusted where
  settlerContract : JsString
  rfqId : Bytes32
  quoteId : Bytes32
  artworkId : Bytes32
  expectedCount : ℤ
  expectedGross : ℤ

structure VerifyAcceptQuoteAuthorizationInput extends PasskeyAssertion, AcceptTupleTrusted where
  txXdr : JsString
  networkPassphrase : JsString
  usdcContract : JsString
  buyerWallet : JsString
  sellerWallet : JsString

structure VerifiedAcceptQuoteAuthorization where
  tx : Transaction
  buyerAuthEntry : AuthorizationEntry
  buyerSignatureCompact : Bytes
  buyerSignatureExpirationLedger : UInt32
  sellerSignatureExpirationLedger : UInt32

def assertAcceptRoot (sdk : Sdk) (entry : AuthorizationEntry) (t : AcceptTupleTrusted)
    (label : String) : Except Thrown AuthorizedInvocation := do
  let root := entry.rootInvocation
  let fn ← orReject root.function.contractFn?
    (invalid (label ++ " root is not a contract invocation"))
  requireFunction sdk fn "accept_quote" t.settlerContract (label ++ " root is not accept_quote")
    (label ++ " root targets an unexpected settler")
  match fn.args with
  | [rfqId, quoteId, artworkId, count, gross] => do
    requireBytes32Equal rfqId t.rfqId (label ++ " rfq_id")
    requireBytes32Equal quoteId t.quoteId (label ++ " quote_id")
    requireBytes32Equal artworkId t.artworkId (label ++ " artwork_id")
    requireI128Equal count t.expectedCount (label ++ " count")
    requireI128Equal gross t.expectedGross (label ++ " gross")
    return root
  | _ => throw (invalid (label ++ " root is not the require_auth_for_args 5-tuple"))

def verifyPasskeyOverRoot (sdk : Sdk) (a : PasskeyAssertion) (networkPassphrase : JsString)
    (creds : AddressCredentials) (root : AuthorizedInvocation) : Except Thrown Bytes := do
  requireAssertion a
  checkAssertion sdk "challenge does not bind to this trade" a networkPassphrase creds root

/-- An entry with the credentials of the wallet. -/
def AuthorizationEntry.isFor (sdk : Sdk) (wallet : JsString) (e : AuthorizationEntry) : Bool :=
  e.credentials.address?.any fun creds => sdk.addressText creds.address = wallet

def pickEntry (sdk : Sdk) (entries : List AuthorizationEntry) (wallet : JsString)
    (label : String) : Except Thrown AuthorizationEntry :=
  match entries.filter (AuthorizationEntry.isFor sdk wallet) with
  | [e] => return e
  | _ => throw (invalid ("expected exactly one " ++ label ++ " address-credential auth entry"))

/-- The operation is the call of `accept_quote` with the trusted values. -/
def assertAcceptOperation (sdk : Sdk) (input : VerifyAcceptQuoteAuthorizationInput)
    (opInv : InvokeContractArgs) : Except Thrown Unit := do
  requireFunction sdk opInv "accept_quote" input.settlerContract "operation is not accept_quote"
    "operation targets an unexpected settler"
  match opInv.args with
  | [rfqId, quoteId, artworkId, buyer, seller, count, gross] => do
    requireBytes32Equal rfqId input.rfqId "op rfq_id"
    requireBytes32Equal quoteId input.quoteId "op quote_id"
    requireBytes32Equal artworkId input.artworkId "op artwork_id"
    requireString sdk buyer input.buyerWallet "op buyer does not match the wallet"
    requireString sdk seller input.sellerWallet "op seller does not match the wallet"
    requireI128Equal count input.expectedCount "op count"
    requireI128Equal gross input.expectedGross "op gross"
  | _ => throw (invalid "unexpected accept_quote argument count")

/-- What the loop over the transfers of the buyer keeps. -/
structure LegTotals where
  sum : ℤ
  sawSellerNet : Bool

/-- A round of the loop over the transfers. -/
def checkLeg (sdk : Sdk) (input : VerifyAcceptQuoteAuthorizationInput) (sellerNet : ℤ)
    (totals : LegTotals) (sub : AuthorizedInvocation) : Except Thrown LegTotals := do
  let t ← orReject sub.function.contractFn? (invalid "malformed buyer usdc sub-invocation")
  rejectIf (sub.subInvocations.length ≠ 0) (invalid "malformed buyer usdc sub-invocation")
  requireFunction sdk t "transfer" input.usdcContract "buyer sub-invocation is not a transfer"
    "buyer transfer targets an unexpected token"
  match t.args with
  | [source, target, amount] => do
    requireString sdk source input.buyerWallet "buyer transfer `from` is not the buyer"
    let amount ← requireI128 amount "buyer transfer amount is not an i128"
    rejectIf (amount ≤ 0) (invalid "buyer transfer amount is non-positive")
    if sdk.scValToNative target = .string input.sellerWallet then
      rejectIf (amount ≠ sellerNet) (invalid "seller-net leg amount does not match gross − fees")
      return ⟨totals.sum + amount, true⟩
    else return ⟨totals.sum + amount, totals.sawSellerNet⟩
  | _ => throw (invalid "unexpected transfer argument count")

/-- The transfers of the buyer pay the price. -/
def checkLegs (sdk : Sdk) (input : VerifyAcceptQuoteAuthorizationInput)
    (subs : List AuthorizedInvocation) : Except Thrown Unit := do
  let sellerNet := (computeUsdcSplit input.expectedGross).sellerNet
  rejectIf (subs.length = 0 ∨ 3 < subs.length) (invalid "unexpected buyer usdc-leg count")
  let totals ← subs.foldlM (checkLeg sdk input sellerNet) ⟨0, false⟩
  rejectIf (totals.sum ≠ input.expectedGross) (invalid "buyer usdc legs do not sum to gross")
  rejectIf (0 < sellerNet ∧ totals.sawSellerNet = false)
    (invalid "missing the seller-net usdc leg")

def verifyAcceptQuoteAuthorization (sdk : Sdk) (input : VerifyAcceptQuoteAuthorizationInput) :
    Except Thrown VerifiedAcceptQuoteAuthorization := do
  let (tx, func, authEntries) ← requireOperation sdk input.txXdr input.networkPassphrase
  let opInv ← orReject func.invokeContract?
    (invalid "host function is not a contract invocation")
  rejectIf (authEntries.length ≠ 2) (invalid "expected exactly two auth entries (buyer + seller)")
  let buyerEntry ← pickEntry sdk authEntries input.buyerWallet "buyer"
  let sellerEntry ← pickEntry sdk authEntries input.sellerWallet "seller"
  assertAcceptOperation sdk input opInv
  let buyerRoot ← assertAcceptRoot sdk buyerEntry input.toAcceptTupleTrusted "buyer"
  let sellerRoot ← assertAcceptRoot sdk sellerEntry input.toAcceptTupleTrusted "seller"
  rejectIf (sellerRoot.subInvocations.length ≠ 0)
    (invalid "seller auth tree must have no sub-invocations")
  checkLegs sdk input buyerRoot.subInvocations
  let buyerCreds ← orReject buyerEntry.credentials.address? .typeError
  let buyerSignatureCompact ← verifyPasskeyOverRoot sdk input.toPasskeyAssertion
    input.networkPassphrase buyerCreds buyerRoot
  let sellerCreds ← orReject sellerEntry.credentials.address? .typeError
  return {
    tx
    buyerAuthEntry := buyerEntry
    buyerSignatureCompact
    buyerSignatureExpirationLedger := buyerCreds.signatureExpirationLedger
    sellerSignatureExpirationLedger := sellerCreds.signatureExpirationLedger }

/-- The verifier accepts. -/
def Accepts (sdk : Sdk) (input : VerifyAcceptQuoteAuthorizationInput) : Prop :=
  ∃ verified, verifyAcceptQuoteAuthorization sdk input = .ok verified

/-! ### The parts of a transaction -/

/-- The trusted values, as arguments. -/
def VerifyAcceptQuoteAuthorizationInput.args (input : VerifyAcceptQuoteAuthorizationInput) :
    AcceptQuoteArgs where
  rfqId := input.rfqId
  quoteId := input.quoteId
  artworkId := input.artworkId
  buyer := input.buyerWallet
  seller := input.sellerWallet
  count := input.expectedCount
  gross := input.expectedGross

/-- A transfer in the tree of the buyer. -/
structure Leg where
  source : ScVal
  target : ScVal
  amount : Soroban.I128

def Leg.invocation (usdc : ScAddress) (leg : Leg) : AuthorizedInvocation :=
  contractFnInvocation ⟨usdc, Utf8.ascii "transfer", [leg.source, leg.target, .i128 leg.amount]⟩ []

/-- What a transaction that invokes `accept_quote` is made of, apart from the trusted ids. -/
@[ext]
structure Parts where
  settler : ScAddress
  usdc : ScAddress
  buyerArg : ScVal
  sellerArg : ScVal
  count : ScVal
  gross : ScVal
  buyerCreds : AddressCredentials
  sellerCreds : AddressCredentials
  legs : List Leg

namespace Parts

variable (input : VerifyAcceptQuoteAuthorizationInput) (p : Parts)

def opArgs : List ScVal :=
  [.bytes input.rfqId, .bytes input.quoteId, .bytes input.artworkId, p.buyerArg, p.sellerArg,
    p.count, p.gross]

def tuple : List ScVal :=
  [.bytes input.rfqId, .bytes input.quoteId, .bytes input.artworkId, p.count, p.gross]

def root (subs : List AuthorizedInvocation) : AuthorizedInvocation :=
  contractFnInvocation ⟨p.settler, Utf8.ascii "accept_quote", p.tuple input⟩ subs

def buyerRoot : AuthorizedInvocation := p.root input (p.legs.map (Leg.invocation p.usdc))

def sellerRoot : AuthorizedInvocation := p.root input []

def func : HostFunction :=
  .invokeContract ⟨p.settler, Utf8.ascii "accept_quote", p.opArgs input⟩

def entries : List AuthorizationEntry :=
  [⟨.address p.buyerCreds, p.buyerRoot input⟩, ⟨.address p.sellerCreds, p.sellerRoot input⟩]

end Parts

/-- The transaction is made of the parts, and they are those of the trade; the wallets in the
arguments are left open. -/
structure Carries (sdk : Sdk) (input : VerifyAcceptQuoteAuthorizationInput) (p : Parts) : Prop where
  settler : sdk.addressText p.settler = input.settlerContract
  usdc : sdk.addressText p.usdc = input.usdcContract
  count : i128ToScVal input.expectedCount = some p.count
  gross : i128ToScVal input.expectedGross = some p.gross
  buyer : sdk.addressText p.buyerCreds.address = input.buyerWallet
  seller : sdk.addressText p.sellerCreds.address = input.sellerWallet
  transaction : ∃ auth, auth.Perm (p.entries input)
    ∧ sdk.fromXDR input.txXdr input.networkPassphrase
      = some (.transaction ⟨[.invokeHostFunction (p.func input) auth]⟩)

/-- The value is read as the wallet of the buyer, or of the seller. -/
def ReadsAs (sdk : Sdk) (wallet : JsString) (v : ScVal) : Prop :=
  sdk.scValToNative v = .string wallet

/-- What the verifier checks of a transfer. -/
structure Leg.Good (sdk : Sdk) (input : VerifyAcceptQuoteAuthorizationInput) (leg : Leg) :
    Prop where
  source : ReadsAs sdk input.buyerWallet leg.source
  positive : 0 < leg.amount.val
  sellerNet : ReadsAs sdk input.sellerWallet leg.target →
    leg.amount.val = (computeUsdcSplit input.expectedGross).sellerNet

/-- What the verifier checks of the parts. -/
structure Passes (sdk : Sdk) (input : VerifyAcceptQuoteAuthorizationInput) (p : Parts) : Prop
    extends Carries sdk input p where
  buyerArg : ReadsAs sdk input.buyerWallet p.buyerArg
  sellerArg : ReadsAs sdk input.sellerWallet p.sellerArg
  legs_pos : p.legs.length ≠ 0
  legs_le : p.legs.length ≤ 3
  good : ∀ leg ∈ p.legs, leg.Good sdk input
  sum : (p.legs.map fun leg => leg.amount.val).sum = input.expectedGross
  seen : 0 < (computeUsdcSplit input.expectedGross).sellerNet →
    ∃ leg ∈ p.legs, ReadsAs sdk input.sellerWallet leg.target
  valid : input.Valid sdk input.networkPassphrase p.buyerCreds (p.buyerRoot input)

/-! ### What each check passes on -/

section Checks

variable {sdk : Sdk} {input : VerifyAcceptQuoteAuthorizationInput} {label : String}

theorem assertAcceptRoot_eq_ok {entry : AuthorizationEntry} {root : AuthorizedInvocation}
    {settler : ScAddress} {count gross : ScVal}
    (hsettler : sdk.addressText settler = input.settlerContract)
    (hcount : i128ToScVal input.expectedCount = some count)
    (hgross : i128ToScVal input.expectedGross = some gross) :
  assertAcceptRoot sdk entry input.toAcceptTupleTrusted label = .ok root
    ↔ entry.rootInvocation = root
      ∧ root.function = .contractFn ⟨settler, Utf8.ascii "accept_quote",
          [.bytes input.rfqId, .bytes input.quoteId, .bytes input.artworkId, count, gross]⟩
  := by
  simp only [assertAcceptRoot, bind_eq_ok, orReject_eq_ok,
    AuthorizedFunction.contractFn?_eq_some]
  constructor
  · rintro ⟨⟨settler', name, args⟩, hfn, _, hname, h⟩
    obtain ⟨rfl, hsettler'⟩ := (requireFunction_eq_ok (by decide)).mp hname
    obtain rfl := sdk.addressText_injective (hsettler'.trans hsettler.symm)
    split at h
    · rename_i hargs
      obtain rfl : args = _ := hargs
      simp only [check_bind_eq_ok, requireBytes32Equal_eq_ok, requireI128Equal_eq_ok, hcount,
        hgross, Option.some_inj, pure_eq_ok] at h
      obtain ⟨rfl, rfl, rfl, rfl, rfl, rfl⟩ := h
      exact ⟨rfl, hfn⟩
    · cases h
  · rintro ⟨rfl, hfn⟩
    refine ⟨_, hfn, (), (requireFunction_eq_ok (by decide)).mpr ⟨rfl, hsettler⟩, ?_⟩
    simp only [check_bind_eq_ok, requireBytes32Equal_eq_ok, requireI128Equal_eq_ok, pure_eq_ok]
    exact ⟨trivial, trivial, trivial, hcount, hgross, trivial⟩

theorem assertAcceptOperation_eq_ok {opInv : InvokeContractArgs} :
  assertAcceptOperation sdk input opInv = .ok ()
    ↔ ∃ settler buyerArg sellerArg count gross, sdk.addressText settler = input.settlerContract
      ∧ i128ToScVal input.expectedCount = some count
      ∧ i128ToScVal input.expectedGross = some gross
      ∧ ReadsAs sdk input.buyerWallet buyerArg ∧ ReadsAs sdk input.sellerWallet sellerArg
      ∧ opInv = ⟨settler, Utf8.ascii "accept_quote", [.bytes input.rfqId, .bytes input.quoteId,
          .bytes input.artworkId, buyerArg, sellerArg, count, gross]⟩
  := by
  rw [assertAcceptOperation, check_bind_eq_ok, requireFunction_eq_ok (by decide)]
  obtain ⟨settler, name, args⟩ := opInv
  constructor
  · rintro ⟨⟨rfl, hsettler⟩, h⟩
    split at h
    · rename_i hargs
      obtain rfl : args = _ := hargs
      simp only [check_bind_eq_ok, requireBytes32Equal_eq_ok, requireString_eq_ok,
        requireI128Equal_eq_ok] at h
      obtain ⟨rfl, rfl, rfl, hbuyer, hseller, hcount, hgross⟩ := h
      exact ⟨settler, _, _, _, _, hsettler, hcount, hgross, hbuyer, hseller, rfl⟩
    · cases h
  · rintro ⟨settler, buyerArg, sellerArg, count, gross, hsettler, hcount, hgross, hbuyer, hseller,
      heq⟩
    cases heq
    refine ⟨⟨rfl, hsettler⟩, ?_⟩
    simp only [check_bind_eq_ok, requireBytes32Equal_eq_ok, requireString_eq_ok,
      requireI128Equal_eq_ok]
    exact ⟨trivial, trivial, trivial, hbuyer, hseller, hcount, hgross⟩

theorem pickEntry_eq_ok {entries : List AuthorizationEntry} {wallet : JsString}
    {e : AuthorizationEntry} :
  pickEntry sdk entries wallet label = .ok e
    ↔ entries.filter (AuthorizationEntry.isFor sdk wallet) = [e]
  := by
  unfold pickEntry
  split
  · rename_i heq
    rw [heq, pure_eq_ok, List.singleton_inj]
  · rename_i hne
    rw [throw_eq_ok, false_iff]
    exact hne e

/-- How a transfer changes what the loop keeps. -/
def LegTotals.add (sdk : Sdk) (input : VerifyAcceptQuoteAuthorizationInput) (totals : LegTotals)
    (leg : Leg) : LegTotals where
  sum := totals.sum + leg.amount.val
  sawSellerNet := totals.sawSellerNet || sdk.scValToNative leg.target = .string input.sellerWallet

/-- A round of the loop passes on just the good transfers of USDC. -/
theorem checkLeg_eq_ok {usdc : ScAddress} (husdc : sdk.addressText usdc = input.usdcContract)
    (totals : LegTotals) (sub : AuthorizedInvocation) (totals' : LegTotals) :
  checkLeg sdk input (computeUsdcSplit input.expectedGross).sellerNet totals sub = .ok totals'
    ↔ ∃ leg : Leg, leg.invocation usdc = sub ∧ leg.Good sdk input
      ∧ totals.add sdk input leg = totals'
  := by
  simp only [checkLeg, bind_eq_ok, orReject_eq_ok, AuthorizedFunction.contractFn?_eq_some,
    rejectIf_eq_ok, not_not]
  constructor
  · rintro ⟨⟨token, name, args⟩, hfn, _, hsubs, _, hname, h⟩
    obtain ⟨rfl, htoken⟩ := (requireFunction_eq_ok (by decide)).mp hname
    obtain rfl := sdk.addressText_injective (htoken.trans husdc.symm)
    split at h
    · rename_i source target arg hargs
      obtain rfl : args = _ := hargs
      simp only [bind_eq_ok, requireString_eq_ok, requireI128_eq_ok, i128ToScVal_eq_some,
        rejectIf_eq_ok, not_le, exists_const] at h
      obtain ⟨hsource, _, ⟨amount, rfl, rfl⟩, hpositive, h⟩ := h
      refine ⟨⟨source, target, amount⟩, AuthorizedInvocation.ext hfn.symm ?_, ?_⟩
      · exact (List.length_eq_zero_iff.mp hsubs).symm
      split at h
      · rename_i htarget
        simp only [bind_eq_ok, rejectIf_eq_ok, not_not, pure_eq_ok, exists_const] at h
        obtain ⟨hnet, rfl⟩ := h
        exact ⟨⟨hsource, hpositive, fun _ => hnet⟩, by simp [LegTotals.add, htarget]⟩
      · rename_i htarget
        rw [pure_eq_ok] at h
        subst h
        exact ⟨⟨hsource, hpositive, fun hreads => absurd hreads htarget⟩,
          by simp [LegTotals.add, htarget]⟩
    · cases h
  · rintro ⟨⟨source, target, amount⟩, rfl, hgood, rfl⟩
    refine ⟨_, rfl, (), rfl, (), (requireFunction_eq_ok (by decide)).mpr ⟨rfl, husdc⟩, ?_⟩
    simp only [bind_eq_ok, requireString_eq_ok, requireI128_eq_ok, i128ToScVal_eq_some,
      rejectIf_eq_ok, not_le, exists_const]
    refine ⟨hgood.source, amount.val, ⟨amount, rfl, rfl⟩, hgood.positive, ?_⟩
    split
    · rename_i htarget
      simp only [bind_eq_ok, rejectIf_eq_ok, not_not, pure_eq_ok, exists_const]
      exact ⟨hgood.sellerNet htarget, by simp [LegTotals.add, htarget]⟩
    · rename_i htarget
      simp [LegTotals.add, htarget]

/-- What the loop keeps at its end. -/
theorem foldl_add (legs : List Leg) (totals : LegTotals) :
  legs.foldl (LegTotals.add sdk input) totals
    = ⟨totals.sum + (legs.map fun leg => leg.amount.val).sum, totals.sawSellerNet
        || legs.any fun leg => sdk.scValToNative leg.target = .string input.sellerWallet⟩
  := by
  induction legs generalizing totals with
  | nil => simp
  | cons leg legs ih =>
    rw [List.foldl_cons, ih, LegTotals.add, List.map_cons, List.sum_cons, List.any_cons, add_assoc,
      Bool.or_assoc]

/-- The transfers that the verifier accepts. -/
theorem checkLegs_eq_ok {usdc : ScAddress} (husdc : sdk.addressText usdc = input.usdcContract)
    {subs : List AuthorizedInvocation} :
  checkLegs sdk input subs = .ok ()
    ↔ ∃ legs : List Leg, legs.map (Leg.invocation usdc) = subs
      ∧ legs.length ≠ 0 ∧ legs.length ≤ 3 ∧ (∀ leg ∈ legs, leg.Good sdk input)
      ∧ (legs.map fun leg => leg.amount.val).sum = input.expectedGross
      ∧ (0 < (computeUsdcSplit input.expectedGross).sellerNet →
        ∃ leg ∈ legs, ReadsAs sdk input.sellerWallet leg.target)
  := by
  simp only [checkLegs, bind_eq_ok, rejectIf_eq_ok, not_or, not_lt, not_not, not_and,
    Bool.not_eq_false, foldlM_eq_ok (checkLeg_eq_ok husdc), foldl_add, exists_const]
  constructor
  · rintro ⟨⟨hpos, hle⟩, _, ⟨legs, rfl, hgood, rfl⟩, hsum, hseen⟩
    rw [List.length_map] at hpos hle
    refine ⟨legs, rfl, hpos, hle, hgood, by simpa using hsum, fun hnet => ?_⟩
    simpa [ReadsAs] using hseen hnet
  · rintro ⟨legs, rfl, hpos, hle, hgood, hsum, hseen⟩
    refine ⟨by simpa using And.intro hpos hle, _, ⟨legs, rfl, hgood, rfl⟩, by simpa using hsum, ?_⟩
    intro hnet
    simpa [ReadsAs] using hseen hnet

/-- The token is known when the transfers are accepted. -/
theorem exists_usdc {subs : List AuthorizedInvocation} (h : checkLegs sdk input subs = .ok ()) :
  ∃ usdc, sdk.addressText usdc = input.usdcContract
  := by
  simp only [checkLegs, bind_eq_ok, rejectIf_eq_ok, not_or, exists_const] at h
  obtain ⟨⟨hne, _⟩, totals, hloop, _⟩ := h
  cases subs with
  | nil => exact absurd rfl hne
  | cons sub subs =>
    rw [List.foldlM_cons, bind_eq_ok] at hloop
    obtain ⟨_, hleg, _⟩ := hloop
    simp only [checkLeg, bind_eq_ok] at hleg
    obtain ⟨t, _, _, _, _, hname, _⟩ := hleg
    exact ⟨t.contractAddress, ((requireFunction_eq_ok (by decide)).mp hname).2⟩

theorem verifyPasskeyOverRoot_succeeds_iff {a : PasskeyAssertion} {networkPassphrase : JsString}
    {creds : AddressCredentials} {root : AuthorizedInvocation} :
  (∃ sig, verifyPasskeyOverRoot sdk a networkPassphrase creds root = .ok sig)
    ↔ a.Valid sdk networkPassphrase creds root
  := by
  simp only [verifyPasskeyOverRoot, check_bind_eq_ok, exists_and_left]
  exact checkAssertion_succeeds_iff

/-! ### What the verifier accepts -/

theorem isFor_iff {wallet : JsString} {e : AuthorizationEntry} :
  e.isFor sdk wallet = true
    ↔ ∃ creds, e.credentials = .address creds ∧ sdk.addressText creds.address = wallet
  := by
  simp [AuthorizationEntry.isFor, Option.any_eq_true, Credentials.address?_eq_some]

theorem isFor_of_filter {wallet : JsString} {entries : List AuthorizationEntry}
    {e : AuthorizationEntry} (h : entries.filter (AuthorizationEntry.isFor sdk wallet) = [e]) :
  ∃ creds, e.credentials = .address creds ∧ sdk.addressText creds.address = wallet
  := by
  have hmem : e ∈ entries.filter (AuthorizationEntry.isFor sdk wallet) := by rw [h]; simp
  exact isFor_iff.mp (List.mem_filter.mp hmem).2

/-- Two entries, of which one is picked for the buyer and another one for the seller. -/
theorem perm_of_filter {entries : List AuthorizationEntry}
    {isBuyer isSeller : AuthorizationEntry → Bool} {b s : AuthorizationEntry}
    (hlength : entries.length = 2) (hdistinct : ∀ e, isBuyer e = true → isSeller e = false)
    (hb : entries.filter isBuyer = [b]) (hs : entries.filter isSeller = [s]) :
  entries.Perm [b, s]
  := by
  obtain ⟨hbmem, hbuyer⟩ : b ∈ entries ∧ isBuyer b = true :=
    List.mem_filter.mp (by rw [hb, List.mem_singleton])
  obtain ⟨hsmem, hseller⟩ : s ∈ entries ∧ isSeller s = true :=
    List.mem_filter.mp (by rw [hs, List.mem_singleton])
  have hne : b ≠ s := by
    rintro rfl
    rw [hdistinct b hbuyer] at hseller
    cases hseller
  have hsubperm : [b, s].Subperm entries := by
    apply List.subperm_of_subset (by simp [hne])
    simp [List.cons_subset, hbmem, hsmem]
  exact (hsubperm.perm_of_length_le (by simp [hlength])).symm

/-- An entry that is picked alone from two is the one that is for the wallet. -/
theorem filter_of_perm {entries : List AuthorizationEntry} {picked : AuthorizationEntry → Bool}
    {e e' : AuthorizationEntry} (hperm : entries.Perm [e, e']) (he : picked e = true)
    (he' : picked e' = false) :
  entries.filter picked = [e]
  := by
  apply List.perm_singleton.mp
  simpa [he, he'] using hperm.filter picked

/-- For distinct wallets, the verifier accepts just the transactions whose parts pass. -/
theorem accepts_iff (hdistinct : input.buyerWallet ≠ input.sellerWallet) :
  Accepts sdk input ↔ ∃ p, Passes sdk input p
  := by
  have hexclusive : ∀ e : AuthorizationEntry, e.isFor sdk input.buyerWallet = true →
      e.isFor sdk input.sellerWallet = false := by
    intro e he
    obtain ⟨creds, hcreds, hbuyer⟩ := isFor_iff.mp he
    rw [Bool.eq_false_iff, ne_eq, isFor_iff]
    rintro ⟨creds', hcreds', hseller⟩
    cases hcreds.symm.trans hcreds'
    exact hdistinct (hbuyer.symm.trans hseller)
  constructor
  · rintro ⟨verified, h⟩
    simp only [verifyAcceptQuoteAuthorization, bind_eq_ok, Prod.exists, requireOperation_eq_ok,
      orReject_eq_ok, HostFunction.invokeContract?_eq_some, Credentials.address?_eq_some,
      rejectIf_eq_ok, not_not, pickEntry_eq_ok, exists_const, pure_eq_ok] at h
    obtain ⟨tx, func, auth, ⟨htx, rfl⟩, opInv, rfl, hlength, b, hb, s, hs, _, hop, root, hroot,
      sellerRoot, hsellerRoot, hsubs, _, hlegs, creds, hcreds, sig, hsig, sellerCreds,
      hsellerCreds, _⟩ := h
    obtain ⟨settler, buyerArg, sellerArg, count, gross, hsettler, hcount, hgross, hbuyerArg,
      hsellerArg, rfl⟩ := assertAcceptOperation_eq_ok.mp hop
    obtain ⟨rfl, hbfn⟩ := (assertAcceptRoot_eq_ok hsettler hcount hgross).mp hroot
    obtain ⟨rfl, hsfn⟩ := (assertAcceptRoot_eq_ok hsettler hcount hgross).mp hsellerRoot
    obtain ⟨usdc, husdc⟩ := exists_usdc hlegs
    obtain ⟨legs, hmap, hpos, hle, hgood, hsum, hseen⟩ := (checkLegs_eq_ok husdc).mp hlegs
    obtain ⟨creds', hcreds', hbuyer⟩ := isFor_of_filter hb
    obtain ⟨sellerCreds', hsellerCreds', hseller⟩ := isFor_of_filter hs
    cases hcreds.symm.trans hcreds'
    cases hsellerCreds.symm.trans hsellerCreds'
    let p : Parts := ⟨settler, usdc, buyerArg, sellerArg, count, gross, creds, sellerCreds, legs⟩
    have hbroot : b.rootInvocation = p.buyerRoot input := AuthorizedInvocation.ext hbfn hmap.symm
    have hsroot : s.rootInvocation = p.sellerRoot input :=
      AuthorizedInvocation.ext hsfn (List.length_eq_zero_iff.mp hsubs)
    have hperm : auth.Perm (p.entries input) := by
      rw [Parts.entries, ← hbroot, ← hsroot, ← hcreds, ← hsellerCreds]
      apply perm_of_filter hlength hexclusive hb hs
    have hvalid : input.Valid sdk input.networkPassphrase creds (p.buyerRoot input) := by
      rw [← hbroot]
      exact verifyPasskeyOverRoot_succeeds_iff.mp ⟨sig, hsig⟩
    exact ⟨p, ⟨hsettler, husdc, hcount, hgross, hbuyer, hseller, auth, hperm, htx⟩, hbuyerArg,
      hsellerArg, hpos, hle, hgood, hsum, hseen, hvalid⟩
  · rintro ⟨p, h⟩
    obtain ⟨auth, hperm, htx⟩ := h.transaction
    obtain ⟨sig, hsig⟩ := verifyPasskeyOverRoot_succeeds_iff.mpr h.valid
    have hbuyer : AuthorizationEntry.isFor sdk input.buyerWallet
        ⟨.address p.buyerCreds, p.buyerRoot input⟩ = true := isFor_iff.mpr ⟨_, rfl, h.buyer⟩
    have hseller : AuthorizationEntry.isFor sdk input.sellerWallet
        ⟨.address p.sellerCreds, p.sellerRoot input⟩ = true := isFor_iff.mpr ⟨_, rfl, h.seller⟩
    have hother : AuthorizationEntry.isFor sdk input.buyerWallet
        ⟨.address p.sellerCreds, p.sellerRoot input⟩ = false := by
      rw [Bool.eq_false_iff]
      intro hboth
      rw [hexclusive _ hboth] at hseller
      cases hseller
    simp only [Accepts, verifyAcceptQuoteAuthorization, bind_eq_ok, Prod.exists, requireOperation_eq_ok,
      orReject_eq_ok, HostFunction.invokeContract?_eq_some, Credentials.address?_eq_some,
      rejectIf_eq_ok, not_not, pickEntry_eq_ok, exists_const, pure_eq_ok]
    exact ⟨_, _, _, auth, ⟨htx, rfl⟩, _, rfl, hperm.length_eq, _,
      filter_of_perm hperm hbuyer hother, _,
      filter_of_perm (hperm.trans (List.Perm.swap _ _ _)) hseller (hexclusive _ hbuyer), (),
      assertAcceptOperation_eq_ok.mpr ⟨_, _, _, _, _, h.settler, h.count, h.gross, h.buyerArg,
        h.sellerArg, rfl⟩, _,
      (assertAcceptRoot_eq_ok h.settler h.count h.gross).mpr ⟨rfl, rfl⟩, _,
      (assertAcceptRoot_eq_ok h.settler h.count h.gross).mpr ⟨rfl, rfl⟩, rfl, (),
      (checkLegs_eq_ok h.usdc).mpr ⟨p.legs, rfl, h.legs_pos, h.legs_le, h.good, h.sum, h.seen⟩, _,
      rfl, sig, hsig, _, rfl, rfl⟩

end Checks

end Relayer
