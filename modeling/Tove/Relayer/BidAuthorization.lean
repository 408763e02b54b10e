import Tove.Relayer.Exact

/-!
# The verifier of `submit_bid`

The authorised invocation of a bid, with the transfer of its price to the escrow, and the verifier
that the relayer runs before it submits a bid.
-/

namespace Relayer

open Checks Js

/-! ### The invocation -/

structure SubmitBidArgs where
  bidder : JsString
  price : ℤ
  count : ℤ
  idempotencyKey : Bytes32

def encodeSubmitBidArgs (sdk : Sdk) (a : SubmitBidArgs) : Option (List ScVal) := do
  let bidder ← sdk.addressToScVal a.bidder
  let price ← i128ToScVal a.price
  let count ← i128ToScVal a.count
  return [bidder, price, count, .bytes a.idempotencyKey]

def buildSubmitBidRootInvocation (sdk : Sdk) (escrowContract tokenContract : JsString)
    (args : SubmitBidArgs) : Option AuthorizedInvocation := do
  let escrowAmount := args.price * args.count
  let rootFn ← sdk.contractCall escrowContract "submit_bid" (← encodeSubmitBidArgs sdk args)
  let innerTransferFn ← sdk.contractCall tokenContract "transfer"
    [← sdk.addressToScVal args.bidder, ← sdk.addressToScVal escrowContract,
      ← i128ToScVal escrowAmount]
  return contractFnInvocation rootFn [contractFnInvocation innerTransferFn []]

/-! ### The verifier -/

structure VerifyBidAuthorizationInput extends PasskeyAssertion where
  txXdr : JsString
  networkPassphrase : JsString
  walletContract : JsString
  escrowContract : JsString
  tokenContract : JsString
  expectedPriceScaled : ℤ
  expectedCount : ℤ
  maxCostScaled : ℤ
  expectedIdemKey : Bytes32

/-- The check of the key of a bid, as `requireBytes32Equal` with words of its own. -/
def requireIdemKey (arg : ScVal) (expected : Bytes32) : Except Thrown Unit :=
  match arg with
  | .bytes b => do
    rejectIf (b.length ≠ 32) (invalid "submit_bid idempotency_key is not a BytesN<32>")
    rejectIf (b ≠ expected)
      (invalid "submit_bid idempotency_key does not match the server-derived value")
  | _ => throw (invalid "submit_bid idempotency_key is not a BytesN<32>")

def checkBidArgs (sdk : Sdk) (input : VerifyBidAuthorizationInput) (args : List ScVal) :
    Except Thrown Unit :=
  match args with
  | [bidder, price, count, idemKey] => do
    requireString sdk bidder input.walletContract "submit_bid bidder does not match the wallet"
    requireI128Equal price input.expectedPriceScaled "submit_bid price"
    requireI128Equal count input.expectedCount "submit_bid count"
    requireIdemKey idemKey input.expectedIdemKey
  | _ => throw (invalid "unexpected submit_bid argument count")

/-- The only sub-invocation is the transfer of the price from the bidder to the escrow. -/
def checkEscrowTransfer (sdk : Sdk) (input : VerifyBidAuthorizationInput)
    (subs : List AuthorizedInvocation) : Except Thrown Unit := do
  match subs with
  | [sub] => do
    let transfer ← orReject sub.function.contractFn?
      (invalid "malformed escrow-transfer sub-invocation")
    rejectIf (sub.subInvocations.length ≠ 0) (invalid "malformed escrow-transfer sub-invocation")
    requireFunction sdk transfer "transfer" input.tokenContract "sub-invocation is not a transfer"
      "escrow transfer targets an unexpected token"
    match transfer.args with
    | [source, target, amount] => do
      requireString sdk source input.walletContract
        "escrow transfer `from` is not the bidder wallet"
      requireString sdk target input.escrowContract
        "escrow transfer `to` is not the escrow contract"
      requireI128Equal amount (input.expectedPriceScaled * input.expectedCount)
        "escrow transfer amount"
    | _ => throw (invalid "unexpected transfer argument count")
  | _ => throw (invalid "expected exactly one sub-invocation (the escrow transfer)")

def checkBid (sdk : Sdk) (input : VerifyBidAuthorizationInput) (func : HostFunction)
    (rootInvocation : AuthorizedInvocation) : Except Thrown Unit := do
  let opInvocation ← requireInvocation func rootInvocation
  requireFunction sdk opInvocation "submit_bid" input.escrowContract "unexpected contract function"
    "unexpected escrow contract"
  checkBidArgs sdk input opInvocation.args
  checkEscrowTransfer sdk input rootInvocation.subInvocations
  rejectIf (input.maxCostScaled < input.expectedPriceScaled * input.expectedCount)
    (invalid "escrow amount exceeds the maximum allowed")

def verifyBidAuthorization (sdk : Sdk) (input : VerifyBidAuthorizationInput) :
    Except Thrown VerifiedAuthorization :=
  verifySingle sdk "auth entry address does not match the wallet"
    "challenge does not bind to this bid" input.toPasskeyAssertion input.txXdr
    input.networkPassphrase input.walletContract (checkBid sdk input)

/-! ### What the verifier accepts -/

/-- The trusted values, as arguments. -/
def VerifyBidAuthorizationInput.args (input : VerifyBidAuthorizationInput) : SubmitBidArgs where
  bidder := input.walletContract
  price := input.expectedPriceScaled
  count := input.expectedCount
  idempotencyKey := input.expectedIdemKey

/-- The tree of a bid. -/
def bidTree (escrow token bidder : ScAddress) (price count amount : ScVal) (key : Bytes) :
    AuthorizedInvocation :=
  contractFnInvocation
    ⟨escrow, Utf8.ascii "submit_bid", [.address bidder, price, count, .bytes key]⟩
    [contractFnInvocation
      ⟨token, Utf8.ascii "transfer", [.address bidder, .address escrow, amount]⟩ []]

section Bid

variable {sdk : Sdk} {input : VerifyBidAuthorizationInput} {bidder : ScAddress}
  {e t : Soroban.BytesN32}

/-- What is built for a bid. -/
theorem buildSubmitBid_eq_some {root : AuthorizedInvocation}
    (hescrow : sdk.addressText (.contract e) = input.escrowContract)
    (htoken : sdk.addressText (.contract t) = input.tokenContract) :
  buildSubmitBidRootInvocation sdk input.escrowContract input.tokenContract input.args = some root
    ↔ ∃ bidder price count amount, sdk.addressText bidder = input.walletContract
      ∧ i128ToScVal input.expectedPriceScaled = some price
      ∧ i128ToScVal input.expectedCount = some count
      ∧ i128ToScVal (input.expectedPriceScaled * input.expectedCount) = some amount
      ∧ bidTree (.contract e) (.contract t) bidder price count amount input.expectedIdemKey = root
  := by
  have hescrowArg := Sdk.addressToScVal_eq hescrow
  simp only [buildSubmitBidRootInvocation, encodeSubmitBidArgs, Sdk.contractCall_eq hescrow,
    Sdk.contractCall_eq htoken, hescrowArg, VerifyBidAuthorizationInput.args, Option.bind_eq_bind,
    Option.bind_eq_some_iff, Option.pure_def, Option.some_inj]
  constructor
  · rintro ⟨_, ⟨_, hbidder, price, hprice, count, hcount, rfl⟩, _, rfl, _, hbidder', _, rfl, amount,
      hamount, _, rfl, rfl⟩
    obtain ⟨bidder, hs, rfl⟩ := Option.map_eq_some_iff.mp hbidder
    cases hbidder.symm.trans hbidder'
    exact ⟨bidder, price, count, amount, (sdk.fromString_eq_some_iff _ _).mp hs, hprice, hcount,
      hamount, rfl⟩
  · rintro ⟨bidder, price, count, amount, hbidder, hprice, hcount, hamount, rfl⟩
    have hbidderArg := Sdk.addressToScVal_eq hbidder
    exact ⟨_, ⟨_, hbidderArg, price, hprice, count, hcount, rfl⟩, _, rfl, _, hbidderArg, _, rfl,
      amount, hamount, _, rfl, rfl⟩

theorem requireIdemKey_eq_ok {arg : ScVal} {expected : Bytes32} :
  requireIdemKey arg expected = .ok () ↔ arg = .bytes expected
  := by
  cases arg with
  | bytes b =>
    rw [requireIdemKey, check_bind_eq_ok, rejectIf_eq_ok, rejectIf_eq_ok, not_not, not_not,
      ScVal.bytes.injEq]
    constructor
    · exact And.right
    · rintro rfl
      exact ⟨expected.property, rfl⟩
  | _ => exact ⟨nofun, nofun⟩

theorem checkBidArgs_eq_ok {args : List ScVal}
    (hbidder : sdk.addressText bidder = input.walletContract) :
  checkBidArgs sdk input args = .ok ()
    ↔ ∃ price count, i128ToScVal input.expectedPriceScaled = some price
      ∧ i128ToScVal input.expectedCount = some count
      ∧ args.map sdk.asRead = [.address bidder, price, count, .bytes input.expectedIdemKey]
  := by
  constructor
  · intro h
    unfold checkBidArgs at h
    split at h
    · simp only [check_bind_eq_ok, requireString_eq_ok, requireI128Equal_eq_ok,
        requireIdemKey_eq_ok] at h
      obtain ⟨hread, hprice, hcount, rfl⟩ := h
      rw [← hbidder] at hread
      refine ⟨_, _, hprice, hcount, ?_⟩
      simp only [List.map_cons, List.map_nil, asRead_eq_address.mpr hread, asRead_of_i128 hprice,
        asRead_of_i128 hcount, asRead_of_not_isText ScVal.isText_bytes.mp]
    · cases h
  · rintro ⟨price, count, hprice, hcount, hargs⟩
    simp only [List.map_eq_cons_iff, List.map_eq_nil_iff] at hargs
    obtain ⟨_, _, rfl, hread, _, _, rfl, hprice', _, _, rfl, hcount', _, _, rfl, hkey, rfl⟩ := hargs
    obtain rfl := (asRead_eq_i128_iff hprice).mp hprice'
    obtain rfl := (asRead_eq_i128_iff hcount).mp hcount'
    have hbytes : ∀ a, ScVal.bytes input.expectedIdemKey ≠ .address a := by
      intro a heq
      cases heq
    obtain rfl := (asRead_eq_iff ScVal.isText_bytes.mp hbytes).mp hkey
    rw [asRead_eq_address, hbidder] at hread
    simp only [checkBidArgs, check_bind_eq_ok, requireString_eq_ok, requireI128Equal_eq_ok,
      requireIdemKey_eq_ok]
    exact ⟨hread, hprice, hcount, trivial⟩

theorem checkEscrowTransfer_eq_ok {subs : List AuthorizedInvocation}
    (hbidder : sdk.addressText bidder = input.walletContract)
    (hescrow : sdk.addressText (.contract e) = input.escrowContract)
    (htoken : sdk.addressText (.contract t) = input.tokenContract) :
  checkEscrowTransfer sdk input subs = .ok ()
    ↔ ∃ amount, i128ToScVal (input.expectedPriceScaled * input.expectedCount) = some amount
      ∧ sdk.subsAsRead subs = [contractFnInvocation ⟨.contract t, Utf8.ascii "transfer",
          [.address bidder, .address (.contract e), amount]⟩ []]
  := by
  constructor
  · intro h
    unfold checkEscrowTransfer at h
    split at h
    · simp only [bind_eq_ok, orReject_eq_ok, AuthorizedFunction.contractFn?_eq_some, rejectIf_eq_ok,
        not_not, exists_const] at h
      obtain ⟨⟨a, name, args⟩, hfn, hsubs, _, hname, h⟩ := h
      obtain ⟨rfl, ha⟩ := (requireFunction_eq_ok (by decide)).mp hname
      obtain rfl := sdk.addressText_injective (ha.trans htoken.symm)
      split at h
      · rename_i hargs
        obtain rfl : args = _ := hargs
        simp only [check_bind_eq_ok, requireString_eq_ok, requireI128Equal_eq_ok] at h
        obtain ⟨hsource, htarget, hamount⟩ := h
        rw [← hbidder] at hsource
        rw [← hescrow] at htarget
        refine ⟨_, hamount, List.cons_eq_cons.mpr ⟨treeAsRead_eq_iff.mpr ⟨_, hfn, ?_, ?_⟩, rfl⟩⟩
        · simp only [List.map_cons, List.map_nil, asRead_eq_address.mpr hsource,
            asRead_eq_address.mpr htarget, asRead_of_i128 hamount]
        · rw [List.length_eq_zero_iff.mp hsubs, Sdk.subsAsRead]
      · cases h
    · cases h
  · rintro ⟨amount, hamount, hread⟩
    obtain ⟨sub, rfl, hsub⟩ := subsAsRead_eq_singleton.mp hread
    obtain ⟨args, hfn, hargs, hsubs⟩ := treeAsRead_eq_iff.mp hsub
    simp only [List.map_eq_cons_iff, List.map_eq_nil_iff] at hargs
    obtain ⟨_, _, rfl, hsource, _, _, rfl, htarget, _, _, rfl, hamount', rfl⟩ := hargs
    obtain rfl := (asRead_eq_i128_iff hamount).mp hamount'
    rw [asRead_eq_address, hbidder] at hsource
    rw [asRead_eq_address, hescrow] at htarget
    simp only [checkEscrowTransfer, bind_eq_ok, orReject_eq_ok,
      AuthorizedFunction.contractFn?_eq_some, rejectIf_eq_ok, not_not, exists_const]
    refine ⟨_, hfn, by rw [subsAsRead_eq_nil.mp hsubs, List.length_nil], (),
      (requireFunction_eq_ok (by decide)).mpr ⟨rfl, htoken⟩, ?_⟩
    simp only [check_bind_eq_ok, requireString_eq_ok, requireI128Equal_eq_ok]
    exact ⟨hsource, htarget, hamount⟩

/-- The checks of a bid pass on the trees that are read as what is built for it. -/
theorem checkBid_eq_ok {func : HostFunction} {root : AuthorizedInvocation}
    (hescrow : sdk.addressText (.contract e) = input.escrowContract)
    (htoken : sdk.addressText (.contract t) = input.tokenContract)
    (hbidder : sdk.addressText bidder = input.walletContract) :
  checkBid sdk input func root = .ok ()
    ↔ ∃ fn, root.function = .contractFn fn ∧ func = .invokeContract fn
      ∧ input.expectedPriceScaled * input.expectedCount ≤ input.maxCostScaled
      ∧ buildSubmitBidRootInvocation sdk input.escrowContract input.tokenContract input.args
        = some (sdk.treeAsRead root)
  := by
  simp only [checkBid, bind_eq_ok, requireInvocation_eq_ok, rejectIf_eq_ok, not_lt,
    buildSubmitBid_eq_some hescrow htoken]
  constructor
  · rintro ⟨⟨a, name, args⟩, ⟨hroot, hfunc⟩, _, hname, _, hargs, _, htransfer, hmax⟩
    obtain ⟨rfl, ha⟩ := (requireFunction_eq_ok (by decide)).mp hname
    obtain rfl := sdk.addressText_injective (ha.trans hescrow.symm)
    obtain ⟨price, count, hprice, hcount, hread⟩ := (checkBidArgs_eq_ok hbidder).mp hargs
    obtain ⟨amount, hamount, hsubs⟩ :=
      (checkEscrowTransfer_eq_ok hbidder hescrow htoken).mp htransfer
    exact ⟨_, hroot, hfunc, hmax, bidder, price, count, amount, hbidder, hprice, hcount, hamount,
      (treeAsRead_eq_iff.mpr ⟨args, hroot, hread, hsubs⟩).symm⟩
  · rintro ⟨fn, hroot, hfunc, hmax, bidder', price, count, amount, hbidder', hprice, hcount,
      hamount, htree⟩
    obtain rfl := sdk.addressText_injective (hbidder.trans hbidder'.symm)
    obtain ⟨args, hroot', hread, hsubs⟩ := treeAsRead_eq_iff.mp htree.symm
    cases hroot.symm.trans hroot'
    exact ⟨_, ⟨hroot, hfunc⟩, (), (requireFunction_eq_ok (by decide)).mpr ⟨rfl, hescrow⟩, (),
      (checkBidArgs_eq_ok hbidder).mpr ⟨price, count, hprice, hcount, hread⟩, (),
      (checkEscrowTransfer_eq_ok hbidder hescrow htoken).mpr ⟨amount, hamount, hsubs⟩, hmax⟩

theorem bidTree_textFree {escrow token : ScAddress} {price count amount : ScVal} {key : Bytes}
    {x y z : ℤ} (hprice : i128ToScVal x = some price) (hcount : i128ToScVal y = some count)
    (hamount : i128ToScVal z = some amount) :
  (bidTree escrow token bidder price count amount key).TextFree
  := by
  obtain ⟨_, rfl, _⟩ := i128ToScVal_eq_some.mp hprice
  obtain ⟨_, rfl, _⟩ := i128ToScVal_eq_some.mp hcount
  obtain ⟨_, rfl, _⟩ := i128ToScVal_eq_some.mp hamount
  simp [bidTree, contractFnInvocation, AuthorizedInvocation.TextFree, SubsTextFree,
    AuthorizedFunction.TextFree]

end Bid

def AcceptsBid (sdk : Sdk) (input : VerifyBidAuthorizationInput) : Prop :=
  ∃ verified, verifyBidAuthorization sdk input = .ok verified

/-- The transaction places the bid of the trusted values, at a cost within the limit, and the
bidder has signed what is built for it. -/
def CanonicalBid (sdk : Sdk) (input : VerifyBidAuthorizationInput) : Prop :=
  input.expectedPriceScaled * input.expectedCount ≤ input.maxCostScaled
    ∧ ∃ root, buildSubmitBidRootInvocation sdk input.escrowContract input.tokenContract input.args
        = some root
      ∧ Authorizes sdk input.toPasskeyAssertion input.txXdr input.networkPassphrase
        input.walletContract root

/-- The bids of the trusted values are accepted, and those that are accepted are the ones without
texts. -/
theorem bid_exact {sdk : Sdk} {input : VerifyBidAuthorizationInput}
    (hescrow : sdk.IsContract input.escrowContract) (htoken : sdk.IsContract input.tokenContract) :
  (CanonicalBid sdk input → AcceptsBid sdk input)
    ∧ (AcceptsBid sdk input →
      (CanonicalBid sdk input ↔ TextFree sdk input.txXdr input.networkPassphrase))
  := by
  obtain ⟨e, hescrow⟩ := hescrow
  obtain ⟨t, htoken⟩ := htoken
  apply exact_of_accepts_iff
  · intro canonical hbuild
    obtain ⟨_, _, _, _, _, hprice, hcount, hamount, rfl⟩ :=
      (buildSubmitBid_eq_some hescrow htoken).mp hbuild
    exact bidTree_textFree hprice hcount hamount
  · apply verifySingle_accepts_iff
    intro w func root hw
    exact checkBid_eq_ok hescrow htoken hw

end Relayer
