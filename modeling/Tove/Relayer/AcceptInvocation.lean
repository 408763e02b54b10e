import Tove.Relayer.Xdr

/-!
# The invocation of `accept_quote`

The arguments of the settler's `accept_quote`, and the authorised invocations of the buyer and of
the seller: both sign five of the seven arguments, and the buyer also signs the transfers of USDC
that settle the trade.
-/

namespace Relayer

open Js

def PLATFORM_FEE_BPS : ℤ := 150

def ROYALTY_BPS : ℤ := 150

def BPS_DENOM : ℤ := 10000

structure UsdcSplit where
  platformCut : ℤ
  artistCut : ℤ
  sellerNet : ℤ

def computeUsdcSplit (gross : ℤ) : UsdcSplit :=
  let platformCut := (gross * PLATFORM_FEE_BPS).tdiv BPS_DENOM
  let artistCut := (gross * ROYALTY_BPS).tdiv BPS_DENOM
  ⟨platformCut, artistCut, gross - platformCut - artistCut⟩

structure AcceptQuoteArgs where
  rfqId : Bytes32
  quoteId : Bytes32
  artworkId : Bytes32
  buyer : JsString
  seller : JsString
  count : ℤ
  gross : ℤ

/-- The 7 arguments of the call. -/
def encodeAcceptQuoteArgs (sdk : Sdk) (a : AcceptQuoteArgs) : Option (List ScVal) := do
  let buyer ← sdk.addressToScVal a.buyer
  let seller ← sdk.addressToScVal a.seller
  let count ← i128ToScVal a.count
  let gross ← i128ToScVal a.gross
  return [.bytes a.rfqId, .bytes a.quoteId, .bytes a.artworkId, buyer, seller, count, gross]

/-- The 5 arguments that are authorised. -/
def encodeAuthTupleArgs (a : AcceptQuoteArgs) : Option (List ScVal) := do
  let count ← i128ToScVal a.count
  let gross ← i128ToScVal a.gross
  return [.bytes a.rfqId, .bytes a.quoteId, .bytes a.artworkId, count, gross]

/-- The operation, without authorisations. -/
def buildAcceptQuoteOperation (sdk : Sdk) (settlerContract : JsString) (args : AcceptQuoteArgs) :
    Option Operation := do
  let fn ← sdk.contractCall settlerContract "accept_quote" (← encodeAcceptQuoteArgs sdk args)
  return .invokeHostFunction (.invokeContract fn) []

def acceptQuoteRootFn (sdk : Sdk) (settlerContract : JsString) (args : AcceptQuoteArgs) :
    Option InvokeContractArgs := do
  sdk.contractCall settlerContract "accept_quote" (← encodeAuthTupleArgs args)

def contractFnInvocation (fn : InvokeContractArgs) (subs : List AuthorizedInvocation) :
    AuthorizedInvocation :=
  .mk (.contractFn fn) subs

def usdcTransferSub (sdk : Sdk) (usdc source target : JsString) (amount : ℤ) :
    Option AuthorizedInvocation := do
  let fn ← sdk.contractCall usdc "transfer" [← sdk.addressToScVal source,
    ← sdk.addressToScVal target, ← i128ToScVal amount]
  return contractFnInvocation fn []

def buildSellerRootInvocation (sdk : Sdk) (settlerContract : JsString) (args : AcceptQuoteArgs) :
    Option AuthorizedInvocation := do
  return contractFnInvocation (← acceptQuoteRootFn sdk settlerContract args) []

/-- Who receives the parts of the price, in the order of the transfers. -/
def usdcLegs (treasury artistPayout : JsString) (args : AcceptQuoteArgs) : List (JsString × ℤ) :=
  let split := computeUsdcSplit args.gross
  [(treasury, split.platformCut), (artistPayout, split.artistCut), (args.seller, split.sellerNet)]

/-- The transfers of nothing are left out. -/
def buildBuyerRootInvocation (sdk : Sdk)
    (settlerContract usdcContract treasury artistPayout : JsString) (args : AcceptQuoteArgs) :
    Option AuthorizedInvocation := do
  let subs ← ((usdcLegs treasury artistPayout args).filter fun leg => 0 < leg.2).mapM fun leg =>
    usdcTransferSub sdk usdcContract args.buyer leg.1 leg.2
  return contractFnInvocation (← acceptQuoteRootFn sdk settlerContract args) subs

/-- An operation with authorisations. -/
def Operation.withAuth (auth : List AuthorizationEntry) : Operation → Operation
  | .invokeHostFunction func _ => .invokeHostFunction func auth
  | .other => .other

/-! ### The split -/

section Split

variable {gross : ℤ}

theorem computeUsdcSplit_of_nonneg (h : 0 ≤ gross) :
  computeUsdcSplit gross
    = ⟨gross * 150 / 10000, gross * 150 / 10000, gross - gross * 150 / 10000 - gross * 150 / 10000⟩
  := by
  rw [computeUsdcSplit, PLATFORM_FEE_BPS, ROYALTY_BPS, BPS_DENOM,
    Int.tdiv_eq_ediv_of_nonneg (by omega)]

/-- The seller receives more than the fee and the royalty together. -/
theorem lt_sellerNet (h : 0 < gross) :
  (computeUsdcSplit gross).platformCut + (computeUsdcSplit gross).artistCut
    < (computeUsdcSplit gross).sellerNet
  := by
  rw [computeUsdcSplit_of_nonneg h.le]
  dsimp only
  omega

/-- The parts of the price sum up to it. -/
theorem split_sum :
  (computeUsdcSplit gross).platformCut + (computeUsdcSplit gross).artistCut
    + (computeUsdcSplit gross).sellerNet = gross
  := by
  dsimp only [computeUsdcSplit]
  omega

/-- There is a fee, and a royalty, when the price is at least 67 units. -/
theorem cut_pos_iff (h : 0 ≤ gross) :
  (0 < (computeUsdcSplit gross).platformCut ↔ 66 < gross)
    ∧ (0 < (computeUsdcSplit gross).artistCut ↔ 66 < gross)
  := by
  rw [computeUsdcSplit_of_nonneg h]
  dsimp only
  omega

end Split

end Relayer
