import Tove.Relayer.Exact

/-!
# The verifier of `cancel_bid`

The authorised invocation that withdraws a bid, which has no sub-invocations because the escrow
itself authorises the refund, and its verifier.
-/

namespace Relayer

open Checks Js

/-! ### The invocation -/

structure CancelBidArgs where
  caller : JsString
  bidId : ℕ

def encodeCancelBidArgs (sdk : Sdk) (a : CancelBidArgs) : Option (List ScVal) := do
  let caller ← sdk.addressToScVal a.caller
  let bidId ← u32ToScVal a.bidId
  return [caller, bidId]

def buildCancelBidRootInvocation (sdk : Sdk) (escrowContract : JsString) (args : CancelBidArgs) :
    Option AuthorizedInvocation := do
  let rootFn ← sdk.contractCall escrowContract "cancel_bid" (← encodeCancelBidArgs sdk args)
  return contractFnInvocation rootFn []

/-! ### The verifier -/

structure VerifyCancelBidAuthorizationInput extends PasskeyAssertion where
  txXdr : JsString
  networkPassphrase : JsString
  expectedCaller : JsString
  escrowContract : JsString
  expectedBidId : ℕ

def checkCancelArgs (sdk : Sdk) (input : VerifyCancelBidAuthorizationInput) (args : List ScVal) :
    Except Thrown Unit :=
  match args with
  | [caller, bidId] => do
    requireString sdk caller input.expectedCaller
      "cancel_bid caller does not match the recorded bidder"
    requireU32Equal bidId input.expectedBidId "cancel_bid bid_id"
  | _ => throw (invalid "unexpected cancel_bid argument count")

def checkCancel (sdk : Sdk) (input : VerifyCancelBidAuthorizationInput) (func : HostFunction)
    (rootInvocation : AuthorizedInvocation) : Except Thrown Unit := do
  let opInvocation ← requireInvocation func rootInvocation
  requireFunction sdk opInvocation "cancel_bid" input.escrowContract "unexpected contract function"
    "unexpected escrow contract"
  checkCancelArgs sdk input opInvocation.args
  rejectIf (rootInvocation.subInvocations.length ≠ 0)
    (invalid "cancel_bid must have no sub-invocations")

def verifyCancelBidAuthorization (sdk : Sdk) (input : VerifyCancelBidAuthorizationInput) :
    Except Thrown VerifiedAuthorization :=
  verifySingle sdk "auth entry address does not match the caller"
    "challenge does not bind to this cancel" input.toPasskeyAssertion input.txXdr
    input.networkPassphrase input.expectedCaller (checkCancel sdk input)

/-! ### What the verifier accepts -/

/-- The trusted values, as arguments. -/
def VerifyCancelBidAuthorizationInput.args (input : VerifyCancelBidAuthorizationInput) :
    CancelBidArgs where
  caller := input.expectedCaller
  bidId := input.expectedBidId

section Cancel

variable {sdk : Sdk} {input : VerifyCancelBidAuthorizationInput} {caller : ScAddress}
  {e : Soroban.BytesN32}

/-- What is built to withdraw a bid. -/
theorem buildCancelBid_eq_some {root : AuthorizedInvocation}
    (hescrow : sdk.addressText (.contract e) = input.escrowContract) :
  buildCancelBidRootInvocation sdk input.escrowContract input.args = some root
    ↔ ∃ caller bidId, sdk.addressText caller = input.expectedCaller
      ∧ u32ToScVal input.expectedBidId = some bidId
      ∧ contractFnInvocation ⟨.contract e, Utf8.ascii "cancel_bid", [.address caller, bidId]⟩ []
        = root
  := by
  simp only [buildCancelBidRootInvocation, encodeCancelBidArgs, Sdk.contractCall_eq hescrow,
    VerifyCancelBidAuthorizationInput.args, Option.bind_eq_bind, Option.bind_eq_some_iff,
    Option.pure_def, Option.some_inj]
  constructor
  · rintro ⟨_, ⟨_, hcaller, bidId, hbidId, rfl⟩, _, rfl, rfl⟩
    obtain ⟨caller, hs, rfl⟩ := Option.map_eq_some_iff.mp hcaller
    exact ⟨caller, bidId, (sdk.fromString_eq_some_iff _ _).mp hs, hbidId, rfl⟩
  · rintro ⟨caller, bidId, hcaller, hbidId, rfl⟩
    exact ⟨_, ⟨_, Sdk.addressToScVal_eq hcaller, bidId, hbidId, rfl⟩, _, rfl, rfl⟩

theorem checkCancelArgs_eq_ok {args : List ScVal}
    (hcaller : sdk.addressText caller = input.expectedCaller) :
  checkCancelArgs sdk input args = .ok ()
    ↔ ∃ bidId, u32ToScVal input.expectedBidId = some bidId
      ∧ args.map sdk.asRead = [.address caller, bidId]
  := by
  constructor
  · intro h
    unfold checkCancelArgs at h
    split at h
    · simp only [check_bind_eq_ok, requireString_eq_ok, requireU32Equal_eq_ok] at h
      obtain ⟨hread, hbidId⟩ := h
      rw [← hcaller] at hread
      refine ⟨_, hbidId, ?_⟩
      simp only [List.map_cons, List.map_nil, asRead_eq_address.mpr hread,
        (asRead_eq_u32_iff hbidId).mpr rfl]
    · cases h
  · rintro ⟨bidId, hbidId, hargs⟩
    simp only [List.map_eq_cons_iff, List.map_eq_nil_iff] at hargs
    obtain ⟨_, _, rfl, hread, _, _, rfl, hbidId', rfl⟩ := hargs
    obtain rfl := (asRead_eq_u32_iff hbidId).mp hbidId'
    rw [asRead_eq_address, hcaller] at hread
    simp only [checkCancelArgs, check_bind_eq_ok, requireString_eq_ok, requireU32Equal_eq_ok]
    exact ⟨hread, hbidId⟩

/-- The checks of a withdrawal pass on the trees that are read as what is built for it. -/
theorem checkCancel_eq_ok {func : HostFunction} {root : AuthorizedInvocation}
    (hescrow : sdk.addressText (.contract e) = input.escrowContract)
    (hcaller : sdk.addressText caller = input.expectedCaller) :
  checkCancel sdk input func root = .ok ()
    ↔ ∃ fn, root.function = .contractFn fn ∧ func = .invokeContract fn
      ∧ buildCancelBidRootInvocation sdk input.escrowContract input.args
        = some (sdk.treeAsRead root)
  := by
  simp only [checkCancel, bind_eq_ok, requireInvocation_eq_ok, rejectIf_eq_ok, not_not,
    buildCancelBid_eq_some hescrow]
  constructor
  · rintro ⟨⟨a, name, args⟩, ⟨hroot, hfunc⟩, _, hname, _, hargs, hsubs⟩
    obtain ⟨rfl, ha⟩ := (requireFunction_eq_ok (by decide)).mp hname
    obtain rfl := sdk.addressText_injective (ha.trans hescrow.symm)
    obtain ⟨bidId, hbidId, hread⟩ := (checkCancelArgs_eq_ok hcaller).mp hargs
    have hnone : sdk.subsAsRead root.subInvocations = [] :=
      subsAsRead_eq_nil.mpr (List.length_eq_zero_iff.mp hsubs)
    exact ⟨_, hroot, hfunc, caller, bidId, hcaller, hbidId,
      (treeAsRead_eq_iff.mpr ⟨args, hroot, hread, hnone⟩).symm⟩
  · rintro ⟨fn, hroot, hfunc, caller', bidId, hcaller', hbidId, htree⟩
    obtain rfl := sdk.addressText_injective (hcaller.trans hcaller'.symm)
    obtain ⟨args, hroot', hread, hsubs⟩ := treeAsRead_eq_iff.mp htree.symm
    cases hroot.symm.trans hroot'
    exact ⟨_, ⟨hroot, hfunc⟩, (), (requireFunction_eq_ok (by decide)).mpr ⟨rfl, hescrow⟩, (),
      (checkCancelArgs_eq_ok hcaller).mpr ⟨bidId, hbidId, hread⟩,
      by rw [subsAsRead_eq_nil.mp hsubs, List.length_nil]⟩

end Cancel

def AcceptsCancel (sdk : Sdk) (input : VerifyCancelBidAuthorizationInput) : Prop :=
  ∃ verified, verifyCancelBidAuthorization sdk input = .ok verified

/-- The transaction withdraws the bid of the trusted values, and the caller has signed what is
built for it. -/
def CanonicalCancel (sdk : Sdk) (input : VerifyCancelBidAuthorizationInput) : Prop :=
  ∃ root, buildCancelBidRootInvocation sdk input.escrowContract input.args = some root
    ∧ Authorizes sdk input.toPasskeyAssertion input.txXdr input.networkPassphrase
      input.expectedCaller root

/-- The withdrawals of the trusted values are accepted, and those that are accepted are the ones
without texts. -/
theorem cancel_exact {sdk : Sdk} {input : VerifyCancelBidAuthorizationInput}
    (hescrow : sdk.IsContract input.escrowContract) :
  (CanonicalCancel sdk input → AcceptsCancel sdk input)
    ∧ (AcceptsCancel sdk input →
      (CanonicalCancel sdk input ↔ TextFree sdk input.txXdr input.networkPassphrase))
  := by
  obtain ⟨e, hescrow⟩ := hescrow
  have hfree : ∀ canonical, buildCancelBidRootInvocation sdk input.escrowContract input.args
      = some canonical → canonical.TextFree := by
    intro canonical hbuild
    obtain ⟨_, _, _, hbidId, rfl⟩ := (buildCancelBid_eq_some hescrow).mp hbuild
    obtain ⟨_, rfl, _⟩ := u32ToScVal_eq_some.mp hbidId
    simp [contractFnInvocation, AuthorizedInvocation.TextFree, SubsTextFree,
      AuthorizedFunction.TextFree]
  have haccepts : AcceptsCancel sdk input ↔ ∃ root, (True
      ∧ buildCancelBidRootInvocation sdk input.escrowContract input.args
        = some (sdk.treeAsRead root))
      ∧ Authorizes sdk input.toPasskeyAssertion input.txXdr input.networkPassphrase
        input.expectedCaller root := by
    simp only [true_and]
    apply verifySingle_accepts_iff
    intro w func root hw
    exact checkCancel_eq_ok hescrow hw
  have hexact := exact_of_accepts_iff hfree haccepts
  simp only [true_and] at hexact
  exact hexact

end Relayer
