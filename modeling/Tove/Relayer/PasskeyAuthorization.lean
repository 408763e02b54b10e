import Tove.Relayer.Exact

/-!
# The verifier of `transfer`

The authorised invocation of a transfer from a wallet, and the verifier that the relayer runs before
it submits one.  For an export or a rotation, the recipient and the amount are trusted values.
-/

namespace Relayer

open Checks Js

/-! ### The invocation -/

/-- The invocation of the operation that a transfer is built from. -/
def buildTransferRootInvocation (sdk : Sdk) (tokenContract walletContract target : JsString)
    (amount : ℤ) : Option AuthorizedInvocation := do
  let rootFn ← sdk.contractCall tokenContract "transfer" [← sdk.addressToScVal walletContract,
    ← sdk.addressToScVal target, ← i128ToScVal amount]
  return contractFnInvocation rootFn []

/-! ### The verifier -/

structure VerifyPasskeyAuthorizationInput extends PasskeyAssertion where
  txXdr : JsString
  networkPassphrase : JsString
  walletContract : JsString
  tokenContract : JsString
  maxTransferAmount : ℤ
  expectedTo : Option JsString
  expectedAmountScaled : Option ℤ

/-- The recipient is read as a string, and as the expected one if there is one. -/
def requireRecipient (sdk : Sdk) (arg : ScVal) (expectedTo : Option JsString) :
    Except Thrown Unit :=
  match sdk.scValToNative arg with
  | .string toArg =>
    rejectIf (expectedTo.any (· ≠ toArg) = true)
      (invalid "transfer recipient does not match the export target")
  | .other => throw (invalid "transfer recipient is not an address")

def checkTransferArgs (sdk : Sdk) (input : VerifyPasskeyAuthorizationInput) (args : List ScVal) :
    Except Thrown Unit :=
  match args with
  | [source, target, amount] => do
    requireString sdk source input.walletContract "transfer `from` does not match the wallet"
    requireRecipient sdk target input.expectedTo
    let amount ← requireI128 amount "transfer amount is not an i128"
    rejectIf (input.maxTransferAmount < amount) (invalid "amount exceeds the maximum allowed")
    rejectIf (input.expectedAmountScaled.any (· ≠ amount) = true)
      (invalid "transfer amount does not match the export item")
  | _ => throw (invalid "unexpected transfer argument count")

def checkTransfer (sdk : Sdk) (input : VerifyPasskeyAuthorizationInput) (func : HostFunction)
    (rootInvocation : AuthorizedInvocation) : Except Thrown Unit := do
  rejectIf (rootInvocation.subInvocations.length ≠ 0) (invalid "unexpected sub-invocations")
  let opInvocation ← requireInvocation func rootInvocation
  requireFunction sdk opInvocation "transfer" input.tokenContract "unexpected contract function"
    "unexpected token contract"
  checkTransferArgs sdk input opInvocation.args

def verifyPasskeyAuthorization (sdk : Sdk) (input : VerifyPasskeyAuthorizationInput) :
    Except Thrown VerifiedAuthorization :=
  verifySingle sdk "auth entry address does not match the wallet"
    "challenge does not bind to this transfer" input.toPasskeyAssertion input.txXdr
    input.networkPassphrase input.walletContract (checkTransfer sdk input)

/-! ### What the verifier accepts -/

section Transfer

variable {sdk : Sdk} {input : VerifyPasskeyAuthorizationInput} {source target : ScAddress}
  {t : Soroban.BytesN32} {expectedTo : JsString} {amount : ℤ}

/-- What is built for a transfer. -/
theorem buildTransfer_eq_some {root : AuthorizedInvocation}
    (htoken : sdk.addressText (.contract t) = input.tokenContract) :
  buildTransferRootInvocation sdk input.tokenContract input.walletContract expectedTo amount
      = some root
    ↔ ∃ source target amountArg, sdk.addressText source = input.walletContract
      ∧ sdk.addressText target = expectedTo ∧ i128ToScVal amount = some amountArg
      ∧ contractFnInvocation ⟨.contract t, Utf8.ascii "transfer",
          [.address source, .address target, amountArg]⟩ [] = root
  := by
  simp only [buildTransferRootInvocation, Sdk.contractCall_eq htoken, Option.bind_eq_bind,
    Option.bind_eq_some_iff, Option.pure_def, Option.some_inj]
  constructor
  · rintro ⟨_, hsource, _, htarget, amountArg, hamount, _, rfl, rfl⟩
    obtain ⟨source, hs, rfl⟩ := Option.map_eq_some_iff.mp hsource
    obtain ⟨target, ht, rfl⟩ := Option.map_eq_some_iff.mp htarget
    rw [sdk.fromString_eq_some_iff] at hs ht
    exact ⟨source, target, amountArg, hs, ht, hamount, rfl⟩
  · rintro ⟨source, target, amountArg, hsource, htarget, hamount, rfl⟩
    exact ⟨_, Sdk.addressToScVal_eq hsource, _, Sdk.addressToScVal_eq htarget, amountArg,
      hamount, _,
      rfl, rfl⟩

theorem requireRecipient_eq_ok {arg : ScVal} :
  requireRecipient sdk arg (some expectedTo) = .ok ()
    ↔ sdk.scValToNative arg = .string expectedTo
  := by
  unfold requireRecipient
  split
  · rename_i s hs
    rw [hs, rejectIf_eq_ok, Native.string.injEq]
    simp only [Option.any_some, ne_eq, decide_eq_true_eq, not_not]
    exact eq_comm
  · rename_i hs
    rw [hs]
    exact ⟨nofun, nofun⟩

/-- The arguments of the transfer of the expected amount to the expected recipient. -/
theorem checkTransferArgs_eq_ok {args : List ScVal} (hto : input.expectedTo = some expectedTo)
    (hamount : input.expectedAmountScaled = some amount) :
  checkTransferArgs sdk input args = .ok ()
    ↔ ∃ sourceArg targetArg amountArg, args = [sourceArg, targetArg, amountArg]
      ∧ sdk.scValToNative sourceArg = .string input.walletContract
      ∧ sdk.scValToNative targetArg = .string expectedTo
      ∧ i128ToScVal amount = some amountArg ∧ amount ≤ input.maxTransferAmount
  := by
  constructor
  · intro h
    unfold checkTransferArgs at h
    split at h
    · simp only [bind_eq_ok, requireString_eq_ok, hto, hamount, requireI128_eq_ok, rejectIf_eq_ok,
        not_lt, exists_const, Option.any_some, decide_eq_true_eq, not_not] at h
      obtain ⟨hsource, _, htarget, _, hvalue, hmax, rfl⟩ := h
      exact ⟨_, _, _, rfl, hsource, requireRecipient_eq_ok.mp htarget, hvalue, hmax⟩
    · cases h
  · rintro ⟨sourceArg, targetArg, amountArg, rfl, hsource, htarget, hvalue, hmax⟩
    simp only [checkTransferArgs, bind_eq_ok, requireString_eq_ok, hto, hamount, requireI128_eq_ok,
      rejectIf_eq_ok, not_lt, exists_const, Option.any_some, decide_eq_true_eq, not_not]
    exact ⟨hsource, (), requireRecipient_eq_ok.mpr htarget, amount, hvalue, hmax, rfl⟩

/-- The checks of a transfer to an address pass on the trees that are read as what is built. -/
theorem checkTransfer_eq_ok {func : HostFunction} {root : AuthorizedInvocation}
    (hto : input.expectedTo = some expectedTo) (hamount : input.expectedAmountScaled = some amount)
    (htoken : sdk.addressText (.contract t) = input.tokenContract)
    (htarget : sdk.addressText target = expectedTo)
    (hsource : sdk.addressText source = input.walletContract) :
  checkTransfer sdk input func root = .ok ()
    ↔ ∃ fn, root.function = .contractFn fn ∧ func = .invokeContract fn
      ∧ amount ≤ input.maxTransferAmount
      ∧ buildTransferRootInvocation sdk input.tokenContract input.walletContract expectedTo amount
        = some (sdk.treeAsRead root)
  := by
  simp only [checkTransfer, bind_eq_ok, requireInvocation_eq_ok, rejectIf_eq_ok, not_not,
    buildTransfer_eq_some htoken, exists_const]
  constructor
  · rintro ⟨hsubs, ⟨a, name, args⟩, ⟨hroot, hfunc⟩, _, hname, hargs⟩
    obtain ⟨rfl, ha⟩ := (requireFunction_eq_ok (by decide)).mp hname
    obtain rfl := sdk.addressText_injective (ha.trans htoken.symm)
    obtain ⟨sourceArg, targetArg, amountArg, hlist, hread, hread', hvalue, hmax⟩ :=
      (checkTransferArgs_eq_ok hto hamount).mp hargs
    obtain rfl : args = _ := hlist
    rw [← hsource, ← asRead_eq_address] at hread
    rw [← htarget, ← asRead_eq_address] at hread'
    have hnone : sdk.subsAsRead root.subInvocations = [] :=
      subsAsRead_eq_nil.mpr (List.length_eq_zero_iff.mp hsubs)
    exact ⟨_, hroot, hfunc, hmax, source, target, amountArg, hsource, htarget, hvalue,
      (treeAsRead_eq_iff.mpr ⟨_, hroot, by simp [hread, hread', asRead_of_i128 hvalue], hnone⟩).symm⟩
  · rintro ⟨fn, hroot, hfunc, hmax, source', target', amountArg, hsource', htarget', hvalue, htree⟩
    obtain ⟨args, hroot', hread, hsubs⟩ := treeAsRead_eq_iff.mp htree.symm
    cases hroot.symm.trans hroot'
    simp only [List.map_eq_cons_iff, List.map_eq_nil_iff] at hread
    obtain ⟨_, _, rfl, hread, _, _, rfl, hread', _, _, rfl, hvalue', rfl⟩ := hread
    obtain rfl := (asRead_eq_i128_iff hvalue).mp hvalue'
    rw [asRead_eq_address, hsource'] at hread
    rw [asRead_eq_address, htarget'] at hread'
    exact ⟨by rw [subsAsRead_eq_nil.mp hsubs, List.length_nil], _, ⟨hroot, hfunc⟩, (),
      (requireFunction_eq_ok (by decide)).mpr ⟨rfl, htoken⟩,
      (checkTransferArgs_eq_ok hto hamount).mpr
        ⟨_, _, _, rfl, hread, hread', hvalue, hmax⟩⟩

end Transfer

def AcceptsTransfer (sdk : Sdk) (input : VerifyPasskeyAuthorizationInput) : Prop :=
  ∃ verified, verifyPasskeyAuthorization sdk input = .ok verified

/-- The transaction transfers the amount to the recipient, within the limit, and the wallet has
signed what is built for it. -/
def CanonicalTransfer (sdk : Sdk) (input : VerifyPasskeyAuthorizationInput) (expectedTo : JsString)
    (amount : ℤ) : Prop :=
  amount ≤ input.maxTransferAmount
    ∧ ∃ root, buildTransferRootInvocation sdk input.tokenContract input.walletContract expectedTo
        amount = some root
      ∧ Authorizes sdk input.toPasskeyAssertion input.txXdr input.networkPassphrase
        input.walletContract root

/-- A recipient without an address is met by texts only. -/
theorem not_textFree_of_accepts {sdk : Sdk} {input : VerifyPasskeyAuthorizationInput}
    {expectedTo : JsString} {amount : ℤ} (hto : input.expectedTo = some expectedTo)
    (hamount : input.expectedAmountScaled = some amount)
    (hnone : ∀ a, sdk.addressText a ≠ expectedTo) (h : AcceptsTransfer sdk input) :
  ¬ TextFree sdk input.txXdr input.networkPassphrase
  := by
  intro hfree
  obtain ⟨func, creds, root, _, hcheck, htx, _⟩ := verifySingle_succeeds_iff.mp h
  simp only [checkTransfer, bind_eq_ok, requireInvocation_eq_ok] at hcheck
  obtain ⟨_, _, fn, ⟨hfn, _⟩, _, _, hargs⟩ := hcheck
  obtain ⟨_, targetArg, _, hlist, _, hread, _⟩ := (checkTransferArgs_eq_ok hto hamount).mp hargs
  obtain ⟨f, subs⟩ := root
  have htext : ¬ targetArg.IsText :=
    (hfree _ _ htx _ (List.mem_singleton.mpr rfl)).1 fn hfn targetArg (by rw [hlist]; simp)
  cases targetArg with
  | address a => exact hnone a (Native.string.inj hread)
  | string b | symbol b => exact htext trivial
  | _ => cases hread

/-- The transfers of the trusted values are accepted, and those that are accepted are the ones
without texts. -/
theorem transfer_exact {sdk : Sdk} {input : VerifyPasskeyAuthorizationInput} {expectedTo : JsString}
    {amount : ℤ} (hto : input.expectedTo = some expectedTo)
    (hamount : input.expectedAmountScaled = some amount)
    (htoken : sdk.IsContract input.tokenContract) :
  (CanonicalTransfer sdk input expectedTo amount → AcceptsTransfer sdk input)
    ∧ (AcceptsTransfer sdk input → (CanonicalTransfer sdk input expectedTo amount
      ↔ TextFree sdk input.txXdr input.networkPassphrase))
  := by
  obtain ⟨t, htoken⟩ := htoken
  by_cases htarget : ∃ target, sdk.addressText target = expectedTo
  · obtain ⟨target, htarget⟩ := htarget
    apply exact_of_accepts_iff
    · intro canonical hbuild
      obtain ⟨_, _, _, _, _, hvalue, rfl⟩ := (buildTransfer_eq_some htoken).mp hbuild
      obtain ⟨_, rfl, _⟩ := i128ToScVal_eq_some.mp hvalue
      simp [contractFnInvocation, AuthorizedInvocation.TextFree, SubsTextFree,
        AuthorizedFunction.TextFree]
    · apply verifySingle_accepts_iff
      intro w func root hw
      exact checkTransfer_eq_ok hto hamount htoken htarget hw
  · have hnotCanonical : ¬ CanonicalTransfer sdk input expectedTo amount := by
      rintro ⟨_, root, hbuild, _⟩
      obtain ⟨_, target, _, _, h, _⟩ := (buildTransfer_eq_some htoken).mp hbuild
      exact htarget ⟨target, h⟩
    refine ⟨fun h => absurd h hnotCanonical, fun h => ⟨fun hc => absurd hc hnotCanonical, ?_⟩⟩
    intro hfree
    exact absurd hfree (not_textFree_of_accepts hto hamount (not_exists.mp htarget) h)

end Relayer
