import Tove.Relayer.AcceptInvocation
import Tove.Relayer.Reading

/-!
# Single authorisations

A transaction with one authorisation, which is for the invocation that its operation makes.  The
verifiers of such transactions compare wallets as strings: what they compare is the invocation with
addresses in place of the texts that are read as addresses.
-/

namespace Relayer

open Checks Js

/-! ### The common checks -/

/-- The transaction has one authorisation, with the credentials of the wallet. -/
def requireWalletEntry (sdk : Sdk) (txXdr networkPassphrase wallet : JsString)
    (mismatch : String) :
    Except Thrown (Transaction × HostFunction × AuthorizationEntry × AddressCredentials) := do
  let (tx, func, authEntries) ← requireOperation sdk txXdr networkPassphrase
  match authEntries with
  | [authEntry] => do
    let addressCreds ← orReject authEntry.credentials.address?
      (invalid "auth entry is not address credentials")
    rejectIf (sdk.addressText addressCreds.address ≠ wallet) (invalid mismatch)
    return (tx, func, authEntry, addressCreds)
  | _ => throw (invalid "expected exactly one auth entry")

/-- The operation makes the invocation that is authorised. -/
def requireInvocation (func : HostFunction) (rootInvocation : AuthorizedInvocation) :
    Except Thrown InvokeContractArgs := do
  let rootFn ← orReject rootInvocation.function.contractFn?
    (invalid "auth entry is not a contract invocation")
  let opInvocation ← orReject func.invokeContract?
    (invalid "host function is not a contract invocation")
  rejectIf (invocationsEqual opInvocation rootFn = false)
    (invalid "operation does not match the authorized invocation")
  return opInvocation

/-- What the verifiers of a single authorisation return. -/
structure VerifiedAuthorization where
  tx : Transaction
  authEntry : AuthorizationEntry
  signatureCompact : Bytes
  signatureExpirationLedger : UInt32

/-- The frame of these verifiers: each has its own words for a wallet that does not match and for a
challenge that does not bind, and its own checks of the invocation. -/
def verifySingle (sdk : Sdk) (mismatch unbound : String) (a : PasskeyAssertion)
    (txXdr networkPassphrase wallet : JsString)
    (check : HostFunction → AuthorizedInvocation → Except Thrown Unit) :
    Except Thrown VerifiedAuthorization := do
  requireAssertion a
  let (tx, func, authEntry, addressCreds) ←
    requireWalletEntry sdk txXdr networkPassphrase wallet mismatch
  check func authEntry.rootInvocation
  let signatureCompact ← checkAssertion sdk unbound a networkPassphrase addressCreds
    authEntry.rootInvocation
  return {
    tx
    authEntry
    signatureCompact
    signatureExpirationLedger := addressCreds.signatureExpirationLedger }

section Common

variable {sdk : Sdk} {txXdr networkPassphrase wallet : JsString} {mismatch : String}

theorem requireWalletEntry_eq_ok {tx : Transaction} {func : HostFunction}
    {entry : AuthorizationEntry} {creds : AddressCredentials} :
  requireWalletEntry sdk txXdr networkPassphrase wallet mismatch = .ok (tx, func, entry, creds)
    ↔ sdk.fromXDR txXdr networkPassphrase = some (.transaction tx)
      ∧ tx = ⟨[.invokeHostFunction func [entry]]⟩ ∧ entry.credentials = .address creds
      ∧ sdk.addressText creds.address = wallet
  := by
  simp only [requireWalletEntry, bind_eq_ok, Prod.exists, requireOperation_eq_ok]
  constructor
  · rintro ⟨tx', func', auth, ⟨htx, rfl⟩, h⟩
    split at h
    · simp only [bind_eq_ok, orReject_eq_ok, Credentials.address?_eq_some, rejectIf_eq_ok, not_not,
        pure_eq_ok, exists_const] at h
      obtain ⟨_, hcreds, hwallet, heq⟩ := h
      cases heq
      exact ⟨htx, rfl, hcreds, hwallet⟩
    · cases h
  · rintro ⟨htx, rfl, hcreds, hwallet⟩
    refine ⟨_, _, _, ⟨htx, rfl⟩, ?_⟩
    simp only [bind_eq_ok, orReject_eq_ok, Credentials.address?_eq_some, rejectIf_eq_ok, not_not,
      pure_eq_ok, exists_const]
    exact ⟨creds, hcreds, hwallet, rfl⟩

theorem requireInvocation_eq_ok {func : HostFunction} {root : AuthorizedInvocation}
    {fn : InvokeContractArgs} :
  requireInvocation func root = .ok fn ↔ root.function = .contractFn fn ∧ func = .invokeContract fn
  := by
  simp only [requireInvocation, bind_eq_ok, orReject_eq_ok, AuthorizedFunction.contractFn?_eq_some,
    HostFunction.invokeContract?_eq_some, rejectIf_eq_ok, Bool.not_eq_false, invocationsEqual_iff,
    exists_const, pure_eq_ok]
  constructor
  · rintro ⟨_, hroot, _, hfunc, rfl, rfl⟩
    exact ⟨hroot, hfunc⟩
  · rintro ⟨hroot, hfunc⟩
    exact ⟨fn, hroot, fn, hfunc, rfl, rfl⟩

end Common

/-! ### Authorisations -/

/-- The transaction makes one invocation, with one authorisation of the wallet, for the tree with
this root, that the assertion signs. -/
def Authorizes (sdk : Sdk) (a : PasskeyAssertion) (txXdr networkPassphrase wallet : JsString)
    (root : AuthorizedInvocation) : Prop :=
  ∃ fn creds, root.function = .contractFn fn ∧ sdk.addressText creds.address = wallet
    ∧ sdk.fromXDR txXdr networkPassphrase
      = some (.transaction ⟨[.invokeHostFunction (.invokeContract fn) [⟨.address creds, root⟩]]⟩)
    ∧ a.Valid sdk networkPassphrase creds root

/-- The frame accepts the transactions with one authorisation, of the wallet, that pass the checks
and are signed. -/
theorem verifySingle_succeeds_iff {sdk : Sdk} {mismatch unbound : String} {a : PasskeyAssertion}
    {txXdr networkPassphrase wallet : JsString}
    {check : HostFunction → AuthorizedInvocation → Except Thrown Unit} :
  (∃ verified, verifySingle sdk mismatch unbound a txXdr networkPassphrase wallet check
      = .ok verified)
    ↔ ∃ func creds root, sdk.addressText creds.address = wallet ∧ check func root = .ok ()
      ∧ sdk.fromXDR txXdr networkPassphrase
        = some (.transaction ⟨[.invokeHostFunction func [⟨.address creds, root⟩]]⟩)
      ∧ a.Valid sdk networkPassphrase creds root
  := by
  constructor
  · rintro ⟨verified, h⟩
    simp only [verifySingle, bind_eq_ok, Prod.exists, requireWalletEntry_eq_ok,
      pure_eq_ok] at h
    obtain ⟨_, hpresent, tx, func, ⟨credentials, root⟩, creds, ⟨htx, rfl, rfl, hwallet⟩, _, hroot,
      sig, hsig, _⟩ := h
    exact ⟨func, creds, root, hwallet, hroot, htx,
      checkAssertion_succeeds_iff.mp ⟨hpresent, sig, hsig⟩⟩
  · rintro ⟨func, creds, root, hwallet, hroot, htx, hvalid⟩
    obtain ⟨hpresent, sig, hsig⟩ := (@checkAssertion_succeeds_iff sdk unbound a _ _ _).mpr hvalid
    simp only [verifySingle, bind_eq_ok, Prod.exists, requireWalletEntry_eq_ok, pure_eq_ok]
    exact ⟨_, (), hpresent, _, _, _, creds, ⟨htx, rfl, rfl, hwallet⟩, (), hroot, sig, hsig, rfl⟩

/-- A verifier whose checks pass on the trees with some property, when the operation invokes the
function at the root, accepts the transactions that authorise such a tree. -/
theorem verifySingle_accepts_iff {sdk : Sdk} {mismatch unbound : String} {a : PasskeyAssertion}
    {txXdr networkPassphrase wallet : JsString}
    {check : HostFunction → AuthorizedInvocation → Except Thrown Unit}
    {P : AuthorizedInvocation → Prop}
    (hcheck : ∀ w func root, sdk.addressText w = wallet → (check func root = .ok ()
      ↔ ∃ fn, root.function = .contractFn fn ∧ func = .invokeContract fn ∧ P root)) :
  (∃ verified, verifySingle sdk mismatch unbound a txXdr networkPassphrase wallet check
      = .ok verified)
    ↔ ∃ root, P root ∧ Authorizes sdk a txXdr networkPassphrase wallet root
  := by
  rw [verifySingle_succeeds_iff]
  constructor
  · rintro ⟨func, creds, root, hwallet, hroot, htx, hvalid⟩
    obtain ⟨fn, hfn, rfl, hP⟩ := (hcheck _ _ _ hwallet).mp hroot
    exact ⟨root, hP, fn, creds, hfn, hwallet, htx, hvalid⟩
  · rintro ⟨root, hP, fn, creds, hfn, hwallet, htx, hvalid⟩
    exact ⟨_, creds, root, hwallet, (hcheck _ _ _ hwallet).mpr ⟨fn, hfn, rfl, hP⟩, htx, hvalid⟩

/-- The string is the address of a contract. -/
def Sdk.IsContract (sdk : Sdk) (s : JsString) : Prop := ∃ hash, sdk.addressText (.contract hash) = s

/-! ### Texts -/

def AuthorizedFunction.TextFree (f : AuthorizedFunction) : Prop :=
  ∀ fn, f = .contractFn fn → ∀ v ∈ fn.args, ¬ v.IsText

mutual

/-- No argument in the tree is a text. -/
def AuthorizedInvocation.TextFree : AuthorizedInvocation → Prop
  | .mk function subInvocations => function.TextFree ∧ SubsTextFree subInvocations

def SubsTextFree : List AuthorizedInvocation → Prop
  | [] => True
  | sub :: subs => sub.TextFree ∧ SubsTextFree subs

end

/-- No argument in an authorised tree of the transaction is a `String` or a `Symbol`. -/
def TextFree (sdk : Sdk) (txXdr networkPassphrase : JsString) : Prop :=
  ∀ func auth, sdk.fromXDR txXdr networkPassphrase
      = some (.transaction ⟨[.invokeHostFunction func auth]⟩) →
    ∀ entry ∈ auth, entry.rootInvocation.TextFree

namespace Sdk

variable (sdk : Sdk)

/-- A text is read as the address whose text it is. -/
def asRead (v : ScVal) : ScVal :=
  match sdk.scValToNative v with
  | .string s => (sdk.fromString s).elim v .address
  | .other => v

def fnAsRead : AuthorizedFunction → AuthorizedFunction
  | .contractFn fn => .contractFn { fn with args := fn.args.map sdk.asRead }
  | .createContract xdr => .createContract xdr

mutual

/-- The tree, with addresses in place of the texts that are read as addresses. -/
def treeAsRead : AuthorizedInvocation → AuthorizedInvocation
  | .mk function subInvocations => .mk (sdk.fnAsRead function) (subsAsRead subInvocations)

def subsAsRead : List AuthorizedInvocation → List AuthorizedInvocation
  | [] => []
  | sub :: subs => treeAsRead sub :: subsAsRead subs

end

end Sdk

section Texts

variable {sdk : Sdk} {v : ScVal}

/-- A value is read as an address when its string is the text of the address. -/
theorem asRead_eq_address {a : ScAddress} :
  sdk.asRead v = .address a ↔ sdk.scValToNative v = .string (sdk.addressText a)
  := by
  unfold Sdk.asRead
  cases v with
  | address b =>
    simp only [Sdk.scValToNative, sdk.fromString_addressText, Option.elim_some,
      ScVal.address.injEq, Native.string.injEq, sdk.addressText_injective.eq_iff]
  | string b | symbol b =>
    simp only [Sdk.scValToNative, Native.string.injEq]
    cases hs : sdk.fromString (textDecoder b) with
    | none =>
      constructor
      · exact nofun
      · intro h
        rw [h, sdk.fromString_addressText] at hs
        cases hs
    | some c =>
      rw [sdk.fromString_eq_some_iff] at hs
      rw [← hs, Option.elim_some, ScVal.address.injEq, sdk.addressText_injective.eq_iff]
  | _ => exact ⟨nofun, nofun⟩

/-- Values that are neither addresses nor texts are read as they are. -/
theorem asRead_eq_iff {w : ScVal} (hw : ¬ w.IsText) (haddress : ∀ a, w ≠ .address a) :
  sdk.asRead v = w ↔ v = w
  := by
  have hstring : ∀ b : Bytes, ∀ u : ScVal, u.IsText →
      ((sdk.fromString (textDecoder b)).elim u .address = w ↔ u = w) := by
    intro b u hu
    cases sdk.fromString (textDecoder b) with
    | none => rfl
    | some a =>
      refine ⟨fun h => absurd h.symm (haddress a), ?_⟩
      rintro rfl
      exact absurd hu hw
  cases v with
  | address a =>
    simp only [Sdk.asRead, Sdk.scValToNative, sdk.fromString_addressText, Option.elim_some]
  | string b | symbol b => exact hstring b _ trivial
  | _ => rfl

/-- An encoded integer is read as it is. -/
theorem asRead_eq_i128_iff {x : ℤ} {w : ScVal} (h : i128ToScVal x = some w) :
  sdk.asRead v = w ↔ v = w
  := by
  obtain ⟨y, rfl, _⟩ := i128ToScVal_eq_some.mp h
  exact asRead_eq_iff ScVal.isText_i128.mp nofun

theorem asRead_eq_u32_iff {n : ℕ} {w : ScVal} (h : u32ToScVal n = some w) :
  sdk.asRead v = w ↔ v = w
  := by
  obtain ⟨m, rfl, _⟩ := u32ToScVal_eq_some.mp h
  exact asRead_eq_iff ScVal.isText_u32.mp nofun

theorem asRead_of_i128 {x : ℤ} (h : i128ToScVal x = some v) :
  sdk.asRead v = v
  := (asRead_eq_i128_iff h).mpr rfl

theorem asRead_of_not_isText (h : ¬ v.IsText) :
  sdk.asRead v = v
  := by
  cases v with
  | address a => exact asRead_eq_address.mpr rfl
  | string b | symbol b => exact absurd trivial h
  | _ => rfl

theorem fnAsRead_of_textFree {f : AuthorizedFunction} (h : f.TextFree) :
  sdk.fnAsRead f = f
  := by
  cases f with
  | contractFn fn =>
    have hargs : fn.args.map sdk.asRead = fn.args := by
      apply (List.map_congr_left fun v hv => asRead_of_not_isText (h fn rfl v hv)).trans
      exact List.map_id' _
    rw [Sdk.fnAsRead, hargs]
  | createContract xdr => rfl

mutual

/-- A tree without texts is read as it is. -/
theorem treeAsRead_of_textFree : ∀ x : AuthorizedInvocation, x.TextFree → sdk.treeAsRead x = x
  | .mk f subs, h => by
    rw [Sdk.treeAsRead, fnAsRead_of_textFree h.1, subsAsRead_of_textFree subs h.2]

theorem subsAsRead_of_textFree :
  ∀ subs : List AuthorizedInvocation, SubsTextFree subs → sdk.subsAsRead subs = subs
  | [], _ => rfl
  | sub :: subs, h => by
    rw [Sdk.subsAsRead, treeAsRead_of_textFree sub h.1, subsAsRead_of_textFree subs h.2]

end

end Texts

theorem subsAsRead_eq_nil {sdk : Sdk} {subs : List AuthorizedInvocation} :
  sdk.subsAsRead subs = [] ↔ subs = []
  := by cases subs <;> simp [Sdk.subsAsRead]

theorem subsAsRead_eq_singleton {sdk : Sdk} {subs : List AuthorizedInvocation}
    {x : AuthorizedInvocation} :
  sdk.subsAsRead subs = [x] ↔ ∃ sub, subs = [sub] ∧ sdk.treeAsRead sub = x
  := by
  cases subs with
  | nil => simp [Sdk.subsAsRead]
  | cons sub subs =>
    rw [Sdk.subsAsRead, List.cons_eq_cons, subsAsRead_eq_nil]
    constructor
    · rintro ⟨hsub, rfl⟩
      exact ⟨sub, rfl, hsub⟩
    · rintro ⟨_, heq, hsub⟩
      obtain ⟨rfl, rfl⟩ := List.cons_eq_cons.mp heq
      exact ⟨hsub, rfl⟩

/-- A tree is read as one at the root of which a contract is called. -/
theorem treeAsRead_eq_iff {sdk : Sdk} {root : AuthorizedInvocation} {a : ScAddress} {name : Bytes}
    {args : List ScVal} {subs : List AuthorizedInvocation} :
  sdk.treeAsRead root = contractFnInvocation ⟨a, name, args⟩ subs
    ↔ ∃ args', root.function = .contractFn ⟨a, name, args'⟩ ∧ args'.map sdk.asRead = args
      ∧ sdk.subsAsRead root.subInvocations = subs
  := by
  obtain ⟨f, subs'⟩ := root
  rw [Sdk.treeAsRead, contractFnInvocation, AuthorizedInvocation.mk.injEq,
    AuthorizedInvocation.function, AuthorizedInvocation.subInvocations]
  constructor
  · rintro ⟨hf, hsubs⟩
    cases f with
    | contractFn fn =>
      cases hf
      exact ⟨fn.args, rfl, rfl, hsubs⟩
    | createContract xdr => cases hf
  · rintro ⟨args', rfl, rfl, hsubs⟩
    exact ⟨rfl, hsubs⟩

/-! ### Exact verifiers -/

section Exact

variable {sdk : Sdk} {a : PasskeyAssertion} {txXdr networkPassphrase wallet : JsString}
  {root canonical : AuthorizedInvocation}

theorem Authorizes.textFree_iff (h : Authorizes sdk a txXdr networkPassphrase wallet root) :
  TextFree sdk txXdr networkPassphrase ↔ root.TextFree
  := by
  obtain ⟨fn, creds, _, _, htx, _⟩ := h
  constructor
  · intro hfree
    exact hfree _ _ htx _ (List.mem_singleton.mpr rfl)
  · intro hfree func auth htx' entry hentry
    rw [htx] at htx'
    cases htx'
    obtain rfl := List.mem_singleton.mp hentry
    exact hfree

/-- A verifier that compares the tree, as it is read, with what is built accepts the transactions
that authorise what is built, and among those that it accepts they are the ones without texts. -/
theorem exact_of_accepts_iff {build : Option AuthorizedInvocation} {accepts within : Prop}
    (hfree : ∀ canonical, build = some canonical → canonical.TextFree)
    (h : accepts ↔ ∃ root, (within ∧ build = some (sdk.treeAsRead root))
      ∧ Authorizes sdk a txXdr networkPassphrase wallet root) :
  ((within ∧ ∃ canonical, build = some canonical
        ∧ Authorizes sdk a txXdr networkPassphrase wallet canonical) → accepts)
    ∧ (accepts → ((within ∧ ∃ canonical, build = some canonical
        ∧ Authorizes sdk a txXdr networkPassphrase wallet canonical)
      ↔ TextFree sdk txXdr networkPassphrase))
  := by
  constructor
  · rintro ⟨hwithin, canonical, hbuild, hcanonical⟩
    have hread : sdk.treeAsRead canonical = canonical :=
      treeAsRead_of_textFree canonical (hfree _ hbuild)
    exact h.mpr ⟨canonical, ⟨hwithin, by rw [hread, hbuild]⟩, hcanonical⟩
  · intro haccepts
    obtain ⟨root, ⟨hwithin, hbuild⟩, hroot⟩ := h.mp haccepts
    constructor
    · rintro ⟨_, canonical, hcanonical, hauthorizes⟩
      exact hauthorizes.textFree_iff.mpr (hfree _ hcanonical)
    · intro htext
      rw [treeAsRead_of_textFree root (hroot.textFree_iff.mp htext)] at hbuild
      exact ⟨hwithin, root, hbuild, hroot⟩

end Exact

end Relayer
