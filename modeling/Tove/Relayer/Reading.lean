import Tove.Relayer.Passkey

/-!
# Reading transactions

The checks of a transaction that the verifiers of the relayer share. Each of them passes on
transactions of one form only.
-/

namespace Relayer

open Checks Js

/-! ### Parts of a transaction -/

def Credentials.address? : Credentials → Option AddressCredentials
  | .address creds => some creds
  | .sourceAccount => none

def AuthorizedFunction.contractFn? : AuthorizedFunction → Option InvokeContractArgs
  | .contractFn fn => some fn
  | .createContract _ => none

def HostFunction.invokeContract? : HostFunction → Option InvokeContractArgs
  | .invokeContract fn => some fn
  | .other => none

theorem Credentials.address?_eq_some {c : Credentials} {creds : AddressCredentials} :
  c.address? = some creds ↔ c = .address creds
  := by cases c <;> simp [address?]

theorem AuthorizedFunction.contractFn?_eq_some {f : AuthorizedFunction} {fn : InvokeContractArgs} :
  f.contractFn? = some fn ↔ f = .contractFn fn
  := by cases f <;> simp [contractFn?]

theorem HostFunction.invokeContract?_eq_some {f : HostFunction} {fn : InvokeContractArgs} :
  f.invokeContract? = some fn ↔ f = .invokeContract fn
  := by cases f <;> simp [invokeContract?]

theorem AuthorizedInvocation.ext {x y : AuthorizedInvocation} (hfunction : x.function = y.function)
    (hsubs : x.subInvocations = y.subInvocations) :
  x = y
  := by
  cases x
  cases y
  simp_all [function, subInvocations]

/-! ### The operation -/

/-- The transaction has one operation, which invokes a host function. -/
def requireOperation (sdk : Sdk) (txXdr networkPassphrase : JsString) :
    Except Thrown (Transaction × HostFunction × List AuthorizationEntry) := do
  let tx ← orReject (sdk.fromXDR txXdr networkPassphrase) (invalid "malformed txXdr")
  match tx with
  | .transaction ⟨[.invokeHostFunction func auth]⟩ =>
    return (⟨[.invokeHostFunction func auth]⟩, func, auth)
  | .transaction ⟨[.other]⟩ => throw (invalid "operation is not invokeHostFunction")
  | _ => throw (invalid "expected exactly one operation")

theorem requireOperation_eq_ok {sdk : Sdk} {txXdr networkPassphrase : JsString}
    {tx : Transaction} {func : HostFunction} {auth : List AuthorizationEntry} :
  requireOperation sdk txXdr networkPassphrase = .ok (tx, func, auth)
    ↔ sdk.fromXDR txXdr networkPassphrase = some (.transaction tx)
      ∧ tx = ⟨[.invokeHostFunction func auth]⟩
  := by
  rw [requireOperation, bind_eq_ok]
  simp only [orReject_eq_ok]
  constructor
  · rintro ⟨envelope, htx, h⟩
    split at h
    · rw [pure_eq_ok] at h
      cases h
      exact ⟨htx, rfl⟩
    · cases h
    · cases h
  · rintro ⟨htx, rfl⟩
    exact ⟨_, htx, rfl⟩

/-! ### Functions -/

/-- The function has the name, on the contract. -/
def requireFunction (sdk : Sdk) (fn : InvokeContractArgs) (name : String) (contract : JsString)
    (wrongName wrongContract : String) : Except Thrown Unit := do
  rejectIf (Utf8.decode fn.functionName ≠ Utf8.text name) (invalid wrongName)
  rejectIf (sdk.addressText fn.contractAddress ≠ contract) (invalid wrongContract)

theorem requireFunction_eq_ok {sdk : Sdk} {fn : InvokeContractArgs} {name : String}
    {contract : JsString} {wrongName wrongContract : String}
    {u : Unit} (hname : name.toList.all (·.toNat < 0x80) = true) :
  requireFunction sdk fn name contract wrongName wrongContract = .ok u
    ↔ fn.functionName = Utf8.ascii name ∧ sdk.addressText fn.contractAddress = contract
  := by
  rw [requireFunction, check_bind_eq_ok, rejectIf_eq_ok, rejectIf_eq_ok, not_not, not_not,
    Utf8.decode_eq_text (by simpa only [List.all_eq_true, decide_eq_true_eq] using hname)]

/-! ### Arguments -/

/-- `requireI128Equal`. -/
def requireI128Equal (arg : ScVal) (expected : ℤ) (label : String) : Except Thrown Unit :=
  match arg with
  | .i128 x =>
    rejectIf (x.val ≠ expected) (invalid (label ++ " does not match the server-trusted value"))
  | _ => throw (invalid (label ++ " is not an i128"))

/-- The argument is the encoding of the expected integer. -/
theorem requireI128Equal_eq_ok {arg : ScVal} {expected : ℤ} {label : String} :
  requireI128Equal arg expected label = .ok () ↔ i128ToScVal expected = some arg
  := by
  rw [i128ToScVal_eq_some]
  cases arg <;> simp [requireI128Equal]

/-- `requireU32Equal`. -/
def requireU32Equal (arg : ScVal) (expected : ℕ) (label : String) : Except Thrown Unit :=
  match arg with
  | .u32 n =>
    rejectIf (n.toNat ≠ expected) (invalid (label ++ " does not match the server-trusted value"))
  | _ => throw (invalid (label ++ " is not a u32"))

/-- The argument is the encoding of the expected number. -/
theorem requireU32Equal_eq_ok {arg : ScVal} {expected : ℕ} {label : String} :
  requireU32Equal arg expected label = .ok () ↔ u32ToScVal expected = some arg
  := by
  rw [u32ToScVal_eq_some]
  cases arg <;> simp [requireU32Equal]

/-- `requireBytes32Equal`. -/
def requireBytes32Equal (arg : ScVal) (expected : Bytes32) (label : String) :
    Except Thrown Unit :=
  match arg with
  | .bytes b => do
    rejectIf (b.length ≠ 32) (invalid (label ++ " is not a BytesN<32>"))
    rejectIf (b ≠ expected) (invalid (label ++ " does not match the server-trusted value"))
  | _ => throw (invalid (label ++ " is not a BytesN<32>"))

/-- The argument is the expected string of bytes. -/
theorem requireBytes32Equal_eq_ok {arg : ScVal} {expected : Bytes32} {label : String} :
  requireBytes32Equal arg expected label = .ok () ↔ arg = .bytes expected
  := by
  cases arg with
  | bytes b =>
    rw [requireBytes32Equal, check_bind_eq_ok, rejectIf_eq_ok, rejectIf_eq_ok, not_not, not_not,
      ScVal.bytes.injEq]
    constructor
    · exact And.right
    · rintro rfl
      exact ⟨expected.property, rfl⟩
  | _ =>
    constructor
    · exact nofun
    · exact nofun

/-- An argument that has to be an integer. -/
def requireI128 (arg : ScVal) (message : String) : Except Thrown ℤ :=
  match arg with
  | .i128 x => return x.val
  | _ => throw (invalid message)

theorem requireI128_eq_ok {arg : ScVal} {message : String} {x : ℤ} :
  requireI128 arg message = .ok x ↔ i128ToScVal x = some arg
  := by
  rw [i128ToScVal_eq_some]
  cases arg <;> simp [requireI128]

/-- An argument is read as a string that has to be the expected one. -/
def requireString (sdk : Sdk) (arg : ScVal) (expected : JsString) (message : String) :
    Except Thrown Unit :=
  rejectIf (sdk.scValToNative arg ≠ .string expected) (invalid message)

theorem requireString_eq_ok {sdk : Sdk} {arg : ScVal} {expected : JsString} {message : String}
    {u : Unit} :
  requireString sdk arg expected message = .ok u
    ↔ sdk.scValToNative arg = .string expected
  := by rw [requireString, rejectIf_eq_ok, not_not]

end Relayer
