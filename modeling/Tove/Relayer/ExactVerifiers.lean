import Tove.Relayer.BidAuthorization
import Tove.Relayer.CancelAuthorization
import Tove.Relayer.PasskeyAuthorization

/-!
# The verifiers of single authorisations are exact up to texts

The transactions that are built and signed for a bid, for the withdrawal of a bid and for a transfer
are accepted.  What else is accepted has a text where an address is meant.
-/

namespace Relayer

open Js

/-- Each of the three verifiers accepts the canonical transactions of its trusted values, and an
accepted transaction is canonical just when no argument in its authorised tree is a text. -/
theorem verifiers_exact (sdk : Sdk) :
  (∀ input : VerifyBidAuthorizationInput,
      sdk.IsContract input.escrowContract → sdk.IsContract input.tokenContract →
      (CanonicalBid sdk input → AcceptsBid sdk input)
        ∧ (AcceptsBid sdk input →
          (CanonicalBid sdk input ↔ TextFree sdk input.txXdr input.networkPassphrase)))
    ∧ (∀ input : VerifyCancelBidAuthorizationInput, sdk.IsContract input.escrowContract →
      (CanonicalCancel sdk input → AcceptsCancel sdk input)
        ∧ (AcceptsCancel sdk input →
          (CanonicalCancel sdk input ↔ TextFree sdk input.txXdr input.networkPassphrase)))
    ∧ ∀ (input : VerifyPasskeyAuthorizationInput) (expectedTo : JsString) (amount : ℤ),
      sdk.IsContract input.tokenContract → input.expectedTo = some expectedTo →
      input.expectedAmountScaled = some amount →
      (CanonicalTransfer sdk input expectedTo amount → AcceptsTransfer sdk input)
        ∧ (AcceptsTransfer sdk input → (CanonicalTransfer sdk input expectedTo amount
          ↔ TextFree sdk input.txXdr input.networkPassphrase))
  := by
  refine ⟨fun input hescrow htoken => bid_exact hescrow htoken,
    fun input hescrow => cancel_exact hescrow, ?_⟩
  intro input expectedTo amount htoken hto hamount
  exact transfer_exact hto hamount htoken

/-! ### A sample -/

/-- The SDK that reads a call by the wallet 1. -/
def sampleCaller (fn : InvokeContractArgs) (subs : List AuthorizedInvocation) : Sdk :=
  sampleSdk ⟨[.invokeHostFunction (.invokeContract fn)
    [⟨.address (sampleCreds 1), contractFnInvocation fn subs⟩]]⟩

/-- The assertion that the wallet 1 signs for a call. -/
def sampleSigned (fn : InvokeContractArgs) (subs : List AuthorizedInvocation) : PasskeyAssertion :=
  sampleAssertion (sampleCaller fn subs) (Utf8.text "net") (sampleCreds 1)
    (contractFnInvocation fn subs)

/-- The call of `transfer` with a value for the recipient. -/
def sampleTransfer (target : ScVal) : InvokeContractArgs :=
  ⟨.contract 4, Utf8.ascii "transfer",
    [.address (.contract 1), target, .i128 (sampleAmount 5 (by decide))]⟩

/-- The transfer of 5 units to the wallet 2. -/
def sampleTransferInput (target : ScVal) : VerifyPasskeyAuthorizationInput where
  toPasskeyAssertion := sampleSigned (sampleTransfer target) []
  txXdr := Utf8.text "tx"
  networkPassphrase := Utf8.text "net"
  walletContract := sampleText (.contract 1)
  tokenContract := sampleText (.contract 4)
  maxTransferAmount := 100
  expectedTo := some (sampleText (.contract 2))
  expectedAmountScaled := some 5

/-- The call of `cancel_bid` for the bid 7. -/
def sampleCancel : InvokeContractArgs :=
  ⟨.contract 3, Utf8.ascii "cancel_bid", [.address (.contract 1), .u32 7]⟩

def sampleCancelInput : VerifyCancelBidAuthorizationInput where
  toPasskeyAssertion := sampleSigned sampleCancel []
  txXdr := Utf8.text "tx"
  networkPassphrase := Utf8.text "net"
  expectedCaller := sampleText (.contract 1)
  escrowContract := sampleText (.contract 3)
  expectedBidId := 7

/-- The call of `submit_bid` for two fractions at 5 units each. -/
def sampleBid : InvokeContractArgs :=
  ⟨.contract 3, Utf8.ascii "submit_bid", [.address (.contract 1),
    .i128 (sampleAmount 5 (by decide)), .i128 (sampleAmount 2 (by decide)),
    .bytes (sampleId 9).val]⟩

def sampleBidTransfer : AuthorizedInvocation :=
  contractFnInvocation ⟨.contract 4, Utf8.ascii "transfer", [.address (.contract 1),
    .address (.contract 3), .i128 (sampleAmount 10 (by decide))]⟩ []

def sampleBidInput : VerifyBidAuthorizationInput where
  toPasskeyAssertion := sampleSigned sampleBid [sampleBidTransfer]
  txXdr := Utf8.text "tx"
  networkPassphrase := Utf8.text "net"
  walletContract := sampleText (.contract 1)
  escrowContract := sampleText (.contract 3)
  tokenContract := sampleText (.contract 4)
  expectedPriceScaled := 5
  expectedCount := 2
  maxCostScaled := 100
  expectedIdemKey := sampleId 9

theorem canonical_sampleBid :
  CanonicalBid (sampleCaller sampleBid [sampleBidTransfer]) sampleBidInput
  := ⟨by decide, _, rfl, sampleBid, sampleCreds 1, rfl, rfl, rfl,
    valid_of_isOk "" (by decide +kernel)⟩

theorem canonical_sampleCancel :
  CanonicalCancel (sampleCaller sampleCancel []) sampleCancelInput
  := ⟨_, rfl, sampleCancel, sampleCreds 1, rfl, rfl, rfl,
    valid_of_isOk "" (by decide +kernel)⟩

theorem canonical_sampleTransfer :
  CanonicalTransfer (sampleCaller (sampleTransfer (.address (.contract 2))) [])
    (sampleTransferInput (.address (.contract 2))) (sampleText (.contract 2)) 5
  := ⟨by decide, _, rfl, sampleTransfer (.address (.contract 2)), sampleCreds 1, rfl, rfl, rfl,
    valid_of_isOk "" (by decide +kernel)⟩

/-- The three sample transactions are accepted. -/
theorem verifiers_exact_sample :
  AcceptsBid (sampleCaller sampleBid [sampleBidTransfer]) sampleBidInput
    ∧ AcceptsCancel (sampleCaller sampleCancel []) sampleCancelInput
    ∧ AcceptsTransfer (sampleCaller (sampleTransfer (.address (.contract 2))) [])
      (sampleTransferInput (.address (.contract 2)))
  := by
  have hbid := (verifiers_exact (sampleCaller sampleBid [sampleBidTransfer])).1 sampleBidInput
    ⟨3, rfl⟩ ⟨4, rfl⟩
  have hcancel := (verifiers_exact (sampleCaller sampleCancel [])).2.1 sampleCancelInput ⟨3, rfl⟩
  have htransfer := (verifiers_exact (sampleCaller (sampleTransfer (.address (.contract 2))) [])).2.2
    (sampleTransferInput (.address (.contract 2))) _ _ ⟨4, rfl⟩ rfl rfl
  exact ⟨hbid.1 canonical_sampleBid, hcancel.1 canonical_sampleCancel,
    htransfer.1 canonical_sampleTransfer⟩

theorem acceptsTransfer_sampleText :
  AcceptsTransfer (sampleCaller (sampleTransfer (.string [67, 2])) [])
    (sampleTransferInput (.string [67, 2]))
  := by
  have hok : (verifyPasskeyAuthorization (sampleCaller (sampleTransfer (.string [67, 2])) [])
      (sampleTransferInput (.string [67, 2]))).isOk = true := by decide +kernel
  cases hverify : verifyPasskeyAuthorization (sampleCaller (sampleTransfer (.string [67, 2])) [])
      (sampleTransferInput (.string [67, 2])) with
  | error e => rw [hverify] at hok; cases hok
  | ok verified => exact ⟨verified, hverify⟩

/-- A transfer to a text is accepted, and is not canonical. -/
theorem not_forall_exact_transfer :
  ¬ ∀ (sdk : Sdk) (input : VerifyPasskeyAuthorizationInput) (expectedTo : JsString) (amount : ℤ),
    sdk.IsContract input.tokenContract → input.expectedTo = some expectedTo →
    input.expectedAmountScaled = some amount →
    (AcceptsTransfer sdk input ↔ CanonicalTransfer sdk input expectedTo amount)
  := by
  intro h
  have hcanonical := (h _ _ _ _ ⟨4, rfl⟩ rfl rfl).mp acceptsTransfer_sampleText
  have hfree := ((transfer_exact rfl rfl ⟨4, rfl⟩).2 acceptsTransfer_sampleText).mp hcanonical
  exact (hfree _ _ rfl _ (List.mem_singleton.mpr rfl)).1 _ rfl (.string [67, 2])
    (by simp [sampleTransfer]) trivial

end Relayer
