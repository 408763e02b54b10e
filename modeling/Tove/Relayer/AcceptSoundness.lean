import Tove.Relayer.AcceptAuthorization

/-!
# What an accepted purchase pays

The verifier compares the wallets of a transaction as strings, and a `String` or a `Symbol` is read
as a string too.  When it accepts, the transaction is the purchase of the quote exactly if addresses
stand where wallets are meant.
-/

namespace Relayer

open Js

/-! ### Soundness -/

/-- The transaction of these parts is the purchase of the quote: the operation has the arguments
that are encoded from the trusted values, the transfers are made by the buyer, just one of them is
to the seller, it is of what the seller is to receive, and the challenge commits to all of them. -/
structure Sound (sdk : Sdk) (input : VerifyAcceptQuoteAuthorizationInput) (p : Parts) : Prop
    extends Carries sdk input p where
  opArgs : encodeAcceptQuoteArgs sdk input.args = some (p.opArgs input)
  tuple : encodeAuthTupleArgs input.args = some (p.tuple input)
  legs : ∀ leg ∈ p.legs, leg.source = .address p.buyerCreds.address ∧ 0 < leg.amount.val
  sellerLeg : ∃ pre leg post, p.legs = pre ++ leg :: post
    ∧ leg.target = .address p.sellerCreds.address
    ∧ leg.amount.val = (computeUsdcSplit input.expectedGross).sellerNet
    ∧ (∀ other ∈ pre ++ post, other.target ≠ .address p.sellerCreds.address)
    ∧ ((pre ++ post).map fun other => other.amount.val).sum
      = (computeUsdcSplit input.expectedGross).platformCut
        + (computeUsdcSplit input.expectedGross).artistCut
  challenge : ∃ clientData : Json.Value Json.Number,
    Json.parse (Utf8.decode input.clientDataJSON) = some clientData
    ∧ clientData.stringProperty (Utf8.text "challenge")
      = some (sdk.expectedChallenge input.toPasskeyAssertion input.networkPassphrase p.buyerCreds
          (p.buyerRoot input))

/-- No text stands for a wallet: none is an argument of the operation, none is the source of a
transfer, and a target that is read as the seller is not a text. -/
def Addressed (sdk : Sdk) (input : VerifyAcceptQuoteAuthorizationInput) : Prop :=
  ∀ fn auth, sdk.fromXDR input.txXdr input.networkPassphrase
      = some (.transaction ⟨[.invokeHostFunction (.invokeContract fn) auth]⟩) →
    (∀ v ∈ fn.args, ¬ v.IsText)
      ∧ ∀ entry ∈ auth, ∀ sub ∈ entry.rootInvocation.subInvocations, ∀ t,
        sub.function = .contractFn t →
        (∀ v ∈ t.args[0]?, ¬ v.IsText)
          ∧ ∀ v ∈ t.args[1]?, ReadsAs sdk input.sellerWallet v → ¬ v.IsText

section Parts

variable {sdk : Sdk} {input : VerifyAcceptQuoteAuthorizationInput} {p q : Parts} {usdc : ScAddress}

theorem Leg.invocation_injective :
  Function.Injective (Leg.invocation usdc)
  := by
  rintro ⟨source, target, amount⟩ ⟨source', target', amount'⟩ h
  simp only [Leg.invocation, contractFnInvocation] at h
  cases h
  rfl

/-- A transaction has its parts in one way only. -/
theorem Carries.unique (hdistinct : input.buyerWallet ≠ input.sellerWallet)
    (hp : Carries sdk input p) (hq : Carries sdk input q) :
  p = q
  := by
  obtain ⟨auth, hperm, htx⟩ := hp.transaction
  obtain ⟨auth', hperm', htx'⟩ := hq.transaction
  rw [htx] at htx'
  simp only [Option.some_inj, Envelope.transaction.injEq, Transaction.mk.injEq, List.cons.injEq,
    Operation.invokeHostFunction.injEq, and_true, Parts.func, HostFunction.invokeContract.injEq,
    InvokeContractArgs.mk.injEq, Parts.opArgs] at htx'
  obtain ⟨⟨hsettler, _, _, _, _, hbuyerArg, hsellerArg, hcount, hgross⟩, rfl⟩ := htx'
  have husdc : p.usdc = q.usdc := sdk.addressText_injective (hp.usdc.trans hq.usdc.symm)
  have hother : p.buyerCreds ≠ q.sellerCreds := by
    intro h
    exact hdistinct (by rw [← hp.buyer, h, hq.seller])
  have hentries : (p.entries input).Perm (q.entries input) := hperm.symm.trans hperm'
  have hbuyer : p.buyerCreds = q.buyerCreds ∧ p.buyerRoot input = q.buyerRoot input := by
    have hmem := hentries.subset (List.mem_cons_self)
    simpa [Parts.entries, hother] using hmem
  have hseller : p.sellerCreds = q.sellerCreds := by
    rw [Parts.entries, Parts.entries, hbuyer.1, hbuyer.2, List.perm_cons,
      List.singleton_perm_singleton, AuthorizationEntry.mk.injEq, Credentials.address.injEq]
      at hentries
    exact hentries.1
  have hlegs : p.legs = q.legs := by
    have hsubs := congrArg AuthorizedInvocation.subInvocations hbuyer.2
    simp only [Parts.buyerRoot, Parts.root, contractFnInvocation, husdc,
      AuthorizedInvocation.subInvocations] at hsubs
    exact List.map_injective_iff.mpr Leg.invocation_injective hsubs
  ext1 <;> first | assumption | exact hbuyer.1

/-- An encoded address is read as its text. -/
theorem readsAs_address {a : ScAddress} {wallet : JsString} (h : sdk.addressText a = wallet) :
  ReadsAs sdk wallet (.address a)
  := by rw [ReadsAs, Sdk.scValToNative, h]

theorem eq_address {a : ScAddress} {wallet : JsString} {v : ScVal} (h : sdk.addressText a = wallet)
    (hreads : ReadsAs sdk wallet v) (htext : ¬ v.IsText) :
  v = .address a
  := by
  subst h
  exact Sdk.eq_address_of_scValToNative hreads htext

theorem encodeAcceptQuoteArgs_iff (h : Carries sdk input p) :
  encodeAcceptQuoteArgs sdk input.args = some (p.opArgs input)
    ↔ p.buyerArg = .address p.buyerCreds.address ∧ p.sellerArg = .address p.sellerCreds.address
  := by
  have hbuyer := sdk.fromString_addressText p.buyerCreds.address
  have hseller := sdk.fromString_addressText p.sellerCreds.address
  rw [h.buyer] at hbuyer
  rw [h.seller] at hseller
  simp [encodeAcceptQuoteArgs, Sdk.addressToScVal, VerifyAcceptQuoteAuthorizationInput.args, hbuyer,
    hseller, h.count, h.gross, Parts.opArgs, eq_comm]

theorem encodeAuthTupleArgs_eq (h : Carries sdk input p) :
  encodeAuthTupleArgs input.args = some (p.tuple input)
  := by
  simp [encodeAuthTupleArgs, VerifyAcceptQuoteAuthorizationInput.args, h.count, h.gross, Parts.tuple]

/-- The arguments of a transaction that carries the parts are not texts just when the wallets in
them are not. -/
theorem addressed_iff (h : Carries sdk input p) :
  Addressed sdk input
    ↔ ¬ p.buyerArg.IsText ∧ ¬ p.sellerArg.IsText
      ∧ ∀ leg ∈ p.legs, ¬ leg.source.IsText
        ∧ (ReadsAs sdk input.sellerWallet leg.target → ¬ leg.target.IsText)
  := by
  obtain ⟨auth, hperm, htx⟩ := h.transaction
  obtain ⟨count, hcount, _⟩ := i128ToScVal_eq_some.mp h.count
  obtain ⟨gross, hgross, _⟩ := i128ToScVal_eq_some.mp h.gross
  constructor
  · intro haddressed
    obtain ⟨hop, htree⟩ := haddressed _ auth htx
    refine ⟨hop _ (by simp [Parts.opArgs]), hop _ (by simp [Parts.opArgs]), fun leg hleg => ?_⟩
    have hentry : ⟨.address p.buyerCreds, p.buyerRoot input⟩ ∈ auth :=
      hperm.mem_iff.mpr List.mem_cons_self
    obtain ⟨hsource, htarget⟩ :=
      htree _ hentry (leg.invocation p.usdc) (List.mem_map_of_mem hleg) _ rfl
    exact ⟨hsource _ rfl, htarget _ rfl⟩
  · rintro ⟨hbuyer, hseller, hlegs⟩ fn auth' htx'
    rw [htx] at htx'
    simp only [Option.some_inj, Envelope.transaction.injEq, Transaction.mk.injEq, List.cons.injEq,
      Operation.invokeHostFunction.injEq, and_true, Parts.func,
      HostFunction.invokeContract.injEq] at htx'
    obtain ⟨rfl, rfl⟩ := htx'
    constructor
    · simp [Parts.opArgs, hcount, hgross, hbuyer, hseller]
    · intro entry hentry sub hsub t ht
      rcases List.mem_cons.mp (hperm.mem_iff.mp hentry) with rfl | hentry
      · obtain ⟨leg, hleg, rfl⟩ := List.mem_map.mp hsub
        cases ht
        obtain ⟨hsource, htarget⟩ := hlegs leg hleg
        constructor
        · rintro v ⟨⟩
          exact hsource
        · rintro v ⟨⟩
          exact htarget
      · obtain rfl := List.mem_singleton.mp hentry
        cases hsub

/-! ### The transfer to the seller -/

variable {pre post : List Leg} {leg other : Leg}

/-- The other transfers are of less than what the seller is to receive, and make up the fee and the
royalty. -/
theorem others_of_sum (hgross : 0 < input.expectedGross)
    (hpositive : ∀ other ∈ pre ++ post, 0 < other.amount.val)
    (hsum : ((pre ++ leg :: post).map fun other => other.amount.val).sum = input.expectedGross)
    (hnet : leg.amount.val = (computeUsdcSplit input.expectedGross).sellerNet) :
  ((pre ++ post).map fun other => other.amount.val).sum
      = (computeUsdcSplit input.expectedGross).platformCut
        + (computeUsdcSplit input.expectedGross).artistCut
    ∧ ∀ other ∈ pre ++ post,
      other.amount.val < (computeUsdcSplit input.expectedGross).sellerNet
  := by
  have hlt := lt_sellerNet hgross
  have hsplit := @split_sum input.expectedGross
  have hothers : ((pre ++ post).map fun other => other.amount.val).sum
      = (computeUsdcSplit input.expectedGross).platformCut
        + (computeUsdcSplit input.expectedGross).artistCut := by
    simp only [List.map_append, List.map_cons, List.sum_append, List.sum_cons] at hsum ⊢
    omega
  refine ⟨hothers, fun other hother => ?_⟩
  have hle : other.amount.val ≤ ((pre ++ post).map fun other => other.amount.val).sum := by
    apply List.single_le_sum
    · intro x hx
      obtain ⟨leg, hleg, rfl⟩ := List.mem_map.mp hx
      exact (hpositive leg hleg).le
    · exact List.mem_map_of_mem hother
  omega

/-- When a transaction with these parts is accepted, it is sound just when its wallets are
addresses. -/
theorem Passes.sound_iff (hgross : 0 < input.expectedGross) (h : Passes sdk input p) :
  Sound sdk input p ↔ Addressed sdk input
  := by
  have hpositive : ∀ leg ∈ p.legs, 0 < leg.amount.val := fun leg hleg => (h.good leg hleg).positive
  rw [addressed_iff h.toCarries]
  constructor
  · intro hsound
    obtain ⟨hbuyer, hseller⟩ := (encodeAcceptQuoteArgs_iff h.toCarries).mp hsound.opArgs
    refine ⟨by simp [hbuyer], by simp [hseller], fun leg hleg => ?_⟩
    refine ⟨by simp [(hsound.legs leg hleg).1], fun hreads => ?_⟩
    obtain ⟨pre, paid, post, hlegs, htarget, hnet, _⟩ := hsound.sellerLeg
    have hamount := (h.good leg hleg).sellerNet hreads
    have hsum := h.sum
    rw [hlegs] at hleg hsum hpositive
    obtain ⟨_, hless⟩ := others_of_sum hgross
      (fun other hother => hpositive other (by grind)) hsum hnet
    obtain hother | rfl : leg ∈ pre ++ post ∨ leg = paid := by grind
    · exact absurd hamount (hless leg hother).ne
    · simp [htarget]
  · rintro ⟨hbuyer, hseller, hlegs⟩
    have hsource : ∀ leg ∈ p.legs, leg.source = .address p.buyerCreds.address := fun leg hleg =>
      eq_address h.buyer (h.good leg hleg).source (hlegs leg hleg).1
    have hnetpos : 0 < (computeUsdcSplit input.expectedGross).sellerNet := by
      have := lt_sellerNet hgross
      have := @split_sum input.expectedGross
      omega
    obtain ⟨paid, hpaid, hreads⟩ := h.seen hnetpos
    have htarget := eq_address h.seller hreads ((hlegs paid hpaid).2 hreads)
    have hnet := (h.good paid hpaid).sellerNet hreads
    obtain ⟨pre, post, hsplit⟩ := List.append_of_mem hpaid
    have hsum := h.sum
    rw [hsplit] at hsum
    obtain ⟨hothers, hless⟩ := others_of_sum hgross
      (fun other hother => hpositive other (by grind)) hsum hnet
    have hunpaid : ∀ other ∈ pre ++ post, other.target ≠ .address p.sellerCreds.address := by
      intro other hother heq
      have hmem : other ∈ p.legs := by grind
      have hnet := (h.good other hmem).sellerNet (by rw [heq]; exact readsAs_address h.seller)
      exact absurd hnet (hless other hother).ne
    obtain ⟨clientData, hparse, hvalid⟩ := h.valid.clientData
    exact {
      toCarries := h.toCarries
      opArgs := (encodeAcceptQuoteArgs_iff h.toCarries).mpr
        ⟨eq_address h.buyer h.buyerArg hbuyer, eq_address h.seller h.sellerArg hseller⟩
      tuple := encodeAuthTupleArgs_eq h.toCarries
      legs := fun leg hleg => ⟨hsource leg hleg, hpositive leg hleg⟩
      sellerLeg := ⟨pre, paid, post, hsplit, htarget, hnet, hunpaid, hothers⟩
      challenge := ⟨clientData, hparse, hvalid.challenge⟩ }

/-- An accepted transaction is the purchase of the quote just when addresses stand in it where
wallets are meant. -/
theorem sound_iff_addressed (hdistinct : input.buyerWallet ≠ input.sellerWallet)
    (hgross : 0 < input.expectedGross) (h : Accepts sdk input) :
  (∃ p, Sound sdk input p) ↔ Addressed sdk input
  := by
  obtain ⟨p, hp⟩ := (accepts_iff hdistinct).mp h
  rw [← hp.sound_iff hgross]
  constructor
  · rintro ⟨q, hq⟩
    rw [hp.toCarries.unique hdistinct hq.toCarries]
    exact hq
  · exact fun hsound => ⟨p, hsound⟩

end Parts

/-! ### A sample -/

/-- The wallet 1 buys 4 fractions from the wallet 2 for 100 units, of which one is a fee for the
address 5 and one is a royalty for the address 6. -/
def sampleLegs : List Leg :=
  [⟨.address (.contract 1), .address (.contract 5), sampleAmount 1 (by decide)⟩,
    ⟨.address (.contract 1), .address (.contract 6), sampleAmount 1 (by decide)⟩,
    ⟨.address (.contract 1), .address (.contract 2), sampleAmount 98 (by decide)⟩]

/-- The purchase, with a value for the buyer. -/
def sampleParts (buyerArg : ScVal) : Parts where
  settler := .contract 3
  usdc := .contract 4
  buyerArg
  sellerArg := .address (.contract 2)
  count := .i128 (sampleAmount 4 (by decide))
  gross := .i128 (sampleAmount 100 (by decide))
  buyerCreds := sampleCreds 1
  sellerCreds := sampleCreds 2
  legs := sampleLegs

/-- The trusted values of the purchase. -/
def sampleTrusted (a : PasskeyAssertion) : VerifyAcceptQuoteAuthorizationInput where
  toPasskeyAssertion := a
  settlerContract := sampleText (.contract 3)
  rfqId := sampleId 1
  quoteId := sampleId 2
  artworkId := sampleId 3
  expectedCount := 4
  expectedGross := 100
  txXdr := Utf8.text "tx"
  networkPassphrase := Utf8.text "net"
  usdcContract := sampleText (.contract 4)
  buyerWallet := sampleText (.contract 1)
  sellerWallet := sampleText (.contract 2)

/-- The trusted values alone. -/
def sampleUnsigned : VerifyAcceptQuoteAuthorizationInput :=
    sampleTrusted ⟨[], [], [], [], [], [], []⟩

/-- The SDK that reads the transaction with the parts. -/
def sampleReader (p : Parts) : Sdk :=
  sampleSdk ⟨[.invokeHostFunction (p.func sampleUnsigned) (p.entries sampleUnsigned)]⟩

/-- The trusted values, with an assertion that signs the tree of the buyer. -/
def sampleRequest (p : Parts) : VerifyAcceptQuoteAuthorizationInput :=
  sampleTrusted (sampleAssertion (sampleReader p) sampleUnsigned.networkPassphrase p.buyerCreds
    (p.buyerRoot sampleUnsigned))

/-- The purchase. -/
def samplePurchase : Parts := sampleParts (.address (.contract 1))

/-- The purchase, with the text of the buyer's wallet instead of its address. -/
def sampleConfused : Parts := sampleParts (.string [67, 1])

theorem accepts_of_isOk {sdk : Sdk} {input : VerifyAcceptQuoteAuthorizationInput}
    (h : (verifyAcceptQuoteAuthorization sdk input).isOk = true) :
  Accepts sdk input
  := by
  cases hverify : verifyAcceptQuoteAuthorization sdk input with
  | error e => rw [hverify] at h; cases h
  | ok verified => exact ⟨verified, hverify⟩

theorem accepts_samplePurchase :
  Accepts (sampleReader samplePurchase) (sampleRequest samplePurchase)
  := accepts_of_isOk (by decide +kernel)

theorem accepts_sampleConfused :
  Accepts (sampleReader sampleConfused) (sampleRequest sampleConfused)
  := accepts_of_isOk (by decide +kernel)

theorem carries_sampleParts (buyerArg : ScVal) :
  Carries (sampleReader (sampleParts buyerArg)) (sampleRequest (sampleParts buyerArg))
    (sampleParts buyerArg)
  := ⟨rfl, rfl, rfl, rfl, rfl, rfl, _, List.Perm.refl _, rfl⟩

/-- The sample purchase is sound. -/
theorem sound_iff_addressed_sample :
  ∃ p, Sound (sampleReader samplePurchase) (sampleRequest samplePurchase) p
  := by
  apply (sound_iff_addressed (by decide) (by decide) accepts_samplePurchase).mpr
  apply (addressed_iff (carries_sampleParts (.address (.contract 1)))).mpr
  simp [sampleParts, sampleLegs]

/-- The verifier accepts a transaction in which a text stands for the wallet of the buyer. -/
theorem not_forall_sound :
  ¬ ∀ (sdk : Sdk) (input : VerifyAcceptQuoteAuthorizationInput),
    input.buyerWallet ≠ input.sellerWallet → 0 < input.expectedGross → Accepts sdk input →
    ∃ p, Sound sdk input p
  := by
  intro h
  obtain ⟨p, hp⟩ := h _ _ (by decide) (by decide) accepts_sampleConfused
  obtain rfl := hp.toCarries.unique (by decide) (carries_sampleParts _)
  exact nomatch ((encodeAcceptQuoteArgs_iff hp.toCarries).mp hp.opArgs).1

end Relayer
