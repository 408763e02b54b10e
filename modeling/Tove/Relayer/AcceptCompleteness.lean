import Tove.Relayer.AcceptSoundness

/-!
# Which purchases are accepted

The transaction that the builders make for a quote, signed by the buyer, is accepted unless the
treasury or the artist is paid at the wallet of the seller: the verifier takes every transfer to
this wallet for the one of the seller's proceeds.
-/

namespace Relayer

open Js

/-! ### Purchases -/

/-- The transaction has the operation and the two authorised invocations that the builders make for
the trusted values, and the passkey of the buyer has signed. -/
def Built (sdk : Sdk) (input : VerifyAcceptQuoteAuthorizationInput)
    (treasury artistPayout : JsString) : Prop :=
  ∃ op buyerRoot sellerRoot buyerCreds sellerCreds auth,
    buildAcceptQuoteOperation sdk input.settlerContract input.args = some op
    ∧ buildBuyerRootInvocation sdk input.settlerContract input.usdcContract treasury artistPayout
      input.args = some buyerRoot
    ∧ buildSellerRootInvocation sdk input.settlerContract input.args = some sellerRoot
    ∧ sdk.addressText buyerCreds.address = input.buyerWallet
    ∧ sdk.addressText sellerCreds.address = input.sellerWallet
    ∧ auth.Perm [⟨.address buyerCreds, buyerRoot⟩, ⟨.address sellerCreds, sellerRoot⟩]
    ∧ sdk.fromXDR input.txXdr input.networkPassphrase = some (.transaction ⟨[op.withAuth auth]⟩)
    ∧ input.Valid sdk input.networkPassphrase buyerCreds buyerRoot

section Builders

variable {sdk : Sdk} {input : VerifyAcceptQuoteAuthorizationInput} {p : Parts}
  {treasury artistPayout usdc : JsString}

/-- The transfer pays the amount to the address with the text. -/
structure Leg.Pays (sdk : Sdk) (leg : Leg) (payment : JsString × ℤ) : Prop where
  target : sdk.addressToScVal payment.1 = some leg.target
  amount : leg.amount.val = payment.2

theorem Leg.Pays.readsAs_iff {leg : Leg} {payment : JsString × ℤ} {wallet : JsString}
    (h : leg.Pays sdk payment) :
  ReadsAs sdk wallet leg.target ↔ payment.1 = wallet
  := by
  obtain ⟨a, ha, htarget⟩ := Option.map_eq_some_iff.mp h.target
  rw [sdk.fromString_eq_some_iff] at ha
  rw [ReadsAs, ← htarget, Sdk.scValToNative, Native.string.injEq, ha]

theorem contractCall_eq_some {contract : JsString} {method : String} {args : List ScVal}
    {fn : InvokeContractArgs} (h : sdk.contractCall contract method args = some fn) :
  ∃ a, sdk.addressText a = contract ∧ fn = ⟨a, Utf8.ascii method, args⟩
  := by
  unfold Sdk.contractCall at h
  split at h
  · rename_i hash hcontract
    cases h
    exact ⟨_, (sdk.fromString_eq_some_iff _ _).mp hcontract, rfl⟩
  · cases h

/-- A transfer that is built. -/
theorem usdcTransferSub_eq_some {source target : JsString} {amount : ℤ} {buyer token : ScAddress}
    {sub : AuthorizedInvocation} (hbuyer : sdk.addressText buyer = source)
    (htoken : sdk.addressText token = usdc)
    (h : usdcTransferSub sdk usdc source target amount = some sub) :
  ∃ leg : Leg, leg.source = .address buyer ∧ leg.Pays sdk (target, amount)
    ∧ leg.invocation token = sub
  := by
  simp only [usdcTransferSub, Option.bind_eq_bind, Option.bind_eq_some_iff, Option.pure_def,
    Option.some_inj] at h
  obtain ⟨_, hsource, targetArg, htarget, _, hamount, fn, hfn, rfl⟩ := h
  obtain ⟨amountArg, rfl, rfl⟩ := i128ToScVal_eq_some.mp hamount
  obtain ⟨a, ha, rfl⟩ := contractCall_eq_some hfn
  obtain rfl := sdk.addressText_injective (ha.trans htoken.symm)
  rw [Sdk.addressToScVal, ← hbuyer, sdk.fromString_addressText] at hsource
  cases hsource
  exact ⟨⟨.address buyer, targetArg, amountArg⟩, rfl, ⟨htarget, rfl⟩, rfl⟩

/-- The transfers that are built make the payments. -/
theorem legs_of_mapM {payments : List (JsString × ℤ)} {source : JsString} {buyer token : ScAddress}
    {subs : List AuthorizedInvocation} (hbuyer : sdk.addressText buyer = source)
    (htoken : sdk.addressText token = usdc)
    (h : payments.mapM (fun payment => usdcTransferSub sdk usdc source payment.1 payment.2)
      = some subs) :
  ∃ legs : List Leg, legs.map (Leg.invocation token) = subs
    ∧ (∀ leg ∈ legs, leg.source = .address buyer)
    ∧ List.Forall₂ (Leg.Pays sdk) legs payments
  := by
  induction payments generalizing subs with
  | nil =>
    obtain rfl : [] = subs := by simpa using h
    exact ⟨[], rfl, by simp, .nil⟩
  | cons payment payments ih =>
    simp only [List.mapM_cons, Option.bind_eq_bind, Option.bind_eq_some_iff, Option.pure_def,
      Option.some_inj] at h
    obtain ⟨sub, hsub, rest, hrest, rfl⟩ := h
    obtain ⟨leg, hsource, hpays, rfl⟩ := usdcTransferSub_eq_some hbuyer htoken hsub
    obtain ⟨legs, rfl, hsources, hlegs⟩ := ih hrest
    exact ⟨leg :: legs, rfl, List.forall_mem_cons.mpr ⟨hsource, hsources⟩, .cons hpays hlegs⟩

/-! ### The payments -/

/-- The payments of a trade: a price below 67 units is paid to the seller alone. -/
theorem payments_eq {args : AcceptQuoteArgs} (h : 0 < args.gross) :
  (usdcLegs treasury artistPayout args).filter (fun leg => 0 < leg.2)
    = if 66 < args.gross then usdcLegs treasury artistPayout args
      else [(args.seller, (computeUsdcSplit args.gross).sellerNet)]
  := by
  obtain ⟨hplatform, hartist⟩ := cut_pos_iff h.le
  have hlt := lt_sellerNet h
  have hsplit := @split_sum args.gross
  simp only [usdcLegs, List.filter_cons, List.filter_nil, decide_eq_true_eq, hplatform, hartist]
  have hnet : 0 < (computeUsdcSplit args.gross).sellerNet := by omega
  split_ifs <;> rfl

/-- A condition on transfers is one on payments. -/
theorem forall_legs_iff {legs : List Leg} {payments : List (JsString × ℤ)} {P : Leg → Prop}
    {Q : JsString × ℤ → Prop} (h : List.Forall₂ (Leg.Pays sdk) legs payments)
    (hPQ : ∀ leg payment, leg.Pays sdk payment → (P leg ↔ Q payment)) :
  (∀ leg ∈ legs, P leg) ↔ ∀ payment ∈ payments, Q payment
  := by
  induction h with
  | nil => simp
  | cons hpays _ ih => rw [List.forall_mem_cons, List.forall_mem_cons, hPQ _ _ hpays, ih]

theorem amounts_eq {legs : List Leg} {payments : List (JsString × ℤ)}
    (h : List.Forall₂ (Leg.Pays sdk) legs payments) :
  (legs.map fun leg => leg.amount.val) = payments.map Prod.snd
  := by
  induction h with
  | nil => rfl
  | cons hpays _ ih => rw [List.map_cons, List.map_cons, hpays.amount, ih]

/-- The token is known when there is a transfer. -/
theorem exists_token {payments : List (JsString × ℤ)} {source : JsString}
    {subs : List AuthorizedInvocation} (hne : payments ≠ [])
    (h : payments.mapM (fun payment => usdcTransferSub sdk usdc source payment.1 payment.2)
      = some subs) :
  ∃ token, sdk.addressText token = usdc
  := by
  obtain ⟨payment, payments, rfl⟩ := List.exists_cons_of_ne_nil hne
  simp only [List.mapM_cons, usdcTransferSub, Option.bind_eq_bind, Option.bind_eq_some_iff] at h
  obtain ⟨_, ⟨_, _, _, _, _, _, _, hfn, _⟩, _⟩ := h
  obtain ⟨token, htoken, _⟩ := contractCall_eq_some hfn
  exact ⟨token, htoken⟩

/-- What a transaction that is built is made of. -/
theorem Built.parts (hgross : 0 < input.expectedGross)
    (h : Built sdk input treasury artistPayout) :
  ∃ p, Carries sdk input p
    ∧ p.buyerArg = .address p.buyerCreds.address ∧ p.sellerArg = .address p.sellerCreds.address
    ∧ (∀ leg ∈ p.legs, leg.source = .address p.buyerCreds.address)
    ∧ List.Forall₂ (Leg.Pays sdk) p.legs
      ((usdcLegs treasury artistPayout input.args).filter fun leg => 0 < leg.2)
    ∧ input.Valid sdk input.networkPassphrase p.buyerCreds (p.buyerRoot input)
  := by
  obtain ⟨op, buyerRoot, sellerRoot, buyerCreds, sellerCreds, auth, hop, hbuyerRoot, hsellerRoot,
    hbuyer, hseller, hperm, htx, hvalid⟩ := h
  simp only [buildBuyerRootInvocation, buildSellerRootInvocation, buildAcceptQuoteOperation,
    acceptQuoteRootFn, encodeAcceptQuoteArgs, encodeAuthTupleArgs, Option.bind_eq_bind,
    Option.bind_eq_some_iff, Option.pure_def, Option.some_inj] at hop hbuyerRoot hsellerRoot
  obtain ⟨_, ⟨buyerArg, hbuyerArg, sellerArg, hsellerArg, count, hcount, gross, hgrossArg, rfl⟩,
    fn, hfn, rfl⟩ := hop
  obtain ⟨subs, hsubs, buyerFn, ⟨_, ⟨_, hcount', _, hgross', rfl⟩, hbuyerFn⟩, rfl⟩ := hbuyerRoot
  obtain ⟨sellerFn, ⟨_, ⟨_, hcount'', _, hgross'', rfl⟩, hsellerFn⟩, rfl⟩ := hsellerRoot
  cases hcount.symm.trans hcount'
  cases hcount.symm.trans hcount''
  cases hgrossArg.symm.trans hgross'
  cases hgrossArg.symm.trans hgross''
  obtain ⟨settler, hsettler, rfl⟩ := contractCall_eq_some hfn
  obtain ⟨_, hsettler', rfl⟩ := contractCall_eq_some hbuyerFn
  obtain ⟨_, hsettler'', rfl⟩ := contractCall_eq_some hsellerFn
  obtain rfl := sdk.addressText_injective (hsettler.trans hsettler'.symm)
  obtain rfl := sdk.addressText_injective (hsettler.trans hsettler''.symm)
  obtain ⟨usdc, husdc⟩ := exists_token (by rw [payments_eq hgross]; split <;> simp [usdcLegs]) hsubs
  obtain ⟨legs, rfl, hsource, hpays⟩ := legs_of_mapM hbuyer husdc hsubs
  cases (Sdk.addressToScVal_eq hbuyer).symm.trans hbuyerArg
  cases (Sdk.addressToScVal_eq hseller).symm.trans hsellerArg
  exact ⟨⟨settler, usdc, .address buyerCreds.address, .address sellerCreds.address, count, gross,
    buyerCreds, sellerCreds, legs⟩,
    ⟨hsettler, husdc, hcount, hgrossArg, hbuyer, hseller, auth, hperm, htx⟩, rfl, rfl, hsource,
    hpays, hvalid⟩

/-- No part of the price but the proceeds of the seller is paid to the seller. -/
theorem payments_apart_iff {args : AcceptQuoteArgs} (h : 0 < args.gross) :
  (∀ payment ∈ (usdcLegs treasury artistPayout args).filter fun leg => 0 < leg.2,
      payment.1 = args.seller → payment.2 = (computeUsdcSplit args.gross).sellerNet)
    ↔ (66 < args.gross → treasury ≠ args.seller ∧ artistPayout ≠ args.seller)
  := by
  have hlt := lt_sellerNet h
  obtain ⟨hplatform, hartist⟩ := cut_pos_iff h.le
  rw [payments_eq h]
  split_ifs with hfee
  · have hplatform := hplatform.mpr hfee
    have hartist := hartist.mpr hfee
    have hplatform_ne : (computeUsdcSplit args.gross).platformCut
      ≠ (computeUsdcSplit args.gross).sellerNet := by omega
    have hartist_ne : (computeUsdcSplit args.gross).artistCut
      ≠ (computeUsdcSplit args.gross).sellerNet := by omega
    simp [usdcLegs, hfee, hplatform_ne, hartist_ne]
  · simp [hfee]

/-- The seller is among those who are paid, who are at most three. -/
theorem seller_mem_payments {args : AcceptQuoteArgs} (h : 0 < args.gross) :
  (args.seller, (computeUsdcSplit args.gross).sellerNet)
      ∈ (usdcLegs treasury artistPayout args).filter (fun leg => 0 < leg.2)
    ∧ ((usdcLegs treasury artistPayout args).filter fun leg => 0 < leg.2).length ≤ 3
  := by
  rw [payments_eq h]
  split_ifs <;> simp [usdcLegs]

theorem sum_payments {args : AcceptQuoteArgs} (h : 0 < args.gross) :
  (((usdcLegs treasury artistPayout args).filter fun leg => 0 < leg.2).map Prod.snd).sum = args.gross
  := by
  have hsplit := @split_sum args.gross
  obtain ⟨hplatform, hartist⟩ := cut_pos_iff h.le
  rw [payments_eq h]
  split_ifs with hfee
  · simp only [usdcLegs, List.map_cons, List.map_nil, List.sum_cons, List.sum_nil]
    omega
  · rw [computeUsdcSplit_of_nonneg h.le]
    simp only [List.map_cons, List.map_nil, List.sum_cons, List.sum_nil]
    omega

/-- The purchase that is built and signed is accepted just when there are no fees, or they are not
paid at the wallet of the seller. -/
theorem accepts_built_iff (hdistinct : input.buyerWallet ≠ input.sellerWallet)
    (hgross : 0 < input.expectedGross) (h : Built sdk input treasury artistPayout) :
  Accepts sdk input ↔ (66 < input.expectedGross →
    treasury ≠ input.sellerWallet ∧ artistPayout ≠ input.sellerWallet)
  := by
  obtain ⟨p, hp, hbuyerArg, hsellerArg, hsource, hpays, hvalid⟩ := h.parts hgross
  have hpositive : ∀ leg ∈ p.legs, 0 < leg.amount.val := by
    rw [forall_legs_iff hpays (Q := fun payment => 0 < payment.2) fun leg payment hleg => by
      rw [hleg.amount]]
    intro payment hpayment
    simpa using (List.mem_filter.mp hpayment).2
  have hgood : (∀ leg ∈ p.legs, leg.Good sdk input)
      ↔ ∀ leg ∈ p.legs, ReadsAs sdk input.sellerWallet leg.target →
        leg.amount.val = (computeUsdcSplit input.expectedGross).sellerNet := by
    constructor
    · exact fun h leg hleg => (h leg hleg).sellerNet
    · intro h leg hleg
      refine ⟨?_, hpositive leg hleg, h leg hleg⟩
      rw [hsource leg hleg]
      exact readsAs_address hp.buyer
  have hpayments := forall_legs_iff hpays (P := fun leg => ReadsAs sdk input.sellerWallet leg.target →
        leg.amount.val = (computeUsdcSplit input.expectedGross).sellerNet)
    fun leg payment hleg => by rw [hleg.readsAs_iff, hleg.amount]
  have hapart := hgood.trans (hpayments.trans (payments_apart_iff hgross))
  rw [accepts_iff hdistinct]
  constructor
  · rintro ⟨q, hq⟩
    obtain rfl := hp.unique hdistinct hq.toCarries
    exact hapart.mp hq.good
  · intro hcondition
    have hsum : (p.legs.map fun leg => leg.amount.val).sum = input.expectedGross := by
      rw [amounts_eq hpays]
      exact sum_payments hgross
    have hlength := hpays.length_eq
    obtain ⟨hmem, hle⟩ := @seller_mem_payments treasury artistPayout input.args hgross
    have hseen : ∃ leg ∈ p.legs, ReadsAs sdk input.sellerWallet leg.target := by
      by_contra hnone
      push Not at hnone
      rw [forall_legs_iff hpays (Q := fun payment => payment.1 ≠ input.sellerWallet)
        fun leg payment hleg => by rw [hleg.readsAs_iff]] at hnone
      exact hnone _ hmem rfl
    have hne := List.length_pos_of_mem hmem
    exact ⟨p, hp, by rw [hbuyerArg]; exact readsAs_address hp.buyer,
      by rw [hsellerArg]; exact readsAs_address hp.seller, by omega, by omega,
      hapart.mpr hcondition, hsum, fun _ => hseen, hvalid⟩

end Builders

/-! ### A sample -/

theorem one_le_max :
  ((1 : ℕ) : ℤ) ≤ Soroban.MAX_I128
  := by decide

theorem ninetyEight_le_max :
  ((98 : ℕ) : ℤ) ≤ Soroban.MAX_I128
  := by decide

/-- The purchase, with the royalty paid at the wallet of the seller, who is the artist. -/
def sampleAliased : Parts where
  __ := samplePurchase
  legs := [⟨.address (.contract 1), .address (.contract 5), sampleAmount 1 one_le_max⟩,
    ⟨.address (.contract 1), .address (.contract 2), sampleAmount 1 one_le_max⟩,
    ⟨.address (.contract 1), .address (.contract 2), sampleAmount 98 ninetyEight_le_max⟩]

theorem built_samplePurchase :
  Built (sampleReader samplePurchase) (sampleRequest samplePurchase) (sampleText (.contract 5))
    (sampleText (.contract 6))
  := ⟨_, samplePurchase.buyerRoot sampleUnsigned, _, sampleCreds 1, sampleCreds 2, _, rfl, rfl, rfl,
    rfl, rfl, List.Perm.refl _, rfl, valid_of_isOk "" (by decide +kernel)⟩

theorem built_sampleAliased :
  Built (sampleReader sampleAliased) (sampleRequest sampleAliased) (sampleText (.contract 5))
    (sampleText (.contract 2))
  := ⟨_, sampleAliased.buyerRoot sampleUnsigned, _, sampleCreds 1, sampleCreds 2, _, rfl, rfl, rfl,
    rfl, rfl, List.Perm.refl _, rfl, valid_of_isOk "" (by decide +kernel)⟩

/-- The sample purchase is accepted. -/
theorem accepts_built_iff_sample :
  Accepts (sampleReader samplePurchase) (sampleRequest samplePurchase)
  := (accepts_built_iff (by decide) (by decide) built_samplePurchase).mpr (by decide)

/-- A purchase from the artist is not accepted. -/
theorem not_forall_built_accepted :
  ¬ ∀ (sdk : Sdk) (input : VerifyAcceptQuoteAuthorizationInput) (treasury artistPayout : JsString),
    0 < input.expectedCount → 0 < input.expectedGross → input.buyerWallet ≠ input.sellerWallet →
    Built sdk input treasury artistPayout → Accepts sdk input
  := by
  intro h
  obtain ⟨verified, hverified⟩ := h _ _ _ _ (by decide) (by decide) (by decide) built_sampleAliased
  have hrejected : (verifyAcceptQuoteAuthorization (sampleReader sampleAliased)
      (sampleRequest sampleAliased)).isOk = false := by decide +kernel
  rw [hverified] at hrejected
  cases hrejected

end Relayer
