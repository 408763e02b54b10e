import Tove.Wallets.RotationLedger

/-!
# The ledger of careful runs

The invariant that runs of careful steps keep. The transfers of an item are all the same
transfer, so one of them lands at most; a token of an item that is live, of a rotation that is
open, is gone only when the transfer of the item has landed. The ledger is exact when the
invariant holds.
-/

namespace Rotation

open Soroban Transition Rows

variable {s s' : State} {l : Label} {id : ℕ} {item item' : WalletRotationTransferItem}

/-! ### The invariant -/

/-- A transfer is that of an item as it is stored, to the destination of the rotation. -/
structure Matches (s : State) (t : Sent) (item : WalletRotationTransferItem)
    (row : WalletRotationTransfer) : Prop where
  stored : s.items[t.item]? = some item
  live : item.deleted = false
  tx : item.unsignedTxXdr = t.tx
  token : item.tokenContract = t.tx.token
  amount : item.amountScaled = t.tx.amount
  rotation : s.rotations[item.rotationId]? = some row
  kept : row.deleted = false
  recipient : row.destinationAddress = t.tx.recipient

/-- The transfers, the items and the ledger are in order. -/
structure Tracked (s : State) : Prop where
  known : ∀ n, Known s (s.calls n)
  rotation : ∀ (id : ℕ) (item : WalletRotationTransferItem), s.items[id]? = some item →
    ∃ row, s.rotations[item.rotationId]? = some row
  unique : ∀ (id id' : ℕ) (item item' : WalletRotationTransferItem), s.items[id]? = some item →
    s.items[id']? = some item' → item.deleted = false → item'.deleted = false →
    item.rotationId = item'.rotationId → item.tokenContract = item'.tokenContract → id = id'
  active : ∀ (r r' : ℕ) (row row' : WalletRotationTransfer), s.rotations[r]? = some row →
    s.rotations[r']? = some row' → row.Active → row'.Active → r = r'
  sent : ∀ t ∈ s.pending ++ s.landed, ∃ item row, Matches s t item row
  once : (s.landed.map Sent.item).Nodup
  confirmed : ∀ (id : ℕ) (item : WalletRotationTransferItem), s.items[id]? = some item →
    item.status = .confirmed → Landed s id ∧ Recorded s id
  rows : ∀ entry ∈ s.registry, ∃ t ∈ s.landed, t.item = entry.sourceRef ∧ Describes entry t
  refs : (s.registry.map RegistryEvent.sourceRef).Nodup
  closed : ∀ (id : ℕ) (item : WalletRotationTransferItem), s.items[id]? = some item →
    item.deleted = false → Closed s item.rotationId →
    item.status = .pending ∧ Untouched s id ∨ Landed s id ∧ Recorded s id
  funded : ∀ (id : ℕ) (item : WalletRotationTransferItem), s.items[id]? = some item →
    item.deleted = false → ¬ Closed s item.rotationId → ¬ Landed s id →
    0 < s.balances item.tokenContract

/-! ### What is left alone -/

/-- An item that a call is about, or that has a transfer, is not untouched. -/
theorem not_untouched_of_about {n : ℕ} (h : (s.calls n).about = some id) :
  ¬ Untouched s id
  := fun huntouched => huntouched.calls n h

theorem not_untouched_of_sent {t : Sent} (h : t ∈ s.pending ++ s.landed) :
  ¬ Untouched s t.item
  := fun huntouched => huntouched.sent t h rfl

/-- What a transfer and its ledger row rest on, of an item. -/
structure Keeps (item item' : WalletRotationTransferItem) : Prop where
  rotationId : item'.rotationId = item.rotationId
  token : item'.tokenContract = item.tokenContract
  amount : item'.amountScaled = item.amountScaled
  tx : item'.unsignedTxXdr = item.unsignedTxXdr
  deleted : item'.deleted = item.deleted

theorem Keeps.refl (item : WalletRotationTransferItem) :
  Keeps item item
  := ⟨rfl, rfl, rfl, rfl, rfl⟩

/-- A careful step builds and drops what is untouched only. -/
theorem ItemUpdate.keeps (hc : Careful s l s') (hitem : s.items[id]? = some item)
    (hlive : item.deleted = false) (h : ItemUpdate s l s' id item item') :
  Keeps item item' ∨ Untouched s id
  := by
  cases h with
  | built hl _ =>
    subst hl
    exact .inr (hc.2 id item hitem ⟨rfl, hlive⟩ rfl)
  | dropped hl =>
    subst hl
    exact .inr (hc id item hitem ⟨rfl, hlive⟩)
  | claimed | failed | confirmed | reconciled => exact .inl ⟨rfl, rfl, rfl, rfl, rfl⟩

/-- An item that is touched keeps what its transfer rests on. -/
theorem Step.keeps (hs : Tracked s) (h : Step s l s') (hc : Careful s l s')
    (hitem : s.items[id]? = some item) (hlive : item.deleted = false) (htouched : ¬ Untouched s id) :
  ∃ item', s'.items[id]? = some item' ∧ Keeps item item'
  := by
  obtain ⟨item', hitem', rfl | hupdate⟩ := h.item_before hs.known hitem
  · exact ⟨item', hitem', .refl item'⟩
  · exact ⟨item', hitem', (hupdate.keeps hc hitem hlive).resolve_right htouched⟩

/-- The destination of a rotation is written once. -/
theorem RotationUpdate.destination {rotationId : ℕ} {row row' : WalletRotationTransfer}
    (h : RotationUpdate l rotationId row row') :
  row'.destinationAddress = row.destinationAddress
  := by cases h <;> rfl

/-- A rotation with an item that is touched is not canceled. -/
theorem Step.rotation_keeps {row : WalletRotationTransfer} (h : Step s l s') (hc : Careful s l s')
    (hitem : s.items[id]? = some item) (hlive : item.deleted = false) (htouched : ¬ Untouched s id)
    (hrow : s.rotations[item.rotationId]? = some row) (hkept : row.deleted = false) :
  ∃ row', s'.rotations[item.rotationId]? = some row' ∧ row'.deleted = false
    ∧ row'.destinationAddress = row.destinationAddress
    ∧ (row' = row ∨ RotationUpdate l item.rotationId row row')
  := by
  obtain ⟨row', hrow', heq | hupdate⟩ := h.rotation hrow
  · exact ⟨row', hrow', by rw [heq, hkept], by rw [heq], .inl heq⟩
  · refine ⟨row', hrow', ?_, hupdate.destination, .inr hupdate⟩
    cases hupdate with
    | demoted | completed => exact hkept
    | dropped hl =>
      subst hl
      exact absurd (hc id item hitem ⟨rfl, hlive⟩) htouched

/-- A transfer stays that of its item. -/
theorem Matches.step {t : Sent} {row : WalletRotationTransfer} (hs : Tracked s) (h : Step s l s')
    (hc : Careful s l s') (htouched : ¬ Untouched s t.item) (hmatch : Matches s t item row) :
  ∃ item' row', Matches s' t item' row'
  := by
  obtain ⟨item', hitem', hkeeps⟩ := h.keeps hs hc hmatch.stored hmatch.live htouched
  obtain ⟨row', hrow', hkept, hdestination, _⟩ :=
    h.rotation_keeps hc hmatch.stored hmatch.live htouched hmatch.rotation hmatch.kept
  refine ⟨item', row', hitem', ?_, ?_, ?_, ?_, ?_, hkept, ?_⟩
  · rw [hkeeps.deleted, hmatch.live]
  · rw [hkeeps.tx, hmatch.tx]
  · rw [hkeeps.token, hmatch.token]
  · rw [hkeeps.amount, hmatch.amount]
  · rw [hkeeps.rotationId, hrow']
  · rw [hdestination, hmatch.recipient]

/-- What is untouched stays so, unless it is claimed. -/
theorem Step.untouched (h : Step s l s') (hclaim : ∀ copy, l = .claim copy → copy.1 ≠ id)
    (huntouched : Untouched s id) :
  Untouched s' id
  := by
  constructor
  · intro t ht
    rw [List.mem_append] at ht
    cases h.chain with
    | nothing hlanded hpending =>
      rw [hlanded] at ht
      exact huntouched.sent t (List.mem_append.mpr (ht.imp_left fun hmem => hpending hmem))
    | @sent n rotationId copies copy row hphase _ _ _ _ hlanded hpending =>
      rw [hlanded, hpending, List.mem_append, or_right_comm, ← List.mem_append] at ht
      rcases ht with ht | ht
      · exact huntouched.sent t ht
      · rw [List.mem_singleton.mp ht]
        intro hid
        exact huntouched.calls n (by rw [hphase, Phase.about, show copy.1 = id from hid])
    | @landed t' ht' _ _ hlanded hpending =>
      rw [hlanded, List.mem_append, List.mem_singleton] at ht
      rcases ht with ht | ht | rfl
      · exact huntouched.sent t (List.mem_append_left _ (hpending ht))
      · exact huntouched.sent t (List.mem_append_right _ ht)
      · exact huntouched.sent t (List.mem_append_left _ ht')
    | withdrawn _ hlanded hpending =>
      rw [hlanded] at ht
      exact huntouched.sent t (List.mem_append.mpr (ht.imp_left fun hmem => hpending hmem))
  · intro n habout
    rcases h.about habout with hbefore | ⟨copy, hl, hcopy⟩
    · exact huntouched.calls n hbefore
    · exact hclaim copy hl hcopy

/-! ### What the calls know -/

theorem Copied.step {rotationId : ℕ} {copies : List Copy} (hs : Tracked s) (h : Step s l s')
    (hcopied : Copied s rotationId copies) :
  Copied s' rotationId copies
  := by
  intro copy hcopy
  obtain ⟨hrotation, item, hitem, hkey⟩ := hcopied copy hcopy
  obtain ⟨item', hitem', rfl | hupdate⟩ := h.item_before hs.known hitem
  · exact ⟨hrotation, item', hitem', hkey⟩
  · exact ⟨hrotation, item', hitem', by rwa [hupdate.key.1, hupdate.key.2]⟩

theorem Sending.step {n rotationId : ℕ} {copy : Copy} (hs : Tracked s) (h : Step s l s')
    (hc : Careful s l s') (habout : (s.calls n).about = some copy.1)
    (hsending : Sending s rotationId copy) :
  Sending s' rotationId copy
  := by
  obtain ⟨item, row, hitem, ⟨rfl, hlive⟩, htoken, hamount, htx, hrow, hkept, hactive⟩ := hsending
  have htouched := not_untouched_of_about habout
  obtain ⟨item', hitem', hkeeps⟩ := h.keeps hs hc hitem hlive htouched
  obtain ⟨row', hrow', hkept', _, hupdate⟩ := h.rotation_keeps hc hitem hlive htouched hrow hkept
  refine ⟨item', row', hitem', ⟨hkeeps.rotationId, hkeeps.deleted.trans hlive⟩,
    hkeeps.token.trans htoken, hkeeps.amount.trans hamount, hkeeps.tx.trans htx, hrow', hkept', ?_⟩
  rcases hactive with hactive | hlanded
  · rcases hupdate with rfl | hupdate
    · exact .inl hactive
    · cases hupdate with
      | demoted => exact .inl ⟨by simp, hkept⟩
      | completed hl =>
        subst hl
        have hstatus := hc item (List.mem_of_getElem? hitem) ⟨rfl, hlive⟩
        exact .inr (h.landed (hs.confirmed copy.1 item hitem hstatus).1)
      | dropped => cases hkept'
  · exact .inr (h.landed hlanded)

theorem Drained.step (hs : Tracked s) (h : Step s l s') (hdrained : Drained s id) :
  Drained s' id
  := by
  obtain ⟨item, hitem, hcases⟩ := hdrained
  obtain ⟨item', hitem', hupdate⟩ := h.item_before hs.known hitem
  refine ⟨item', hitem', ?_⟩
  rcases hcases with hdeleted | hclosed | hlanded
  · left
    rcases hupdate with rfl | hupdate
    · exact hdeleted
    · cases hupdate with
      | dropped => rfl
      | _ => exact hdeleted
  · right
    left
    rcases hupdate with rfl | hupdate
    · exact h.closed hclosed
    · rw [hupdate.key.1]
      exact h.closed hclosed
  · exact .inr (.inr (h.landed hlanded))

/-- What a call knows stays true. -/
theorem Known.step {n : ℕ} (hs : Tracked s) (h : Step s l s') (hc : Careful s l s') :
  Known s' (s.calls n)
  := by
  have hknown := hs.known n
  cases hphase : s.calls n with
  | building =>
    rw [hphase] at hknown
    obtain ⟨⟨row, hrow⟩, hcopied⟩ := hknown
    obtain ⟨row', hrow', _⟩ := h.rotation hrow
    exact ⟨⟨row', hrow'⟩, hcopied.step hs h⟩
  | submitting =>
    rw [hphase] at hknown
    exact Copied.step hs h hknown
  | claimed | sent | caught =>
    rw [hphase] at hknown
    exact ⟨hknown.1.step hs h, hknown.2.step hs h hc (by rw [hphase]; rfl)⟩
  | polling | reconciling =>
    rw [hphase] at hknown
    exact ⟨hknown.1.step hs h, fun copy hcopy => (hknown.2 copy hcopy).step hs h⟩
  | _ => trivial

/-- A balance that is gone proves that the transfer of an item has landed, if the item is live
and its rotation open. -/
theorem Tracked.drained {copy : Copy} {rotationId : ℕ} {copies : List Copy} (hs : Tracked s)
    (hcopied : Copied s rotationId copies) (hcopy : copy ∈ copies)
    (hzero : s.balances copy.2.tokenContract = 0) :
  Drained s copy.1
  := by
  obtain ⟨_, item, hitem, _, htoken⟩ := hcopied copy hcopy
  refine ⟨item, hitem, ?_⟩
  by_contra hnot
  rw [not_or, not_or, Bool.not_eq_true] at hnot
  have hfunded := hs.funded copy.1 item hitem hnot.1 hnot.2.1 hnot.2.2
  rw [htoken, hzero] at hfunded
  exact Nat.lt_irrefl 0 hfunded

/-- What is reconciled has landed. -/
theorem Tracked.landed_of_drained {copy : Copy} (hs : Tracked s) (hcurrent : Current s copy)
    (hitem : s.items[copy.1]? = some item) (hstuck : item.Stuck) (hdrained : Drained s copy.1) :
  Landed s copy.1
  := by
  obtain ⟨item₁, hitem₁, hlive, _⟩ := hcurrent
  obtain ⟨item₂, hitem₂, hcases⟩ := hdrained
  obtain rfl := Option.some.inj (hitem.symm.trans hitem₁)
  obtain rfl := Option.some.inj (hitem.symm.trans hitem₂)
  rcases hcases with hdeleted | hclosed | hlanded
  · rw [hlive] at hdeleted
    cases hdeleted
  · rcases hs.closed copy.1 item hitem hlive hclosed with ⟨hpending, _⟩ | ⟨hlanded, _⟩
    · rcases hstuck with hstatus | hstatus <;> rw [hpending] at hstatus <;> cases hstatus
    · exact hlanded
  · exact hlanded

/-- The transfer of an item that is claimed as it is stored may be sent. -/
theorem Tracked.sending {copy : Copy} {rotationId : ℕ} {copies : List Copy}
    {items : List WalletRotationTransferItem} (hs : Tracked s)
    (hcopied : Copied s rotationId copies) (hcopy : copy ∈ copies)
    (hclaim : claimItemForSubmit s.items copy.1 = some items) (hcurrent : Current s copy)
    (hopen : ¬ Closed s copy.2.rotationId) :
  Sending { s with items } rotationId copy
  := by
  obtain ⟨item, hitem, _, rfl⟩ := compareAndSet_eq_some.mp hclaim
  obtain ⟨hrotation, item₁, hitem₁, hof, htoken⟩ := hcopied copy hcopy
  obtain ⟨item₂, hitem₂, hlive, hamount, htx⟩ := hcurrent
  obtain rfl := Option.some.inj (hitem.symm.trans hitem₁)
  obtain rfl := Option.some.inj (hitem.symm.trans hitem₂)
  obtain ⟨row, hrow⟩ := hs.rotation copy.1 item hitem
  rw [hof] at hrow
  have hactive : row.Active := by
    by_contra hnot
    exact hopen ⟨row, hrotation ▸ hrow, hnot⟩
  obtain ⟨hlt, _⟩ := List.getElem?_eq_some_iff.mp hitem
  exact ⟨_, row, List.getElem?_set_self hlt, ⟨hof, hlive⟩, htoken, hamount, htx, hrow, hactive.2,
    .inl hactive⟩

/-- What the calls know after a step. -/
theorem Step.known (hs : Tracked s) (h : Step s l s') (hc : Careful s l s') :
  ∀ n, Known s' (s'.calls n)
  := by
  have hframe : ∀ n, Known s' (s.calls n) := fun n => Known.step hs h hc
  have henter : ∀ n phase, Known s' phase → ∀ n', Known s' (Function.update s.calls n phase n') :=
    fun n phase hphase => (Function.forall_update_iff s.calls fun _ => Known s').mpr
      ⟨hphase, fun n' _ => hframe n'⟩
  have hbefore : ∀ {n phase}, s.calls n = phase → Known s phase ∧ Known s' phase := by
    rintro n phase rfl
    exact ⟨hs.known n, hframe n⟩
  cases h with
  | found _ _ hrow | conflict _ hrow => exact henter _ _ ⟨⟨_, hrow⟩, copied_itemsOf⟩
  | create => exact henter _ _ ⟨⟨_, List.getElem?_concat_length⟩, by simp [Copied]⟩
  | skip hphase | upsert hphase => exact henter _ _ (hbefore hphase).2
  | load => exact henter _ _ copied_itemsOf
  | claim hphase hcopy _ hclaim =>
    have hcopied := hbefore hphase
    exact henter _ _ ⟨hcopied.2, hs.sending hcopied.1 hcopy hclaim hc.1 hc.2⟩
  | send hphase | confirmLost hphase => exact henter _ _ (hbefore hphase).2
  | confirm hphase => exact henter _ _ (hbefore hphase).2.1.mark
  | fail hphase =>
    rcases hphase with hphase | hphase | hphase
    · exact henter _ _ (hbefore hphase).2.1.mark
    · exact henter _ _ (hbefore hphase).2.1.mark
    · exact henter _ _ (hbefore hphase).2.1.mark
  | poll =>
    refine henter _ _ ⟨?_, by simp⟩
    rw [List.append_nil]
    exact Copied.subset copied_itemsOf (List.filter_subset_self _)
  | @drained n rotationId copies stuck drained copy hphase hzero =>
    obtain ⟨hcopied, hdrained⟩ := (hbefore hphase).1
    refine henter _ _ ⟨hcopied.subset (by simp), ?_⟩
    intro copy' hcopy'
    rcases List.mem_append.mp hcopy' with hcopy' | hcopy'
    · exact hdrained copy' hcopy'
    · rw [List.mem_singleton.mp hcopy']
      exact hs.drained hcopied (by simp) hzero
  | held hphase =>
    obtain ⟨hcopied, hdrained⟩ := (hbefore hphase).2
    exact henter _ _ ⟨hcopied.subset (by simp), hdrained⟩
  | polled hphase => exact henter _ _ (hbefore hphase).2
  | reconcile hphase | unstuck hphase =>
    obtain ⟨hcopied, hdrained⟩ := (hbefore hphase).2
    exact henter _ _ ⟨hcopied.subset (by simp), fun copy hcopy => hdrained copy (by simp [hcopy])⟩
  | land | fade | deposit | withdraw => exact hframe
  | _ => exact henter _ _ trivial

/-! ### The invariant is kept -/

/-- A transfer that may land is not of an item that is closed. -/
theorem Tracked.not_closed {t : Sent} {row : WalletRotationTransfer} (hs : Tracked s)
    (ht : t ∈ s.pending) (hmatch : Matches s t item row)
    (hfresh : ∀ t' ∈ s.landed, t'.tx.nonce ≠ t.tx.nonce) :
  ¬ Landed s t.item ∧ ¬ Closed s item.rotationId
  := by
  have hlanded : ¬ Landed s t.item := by
    rintro ⟨t', ht', hitem⟩
    obtain ⟨item', row', hmatch'⟩ := hs.sent t' (List.mem_append_right _ ht')
    have hstored := hmatch'.stored
    rw [hitem, hmatch.stored] at hstored
    obtain rfl := Option.some.inj hstored
    exact hfresh t' ht' (by rw [← hmatch'.tx, hmatch.tx])
  refine ⟨hlanded, ?_⟩
  intro hclosed
  rcases hs.closed t.item item hmatch.stored hmatch.live hclosed with ⟨_, huntouched⟩ | ⟨h, _⟩
  · exact huntouched.sent t (List.mem_append_left _ ht) rfl
  · exact hlanded h

theorem Step.sent (hs : Tracked s) (h : Step s l s') (hc : Careful s l s') :
  ∀ t ∈ s'.pending ++ s'.landed, ∃ item row, Matches s' t item row
  := by
  have hframe : ∀ t ∈ s.pending ++ s.landed, ∃ item row, Matches s' t item row := by
    intro t ht
    obtain ⟨item, row, hmatch⟩ := hs.sent t ht
    apply hmatch.step hs h hc (not_untouched_of_sent ht)
  intro t ht
  rw [List.mem_append] at ht
  cases h.chain with
  | nothing hlanded hpending | withdrawn _ hlanded hpending =>
    rw [hlanded] at ht
    exact hframe t (List.mem_append.mpr (ht.imp_left fun hmem => hpending hmem))
  | @sent n rotationId copies copy row hphase hrow htoken hrecipient hamount hlanded hpending =>
    rw [hlanded, hpending, List.mem_append, or_right_comm, ← List.mem_append] at ht
    rcases ht with ht | ht
    · exact hframe t ht
    · obtain rfl := List.mem_singleton.mp ht
      have hknown := hs.known n
      rw [hphase] at hknown
      obtain ⟨_, item, row', hitem, ⟨hof, hlive⟩, htoken', hamount', htx, hrow', hkept, _⟩ := hknown
      obtain rfl := Option.some.inj (hrow.symm.trans hrow')
      have hmatch : Matches s ⟨copy.1, copy.2.unsignedTxXdr⟩ item row :=
        ⟨hitem, hlive, htx, htoken'.trans htoken.symm, hamount'.trans hamount.symm, by rwa [hof],
          hkept, hrecipient.symm⟩
      apply hmatch.step hs h hc
      exact not_untouched_of_about (n := n) (by rw [hphase]; rfl)
  | @landed t' ht' _ _ hlanded hpending =>
    rw [hlanded, List.mem_append, List.mem_singleton] at ht
    rcases ht with ht | ht | rfl
    · exact hframe t (List.mem_append_left _ (hpending ht))
    · exact hframe t (List.mem_append_right _ ht)
    · exact hframe t (List.mem_append_left _ ht')

theorem Step.once (hs : Tracked s) (h : Step s l s') :
  (s'.landed.map Sent.item).Nodup
  := by
  cases h.chain with
  | nothing hlanded | sent _ _ _ _ _ hlanded | withdrawn _ hlanded => rw [hlanded]; exact hs.once
  | @landed t ht hfresh _ hlanded =>
    rw [hlanded, List.map_append, List.nodup_append]
    refine ⟨hs.once, List.nodup_singleton _, ?_⟩
    intro id hid id' hid'
    obtain ⟨t', ht', rfl⟩ := List.mem_map.mp hid
    rw [List.map_singleton, List.mem_singleton] at hid'
    obtain ⟨item, row, hmatch⟩ := hs.sent t (List.mem_append_left _ ht)
    rw [hid']
    intro heq
    exact (hs.not_closed ht hmatch hfresh).1 ⟨t', ht', heq⟩

theorem Step.confirmed (hs : Tracked s) (h : Step s l s') (hc : Careful s l s')
    (hitem : s'.items[id]? = some item') (hstatus : item'.status = .confirmed) :
  Landed s' id ∧ Recorded s' id
  := by
  have hbefore : Landed s id ∧ Recorded s id → Landed s' id ∧ Recorded s' id :=
    fun hboth => ⟨h.landed hboth.1, h.recorded hboth.2⟩
  rcases h.item_after hs.known hitem with ⟨item, hitem₀, rfl | hupdate⟩ | ⟨_, hinserts⟩
  · exact hbefore (hs.confirmed id item' hitem₀ hstatus)
  · cases hupdate with
    | built | claimed | failed => cases hstatus
    | confirmed _ hlanded hrecorded => exact ⟨h.landed hlanded, hrecorded⟩
    | @reconciled n rotationId copies drained copy hphase hl hid hstuck hrecorded =>
      subst hl hid
      refine ⟨h.landed ?_, hrecorded⟩
      have hknown := hs.known n
      rw [hphase] at hknown
      apply hs.landed_of_drained hc hitem₀ hstuck (hknown.2 copy (by simp))
    | dropped => exact hbefore (hs.confirmed id item hitem₀ hstatus)
  · rw [hinserts.2.1] at hstatus
    cases hstatus

/-- A row is inserted for a transfer that has landed. -/
theorem Step.entry {n rotationId : ℕ} {row : WalletRotationTransfer} {copy : Copy}
    (receipt : Option Receipt) (hs : Tracked s) (hc : Careful s l s')
    (hrow : s.rotations[rotationId]? = some row)
    (hcases : (∃ copies, s.calls n = .sent rotationId copies copy)
        ∧ ⟨copy.1, copy.2.unsignedTxXdr⟩ ∈ s.landed
      ∨ (∃ copies drained, s.calls n = .reconciling rotationId copies (copy :: drained))
        ∧ l = .reconcile copy ∧ ∃ item, s.items[copy.1]? = some item ∧ item.Stuck) :
  ∃ t ∈ s.landed, t.item = copy.1 ∧ Describes (custodyEntry row.destinationAddress copy receipt) t
  := by
  have hdescribes : ∀ t ∈ s.landed, t.item = copy.1 → ∀ item, s.items[copy.1]? = some item →
      item.rotationId = rotationId → item.tokenContract = copy.2.tokenContract →
      item.amountScaled = copy.2.amountScaled →
      Describes (custodyEntry row.destinationAddress copy receipt) t := by
    intro t ht hid item hitem hof htoken hamount
    obtain ⟨item', row', hmatch⟩ := hs.sent t (List.mem_append_right _ ht)
    have hstored := hmatch.stored
    rw [hid, hitem] at hstored
    obtain rfl := Option.some.inj hstored
    have hrotation := hmatch.rotation
    rw [hof, hrow] at hrotation
    obtain rfl := Option.some.inj hrotation
    exact ⟨htoken.symm.trans hmatch.token, hmatch.recipient, hamount.symm.trans hmatch.amount⟩
  have hknown := hs.known n
  rcases hcases with ⟨⟨copies, hphase⟩, hlanded⟩ | ⟨⟨copies, drained, hphase⟩, hl, item,
    hitem, hstuck⟩
  · rw [hphase] at hknown
    obtain ⟨_, item, _, hitem, hof, htoken, hamount, _⟩ := hknown
    exact ⟨_, hlanded, rfl, hdescribes _ hlanded rfl item hitem hof.1 htoken hamount⟩
  · subst hl
    rw [hphase] at hknown
    obtain ⟨t, ht, hid⟩ := hs.landed_of_drained hc hitem hstuck (hknown.2 copy (by simp))
    obtain ⟨_, item₁, hitem₁, hof, htoken⟩ := hknown.1 copy (by simp)
    obtain ⟨item₂, hitem₂, _, hamount, _⟩ := hc
    obtain rfl := Option.some.inj (hitem.symm.trans hitem₁)
    obtain rfl := Option.some.inj (hitem.symm.trans hitem₂)
    exact ⟨t, ht, hid, hdescribes t ht hid item hitem hof htoken hamount⟩

theorem Step.rows (hs : Tracked s) (h : Step s l s') (hc : Careful s l s') :
  ∀ entry ∈ s'.registry, ∃ t ∈ s'.landed, t.item = entry.sourceRef ∧ Describes entry t
  := by
  have hlanded : s.landed ⊆ s'.landed := by
    cases h.chain with
    | nothing heq | sent _ _ _ _ _ heq | withdrawn _ heq => rw [heq]; apply List.Subset.refl
    | landed _ _ _ heq => rw [heq]; apply List.subset_append_left
  intro entry hentry
  rcases h.registry with heq | ⟨n, rotationId, row, copy, receipt, hrow, _, heq, hcases⟩
  · rw [heq] at hentry
    obtain ⟨t, ht, hdescribes⟩ := hs.rows entry hentry
    exact ⟨t, hlanded ht, hdescribes⟩
  · rw [heq] at hentry
    rcases List.mem_append.mp hentry with hentry | hentry
    · obtain ⟨t, ht, hdescribes⟩ := hs.rows entry hentry
      exact ⟨t, hlanded ht, hdescribes⟩
    · rw [List.mem_singleton.mp hentry]
      obtain ⟨t, ht, hdescribes⟩ := Step.entry receipt hs hc hrow hcases
      exact ⟨t, hlanded ht, hdescribes⟩

theorem Step.refs (hs : Tracked s) (h : Step s l s') :
  (s'.registry.map RegistryEvent.sourceRef).Nodup
  := by
  rcases h.registry with heq | ⟨n, rotationId, row, copy, receipt, _, hfresh, heq, _⟩
  · rw [heq]
    exact hs.refs
  · rw [heq, List.map_append, List.nodup_append]
    refine ⟨hs.refs, List.nodup_singleton _, ?_⟩
    intro id hid id' hid'
    obtain ⟨entry, hentry, rfl⟩ := List.mem_map.mp hid
    rw [List.map_singleton, List.mem_singleton] at hid'
    rw [hid']
    apply hfresh entry hentry

/-- An item that is live was live, or it has been inserted. -/
theorem Step.live (hs : Tracked s) (h : Step s l s') (hitem : s'.items[id]? = some item')
    (hlive : item'.deleted = false) :
  (∃ item, s.items[id]? = some item ∧ item.deleted = false ∧ item'.rotationId = item.rotationId
      ∧ item'.tokenContract = item.tokenContract ∧ (item' = item ∨ ItemUpdate s l s' id item item'))
    ∨ id = s.items.length ∧ Inserts s l item'
  := by
  rcases h.item_after hs.known hitem with ⟨item, hitem₀, rfl | hupdate⟩ | hinserted
  · exact .inl ⟨item', hitem₀, hlive, rfl, rfl, .inl rfl⟩
  · refine .inl ⟨item, hitem₀, ?_, hupdate.key.1, hupdate.key.2, .inr hupdate⟩
    cases hupdate with
    | dropped => cases hlive
    | _ => exact hlive
  · exact .inr hinserted

theorem Step.unique {id' : ℕ} {item₁ item₂ : WalletRotationTransferItem} (hs : Tracked s)
    (h : Step s l s') (hitem₁ : s'.items[id]? = some item₁) (hitem₂ : s'.items[id']? = some item₂)
    (hlive₁ : item₁.deleted = false) (hlive₂ : item₂.deleted = false)
    (hrotation : item₁.rotationId = item₂.rotationId)
    (htoken : item₁.tokenContract = item₂.tokenContract) :
  id = id'
  := by
  rcases h.live hs hitem₁ hlive₁ with ⟨item₁', hitem₁', hlive₁', hof₁, htoken₁, _⟩ | ⟨hid₁, hins₁⟩
  · rcases h.live hs hitem₂ hlive₂ with ⟨item₂', hitem₂', hlive₂', hof₂, htoken₂, _⟩ | ⟨hid₂, hins₂⟩
    · apply hs.unique id id' item₁' item₂' hitem₁' hitem₂' hlive₁' hlive₂'
      · rw [← hof₁, hrotation, hof₂]
      · rw [← htoken₁, htoken, htoken₂]
    · refine absurd ?_ (hins₂.2.2.2.2 item₁' (List.mem_of_getElem? hitem₁') ⟨?_, hlive₁'⟩)
      · rw [← htoken₁, htoken]
      · rw [← hof₁, hrotation]
  · rcases h.live hs hitem₂ hlive₂ with ⟨item₂', hitem₂', hlive₂', hof₂, htoken₂, _⟩ | ⟨hid₂, hins₂⟩
    · refine absurd ?_ (hins₁.2.2.2.2 item₂' (List.mem_of_getElem? hitem₂') ⟨?_, hlive₂'⟩)
      · rw [← htoken₂, htoken]
      · rw [← hof₂, hrotation]
    · rw [hid₁, hid₂]

theorem Step.active {r r' : ℕ} {row row' : WalletRotationTransfer} (hs : Tracked s)
    (h : Step s l s')
    (hrow : s'.rotations[r]? = some row) (hrow' : s'.rotations[r']? = some row')
    (hactive : row.Active) (hactive' : row'.Active) :
  r = r'
  := by
  rcases h.active_before hrow hactive with ⟨row₁, hrow₁, hactive₁⟩ | ⟨_, hid, hnone⟩
  · rcases h.active_before hrow' hactive' with ⟨row₂, hrow₂, hactive₂⟩ | ⟨_, _, hnone⟩
    · exact hs.active r r' row₁ row₂ hrow₁ hrow₂ hactive₁ hactive₂
    · exact absurd hactive₁ (hnone row₁ (List.mem_of_getElem? hrow₁))
  · rcases h.active_before hrow' hactive' with ⟨row₂, hrow₂, hactive₂⟩ | ⟨_, hid', _⟩
    · exact absurd hactive₂ (hnone row₂ (List.mem_of_getElem? hrow₂))
    · rw [hid, hid']

/-- An item is of a rotation. -/
theorem Step.parent (hs : Tracked s) (h : Step s l s') (hitem : s'.items[id]? = some item') :
  ∃ row, s'.rotations[item'.rotationId]? = some row
  := by
  have hbefore : ∃ row, s.rotations[item'.rotationId]? = some row := by
    rcases h.item_after hs.known hitem with ⟨item, hitem₀, rfl | hupdate⟩ | ⟨_, hinserts⟩
    · exact hs.rotation id item' hitem₀
    · rw [hupdate.key.1]
      exact hs.rotation id item hitem₀
    · exact hinserts.2.2.2.1
  obtain ⟨row, hrow⟩ := hbefore
  obtain ⟨row', hrow', _⟩ := h.rotation hrow
  exact ⟨row', hrow'⟩

/-- An item that is not there yet is untouched. -/
theorem Tracked.untouched_of_length (hs : Tracked s) :
  Untouched s s.items.length
  := by
  constructor
  · intro t ht hid
    obtain ⟨item, row, hmatch⟩ := hs.sent t ht
    have hstored := hmatch.stored
    rw [hid, List.getElem?_eq_none (Nat.le_refl _)] at hstored
    cases hstored
  · intro n habout
    have hknown := hs.known n
    cases hphase : s.calls n with
    | claimed rotationId copies copy | sent rotationId copies copy | caught rotationId copies copy =>
      rw [hphase] at hknown habout
      obtain ⟨_, item, _, hitem, _⟩ := hknown
      rw [show copy.1 = s.items.length from Option.some.inj habout,
        List.getElem?_eq_none (Nat.le_refl _)] at hitem
      cases hitem
    | _ =>
      rw [hphase] at habout
      cases habout

/-- A rotation that is closed was closed; or it is completed, when its items are confirmed; or it is
canceled. -/
theorem Step.closed_before {rotationId : ℕ} {row : WalletRotationTransfer} (h : Step s l s')
    (hrow : s.rotations[rotationId]? = some row) (hclosed : Closed s' rotationId) :
  Closed s rotationId ∨ l = .complete rotationId ∨ l = .softCancel rotationId
  := by
  obtain ⟨row', hrow', hnot⟩ := hclosed
  obtain ⟨row'', hrow'', hupdate⟩ := h.rotation hrow
  obtain rfl := Option.some.inj (hrow'.symm.trans hrow'')
  rcases hupdate with rfl | hupdate
  · exact .inl ⟨row', hrow, hnot⟩
  · cases hupdate with
    | demoted =>
      left
      refine ⟨row, hrow, fun hactive => hnot ⟨?_, hactive.2⟩⟩
      simp
    | completed hl => exact .inr (.inl hl)
    | dropped hl => exact .inr (.inr hl)

/-- An item of a rotation that is closed is not claimed. -/
theorem Step.claim_ne (hs : Tracked s) (h : Step s l s') (hc : Careful s l s')
    (hitem : s.items[id]? = some item) (hclosed : Closed s item.rotationId) :
  ∀ copy, l = .claim copy → copy.1 ≠ id
  := by
  rintro copy rfl rfl
  cases h with
  | @claim n rotationId copies copy items hphase hcopy =>
    have hknown := hs.known n
    rw [hphase] at hknown
    obtain ⟨hrotation, item', hitem', hof, _⟩ := hknown copy hcopy
    obtain rfl := Option.some.inj (hitem.symm.trans hitem')
    apply hc.2
    rwa [hrotation, ← hof]

/-- An item that is pending in a rotation that is closed is not sent. -/
theorem Step.pending (hs : Tracked s) (h : Step s l s') (hc : Careful s l s')
    (hitem : s.items[id]? = some item) (hlive : item'.deleted = false)
    (hclosed : Closed s item.rotationId) (hpending : item.status = .pending)
    (huntouched : Untouched s id) (hupdate : item' = item ∨ ItemUpdate s l s' id item item') :
  item'.status = .pending ∧ Untouched s' id
  := by
  refine ⟨?_, h.untouched (h.claim_ne hs hc hitem hclosed) huntouched⟩
  rcases hupdate with rfl | hupdate
  · exact hpending
  · cases hupdate with
    | built => rfl
    | claimed hl hid => exact absurd hid (h.claim_ne hs hc hitem hclosed _ hl)
    | failed habout => exact absurd habout (huntouched.calls _)
    | confirmed habout =>
      obtain ⟨n, habout⟩ := habout
      exact absurd habout (huntouched.calls n)
    | reconciled _ _ _ hstuck =>
      rcases hstuck with hstatus | hstatus <;> rw [hpending] at hstatus <;> cases hstatus
    | dropped => cases hlive

/-- What is dropped is deleted. -/
theorem deleted_of_dropItems {items : List WalletRotationTransferItem} {rotationId : ℕ}
    (hitem : (dropItems items rotationId)[id]? = some item') (hof : item'.rotationId = rotationId) :
  item'.deleted = true
  := by
  rw [dropItems, List.getElem?_map, Option.map_eq_some_iff] at hitem
  obtain ⟨item, _, rfl⟩ := hitem
  split
  · rfl
  · rename_i hnot
    rw [if_neg hnot] at hof
    exact absurd hof hnot

theorem Step.closed_items (hs : Tracked s) (h : Step s l s') (hc : Careful s l s')
    (hitem : s'.items[id]? = some item') (hlive : item'.deleted = false)
    (hclosed : Closed s' item'.rotationId) :
  item'.status = .pending ∧ Untouched s' id ∨ Landed s' id ∧ Recorded s' id
  := by
  have hafter : Landed s id ∧ Recorded s id → Landed s' id ∧ Recorded s' id :=
    fun hboth => ⟨h.landed hboth.1, h.recorded hboth.2⟩
  rcases h.live hs hitem hlive with ⟨item, hitem₀, hlive₀, hof, _, hupdate⟩ | ⟨rfl, hinserts⟩
  · obtain ⟨row, hrow⟩ := hs.rotation id item hitem₀
    rw [hof] at hclosed
    rcases h.closed_before hrow hclosed with hclosed₀ | rfl | rfl
    · rcases hs.closed id item hitem₀ hlive₀ hclosed₀ with ⟨hpending, huntouched⟩ | hboth
      · exact .inl (h.pending hs hc hitem₀ hlive hclosed₀ hpending huntouched hupdate)
      · exact .inr (hafter hboth)
    · have hstatus := hc item (List.mem_of_getElem? hitem₀) ⟨rfl, hlive₀⟩
      exact .inr (hafter (hs.confirmed id item hitem₀ hstatus))
    · rw [h.items_of_softCancel] at hitem
      rw [deleted_of_dropItems hitem hof] at hlive
      cases hlive
  · refine .inl ⟨hinserts.2.1, h.untouched ?_ hs.untouched_of_length⟩
    intro copy hl
    rw [hinserts.1] at hl
    cases hl

/-- A rotation that is there and is not closed is active. -/
theorem active_of_not_closed {rotationId : ℕ} {row : WalletRotationTransfer}
    (hrow : s.rotations[rotationId]? = some row) (hopen : ¬ Closed s rotationId) :
  row.Active
  := by
  by_contra hnot
  exact hopen ⟨row, hrow, hnot⟩

/-- The items that are live, and of rotations that are open, have different tokens. -/
theorem Tracked.eq_of_token {id' : ℕ} {item₁ item₂ : WalletRotationTransferItem} (hs : Tracked s)
    (hitem₁ : s.items[id]? = some item₁) (hitem₂ : s.items[id']? = some item₂)
    (hlive₁ : item₁.deleted = false) (hlive₂ : item₂.deleted = false)
    (hopen₁ : ¬ Closed s item₁.rotationId) (hopen₂ : ¬ Closed s item₂.rotationId)
    (htoken : item₁.tokenContract = item₂.tokenContract) :
  id = id'
  := by
  obtain ⟨row₁, hrow₁⟩ := hs.rotation id item₁ hitem₁
  obtain ⟨row₂, hrow₂⟩ := hs.rotation id' item₂ hitem₂
  apply hs.unique id id' item₁ item₂ hitem₁ hitem₂ hlive₁ hlive₂ _ htoken
  exact hs.active _ _ row₁ row₂ hrow₁ hrow₂ (active_of_not_closed hrow₁ hopen₁)
    (active_of_not_closed hrow₂ hopen₂)

theorem Step.funded (hs : Tracked s) (h : Step s l s') (hc : Careful s l s')
    (hitem : s'.items[id]? = some item') (hlive : item'.deleted = false)
    (hopen : ¬ Closed s' item'.rotationId) (hlanded : ¬ Landed s' id) :
  0 < s'.balances item'.tokenContract
  := by
  rcases h.live hs hitem hlive with ⟨item, hitem₀, hlive₀, hof, htoken, _⟩ | ⟨_, hinserts⟩
  · have hopen₀ : ¬ Closed s item.rotationId := fun hclosed => hopen (hof ▸ h.closed hclosed)
    have hlanded₀ : ¬ Landed s id := fun hbefore => hlanded (h.landed hbefore)
    have hfunded := hs.funded id item hitem₀ hlive₀ hopen₀ hlanded₀
    rw [htoken]
    cases h.chain with
    | nothing _ _ hbalances => exact Nat.lt_of_lt_of_le hfunded (hbalances _)
    | sent _ _ _ _ _ _ _ hbalances => rwa [hbalances]
    | @landed t ht hfresh _ heq _ hbalances =>
      rw [hbalances, Function.update_apply]
      split
      · rename_i hsame
        obtain ⟨item₁, row₁, hmatch⟩ := hs.sent t (List.mem_append_left _ ht)
        have hid := hs.eq_of_token hitem₀ hmatch.stored hlive₀ hmatch.live hopen₀
          (hs.not_closed ht hmatch hfresh).2 (hsame.trans hmatch.token.symm)
        exact absurd ⟨t, by simp [heq], hid.symm⟩ hlanded
      · exact hfunded
    | @withdrawn token amount hl _ _ hbalances =>
      subst hl
      rw [hbalances, Function.update_apply]
      split
      · rename_i hsame
        rcases hc with hlt | hnone
        · exact Nat.sub_pos_of_lt hlt
        · rcases hnone id item hitem₀ hlive₀ hsame with hbefore | hclosed
          · exact absurd hbefore hlanded₀
          · exact absurd hclosed hopen₀
      · exact hfunded
  · obtain ⟨rfl, _⟩ := hinserts
    obtain ⟨hfunded, _⟩ := hc
    cases h.chain with
    | nothing _ _ hbalances => exact Nat.lt_of_lt_of_le hfunded (hbalances _)
    | sent _ _ _ _ _ _ _ hbalances => rwa [hbalances]
    | landed _ _ hl => cases hl
    | withdrawn hl => cases hl

theorem Step.tracked (hs : Tracked s) (h : Step s l s') (hc : Careful s l s') :
  Tracked s' where
  known := h.known hs hc
  rotation := fun _ _ => h.parent hs
  unique := fun _ _ _ _ => h.unique hs
  active := fun _ _ _ _ => h.active hs
  sent := h.sent hs hc
  once := h.once hs
  confirmed := fun _ _ => h.confirmed hs hc
  rows := h.rows hs hc
  refs := h.refs hs
  closed := fun _ _ => h.closed_items hs hc
  funded := fun _ _ => h.funded hs hc

/-- Nothing is there at first. -/
theorem tracked_init (h : system.init s) :
  Tracked s
  := by
  obtain ⟨hrotations, hitems, hregistry, hpending, hlanded, hcalls⟩ := h
  constructor <;> simp_all [Known]

/-! ### The ledger is exact -/

/-- A transfer that has landed is the one of its item. -/
theorem Tracked.eq_of_item {t t' : Sent} (hs : Tracked s) (ht : t ∈ s.landed) (ht' : t' ∈ s.landed)
    (h : t.item = t'.item) :
  t = t'
  := List.inj_on_of_nodup_map hs.once ht ht' h

/-- The transfers of the rows of the ledger. -/
theorem transfers_of_rows {registry : List RegistryEvent} {landed : List Sent}
    (hrows : ∀ entry ∈ registry, ∃ t ∈ landed, t.item = entry.sourceRef ∧ Describes entry t) :
  ∃ transfers : List Sent, List.Forall₂ Describes registry transfers ∧ transfers ⊆ landed
    ∧ transfers.map Sent.item = registry.map RegistryEvent.sourceRef
  := by
  induction registry with
  | nil => exact ⟨[], .nil, by simp, rfl⟩
  | cons entry registry ih =>
    obtain ⟨t, ht, hitem, hdescribes⟩ := hrows entry (by simp)
    obtain ⟨transfers, hall, hsubset, hmap⟩ := ih fun entry' h => hrows entry' (by simp [h])
    refine ⟨t :: transfers, .cons hdescribes hall, List.cons_subset.mpr ⟨ht, hsubset⟩, ?_⟩
    rw [List.map_cons, List.map_cons, hitem, hmap]

theorem Tracked.exact (hs : Tracked s) :
  Exact s
  := by
  constructor
  · intro id item hitem hstatus
    obtain ⟨⟨t, ht, rfl⟩, _⟩ := hs.confirmed id item hitem hstatus
    obtain ⟨item', row, hmatch⟩ := hs.sent t (List.mem_append_right _ ht)
    obtain rfl := Option.some.inj (hmatch.stored.symm.trans hitem)
    exact ⟨t, ht, rfl, hmatch.token.symm, row, hmatch.rotation, hmatch.recipient.symm⟩
  · obtain ⟨transfers, hall, hsubset, hmap⟩ := transfers_of_rows hs.rows
    refine ⟨transfers, hall, ?_, hsubset, ?_⟩
    · apply List.Nodup.of_map Sent.item
      rw [hmap]
      apply hs.refs
    · intro t ht item hitem hclosed
      obtain ⟨item', row, hmatch⟩ := hs.sent t (List.mem_append_right _ ht)
      obtain rfl := Option.some.inj (hmatch.stored.symm.trans hitem)
      rcases hs.closed t.item item' hitem hmatch.live hclosed with ⟨_, huntouched⟩ | ⟨_, hrecorded⟩
      · exact absurd rfl (huntouched.sent t (List.mem_append_right _ ht))
      · obtain ⟨entry, hentry, hsource⟩ := hrecorded
        have hmem : t.item ∈ transfers.map Sent.item := by
          rw [hmap]
          exact List.mem_map.mpr ⟨entry, hentry, hsource⟩
        obtain ⟨t', ht', heq⟩ := List.mem_map.mp hmem
        rwa [← hs.eq_of_item (hsubset ht') ht heq]

/-! ### The runs -/

/-- The ledger is exact in every run whose steps are careful. -/
theorem exact_of_careful (h : (system.restrict Careful).Reachable s) :
  Exact s
  := by
  apply Tracked.exact
  apply h.invariant
  · intro s₀ hinit
    apply tracked_init hinit
  · rintro s₁ l s₂ hs₁ ⟨hstep, hc⟩
    apply hstep.tracked hs₁ hc

/-- A state in which one call has begun. -/
def sampleState (rotations : List WalletRotationTransfer) (items : List WalletRotationTransferItem)
    (registry : List RegistryEvent) (balances : Address → ℕ) (pending landed : List Sent)
    (phase : Phase) : State where
  rotations
  items
  registry
  balances
  pending
  landed
  calls := Function.update (fun _ => .idle) 0 phase

/-- The wallet holds one token. -/
def sampleBalances : Address → ℕ := Function.update (fun _ => 0) (.contract 1) 10

def sampleRotation : WalletRotationTransfer := ⟨.account 2, .pending, false⟩

def sampleItem (status : WalletRotationItemStatus) : WalletRotationTransferItem where
  rotationId := 0
  tokenContract := .contract 1
  amountScaled := 10
  status
  unsignedTxXdr := ⟨0, .contract 1, .account 2, 10⟩
  receipt := none
  deleted := false

/-- The item is built and claimed. -/
theorem sample_claimed :
  (system.restrict Careful).Reachable (sampleState [sampleRotation] [sampleItem .submitted] []
    sampleBalances [] [] (.claimed 0 [(0, sampleItem .pending)] (0, sampleItem .pending)))
  := by
  have hinit : (system.restrict Careful).Reachable (sampleState [] [] [] sampleBalances [] [] .idle) :=
    .init ⟨rfl, rfl, rfl, rfl, rfl, by simp [sampleState]⟩
  have hreading : (system.restrict Careful).Reachable
      (sampleState [] [] [] sampleBalances [] [] (.reading (.account 2) [])) := by
    have h := hinit.step ⟨@Step.initiate _ 0 (.account 2) rfl, trivial⟩
    simpa [State.enter, sampleState] using h
  have hread : (system.restrict Careful).Reachable
      (sampleState [] [] [] sampleBalances [] [] (.reading (.account 2) [(.contract 1, 10)])) := by
    have h := hreading.step
      ⟨@Step.read _ 0 (.account 2) (.contract 1) _ rfl (by simp) (by decide), trivial⟩
    simpa [State.enter, sampleState, sampleBalances] using h
  have habsent : (system.restrict Careful).Reachable
      (sampleState [] [] [] sampleBalances [] [] (.creating (.account 2) [(.contract 1, 10)])) := by
    have h := hread.step ⟨@Step.absent _ 0 (.account 2) _ rfl (by simp) (by simp [sampleState]), trivial⟩
    simpa [State.enter, sampleState] using h
  have hcreated : (system.restrict Careful).Reachable (sampleState [sampleRotation] [] []
      sampleBalances [] [] (.building 0 (.account 2) [] [(.contract 1, 10)])) := by
    have h := habsent.step ⟨@Step.create _ 0 (.account 2) _ rfl (by simp [sampleState]), trivial⟩
    simpa [State.enter, sampleState, sampleRotation] using h
  have hbuilt : (system.restrict Careful).Reachable (sampleState [sampleRotation]
      [sampleItem .pending] [] sampleBalances [] [] (.building 0 (.account 2) [] [])) := by
    have h := hcreated.step ⟨@Step.upsert _ 0 0 0 (.account 2) [] (.contract 1, 10) [] none _ rfl rfl
      (by simp) rfl, by decide, by simp [sampleState]⟩
    simpa [State.enter, sampleState, sampleItem] using h
  have hstopped : (system.restrict Careful).Reachable (sampleState [sampleRotation]
      [sampleItem .pending] [] sampleBalances [] [] .idle) := by
    have h := hbuilt.step ⟨@Step.stop _ 0, trivial⟩
    simpa [State.enter, sampleState] using h
  have hloaded : (system.restrict Careful).Reachable (sampleState [sampleRotation]
      [sampleItem .pending] [] sampleBalances [] [] (.submitting 0 [(0, sampleItem .pending)])) := by
    have h := hstopped.step ⟨@Step.load _ 0 0 sampleRotation rfl rfl rfl, trivial⟩
    have hitems : itemsOf [sampleItem .pending] 0 = [(0, sampleItem .pending)] := rfl
    simpa [State.enter, sampleState, hitems] using h
  have hclaimed := hloaded.step ⟨@Step.claim _ 0 0 _ (0, sampleItem .pending) _ rfl (by simp)
    (by decide) rfl, ⟨sampleItem .pending, rfl, rfl, rfl, rfl⟩, by
      rintro ⟨row, hrow, hnot⟩
      obtain rfl := Option.some.inj hrow
      exact hnot (by decide)⟩
  simpa [State.enter, sampleState, sampleItem] using hclaimed

/-- The transfer lands, and is confirmed. -/
theorem exact_of_careful_sample :
  ∃ s : State, s.registry.length = 1 ∧ (system.restrict Careful).Reachable s ∧ Exact s
  := by
  have hsent := sample_claimed.step ⟨@Step.send _ 0 0 _ (0, sampleItem .pending) sampleRotation rfl rfl
    rfl rfl rfl, trivial⟩
  have hlanded := hsent.step
    ⟨@Step.land _ ⟨0, (sampleItem .pending).unsignedTxXdr⟩ (by decide) (by decide) (by decide), trivial⟩
  have hconfirmed := hlanded.step ⟨@Step.confirm _ 0 0 _ (0, sampleItem .pending) sampleRotation ⟨7, 8⟩
    rfl rfl (by decide), trivial⟩
  exact ⟨_, rfl, hconfirmed, exact_of_careful hconfirmed⟩

/-- The recipient is not allowed, and the item fails with nothing sent. Another transfer then takes
what the wallet holds, and the item is taken as confirmed. -/
theorem not_forall_exact :
  ¬ ∀ s : State, system.Reachable s → Exact s
  := by
  intro h
  have hfailed := (sample_claimed.of_restrict).step (@Step.fail _ 0 0 _ (0, sampleItem .pending) (.inl rfl))
  have hstopped := hfailed.step (@Step.stop _ 0)
  have hwithdrawn := hstopped.step (@Step.withdraw _ (.contract 1) 10 (by decide))
  have hpolling := hwithdrawn.step (@Step.poll _ 0 0 sampleRotation rfl rfl rfl (by
    intro later row hrow _
    obtain ⟨hlt, _⟩ := List.getElem?_eq_some_iff.mp hrow
    exact Nat.le_of_lt_succ hlt) ⟨(0, sampleItem .failed), by decide, by decide⟩)
  have hdrained := hpolling.step (@Step.drained _ 0 0 _ [] [] (0, sampleItem .failed) rfl rfl)
  have hpolled := hdrained.step (@Step.polled _ 0 0 _ _ rfl)
  have hreconciled := hpolled.step
    (@Step.reconcile _ 0 0 _ [] (0, sampleItem .failed) sampleRotation _ rfl rfl rfl)
  obtain ⟨t, ht, _⟩ := (h _ hreconciled).confirmed 0 _ rfl rfl
  cases ht

end Rotation
