import Tove.Wallets.Rotation

/-!
# When the custody ledger is exact

The ledger is to have one row for each transfer of a rotation that has landed. The code infers
that a transfer has landed when the balance is gone, it builds an item again whatever has become
of its transfer, and it cancels a rotation whose transfers have failed as far as it was told.

When an item is built again only while nothing of it has been sent, when a call works with an
item as it is stored, and when no other transfer takes the last of a token that is still to be
moved, then a balance that is gone does prove that the transfer has landed, and the ledger is
exact.
-/

namespace Rotation

open Soroban Transition Rows

/-! ### The ledger -/

/-- A row has the token, the recipient and the amount of a transfer. -/
structure Describes (row : RegistryEvent) (t : Sent) : Prop where
  token : row.tokenContract = t.tx.token
  recipient : row.toAddress = t.tx.recipient
  amount : row.amountScaled = t.tx.amount

/-- The rotation is completed, or canceled. -/
def Closed (s : State) (rotationId : ℕ) : Prop :=
  ∃ row, s.rotations[rotationId]? = some row ∧ ¬ row.Active

/-- The ledger is exact: what is confirmed has landed; each row describes a transfer that has
landed, another one for each row; and a transfer of a rotation that is closed has its row. -/
structure Exact (s : State) : Prop where
  confirmed : ∀ (id : ℕ) (item : WalletRotationTransferItem), s.items[id]? = some item →
    item.status = .confirmed → ∃ t ∈ s.landed, t.item = id ∧ t.tx.token = item.tokenContract
      ∧ ∃ row, s.rotations[item.rotationId]? = some row ∧ t.tx.recipient = row.destinationAddress
  ledger : ∃ transfers : List Sent, List.Forall₂ Describes s.registry transfers ∧ transfers.Nodup
    ∧ transfers ⊆ s.landed ∧ ∀ t ∈ s.landed, ∀ item, s.items[t.item]? = some item →
      Closed s item.rotationId → t ∈ transfers

/-! ### The condition -/

/-- The item of which a call is about to send a transfer, or is waiting for one. -/
def Phase.about : Phase → Option ℕ
  | .claimed _ _ copy | .sent _ _ copy | .caught _ _ copy => some copy.1
  | _ => none

/-- A transfer of the item has landed. -/
def Landed (s : State) (id : ℕ) : Prop := ∃ t ∈ s.landed, t.item = id

/-- Nothing of the item has landed or may still land, and nothing is about to be sent. -/
structure Untouched (s : State) (id : ℕ) : Prop where
  sent : ∀ t ∈ s.pending ++ s.landed, t.item ≠ id
  calls : ∀ n, (s.calls n).about ≠ some id

/-- The item is live, and what a call has in memory of it is what is stored. -/
def Current (s : State) (copy : Copy) : Prop :=
  ∃ item, s.items[copy.1]? = some item ∧ item.deleted = false
    ∧ item.amountScaled = copy.2.amountScaled ∧ item.unsignedTxXdr = copy.2.unsignedTxXdr

/-- An item is built, again or for the first time, only while the wallet holds its token and
nothing of it has been sent; a call claims or reconciles an item as it is stored, and claims one
of an active rotation only; a rotation is completed while the count still holds, and canceled
while nothing of it has been sent; and no other transfer takes the last of a token that is still
to be moved. -/
def Careful (s : State) (l : Label) (_ : State) : Prop :=
  match l with
  | .upsert rotationId token => 0 < s.balances token
    ∧ ∀ (id : ℕ) (item : WalletRotationTransferItem), s.items[id]? = some item →
      item.Of rotationId → item.tokenContract = token → Untouched s id
  | .claim copy => Current s copy ∧ ¬ Closed s copy.2.rotationId
  | .reconcile copy => Current s copy
  | .complete rotationId => ∀ item ∈ s.items, item.Of rotationId → item.status = .confirmed
  | .softCancel rotationId => ∀ (id : ℕ) (item : WalletRotationTransferItem),
    s.items[id]? = some item → item.Of rotationId → Untouched s id
  | .withdraw token amount => amount < s.balances token
    ∨ ∀ (id : ℕ) (item : WalletRotationTransferItem), s.items[id]? = some item →
      item.deleted = false → item.tokenContract = token → Landed s id ∨ Closed s item.rotationId
  | .begin | .create | .other => True

variable {s s' : State} {l : Label}

/-! ### What a call knows -/

section Knows

variable {rotationId : ℕ} {copies copies' : List Copy} {copy : Copy}
  {items : List WalletRotationTransferItem} {status : WalletRotationItemStatus}

/-- A row of the item is in the ledger. -/
def Recorded (s : State) (id : ℕ) : Prop := ∃ row ∈ s.registry, row.sourceRef = id

/-- The copies are of items of the rotation, of which the token does not change. -/
def Copied (s : State) (rotationId : ℕ) (copies : List Copy) : Prop :=
  ∀ copy ∈ copies, copy.2.rotationId = rotationId ∧ ∃ item, s.items[copy.1]? = some item
    ∧ item.rotationId = rotationId ∧ item.tokenContract = copy.2.tokenContract

/-- The call that has claimed an item may send its transfer. -/
def Sending (s : State) (rotationId : ℕ) (copy : Copy) : Prop :=
  ∃ item row, s.items[copy.1]? = some item ∧ item.Of rotationId
    ∧ item.tokenContract = copy.2.tokenContract ∧ item.amountScaled = copy.2.amountScaled
    ∧ item.unsignedTxXdr = copy.2.unsignedTxXdr ∧ s.rotations[rotationId]? = some row
    ∧ row.deleted = false ∧ (row.Active ∨ Landed s copy.1)

/-- The balance of the token was gone: the transfer has landed, unless the item is of no account. -/
def Drained (s : State) (id : ℕ) : Prop :=
  ∃ item, s.items[id]? = some item
    ∧ (item.deleted = true ∨ Closed s item.rotationId ∨ Landed s id)

/-- What a call knows in its phase. -/
def Known (s : State) : Phase → Prop
  | .building rotationId _ existing _ => (∃ row, s.rotations[rotationId]? = some row)
    ∧ Copied s rotationId existing
  | .submitting rotationId copies => Copied s rotationId copies
  | .claimed rotationId copies copy | .sent rotationId copies copy | .caught rotationId copies copy =>
    Copied s rotationId copies ∧ Sending s rotationId copy
  | .polling rotationId _ stuck drained => Copied s rotationId (stuck ++ drained)
    ∧ ∀ copy ∈ drained, Drained s copy.1
  | .reconciling rotationId _ drained => Copied s rotationId drained
    ∧ ∀ copy ∈ drained, Drained s copy.1
  | _ => True

theorem mem_itemsOf :
  copy ∈ itemsOf items rotationId ↔ items[copy.1]? = some copy.2 ∧ copy.2.Of rotationId
  := by
  obtain ⟨id, item⟩ := copy
  simp [itemsOf, List.mem_zipIdx_iff_getElem?]

theorem copied_itemsOf :
  Copied s rotationId (itemsOf s.items rotationId)
  := by
  intro copy hcopy
  obtain ⟨hitem, hof⟩ := mem_itemsOf.mp hcopy
  exact ⟨hof.1, copy.2, hitem, hof.1, rfl⟩

theorem Copied.subset (h : Copied s rotationId copies) (hsubset : copies' ⊆ copies) :
  Copied s rotationId copies'
  := fun copy hcopy => h copy (hsubset hcopy)

theorem Copied.mark (h : Copied s rotationId copies) {id : ℕ} :
  Copied s rotationId (mark copies id status)
  := by
  intro copy hcopy
  obtain ⟨copy₀, hcopy₀, rfl⟩ := List.mem_map.mp hcopy
  have hknown := h copy₀ hcopy₀
  split
  · rename_i hid
    rw [← hid]
    exact hknown
  · exact hknown

end Knows

/-! ### What a step changes -/

section Effects

variable {id : ℕ} {item item' : WalletRotationTransferItem}

/-- How a step may update an item. -/
inductive ItemUpdate (s : State) (l : Label) (s' : State) (id : ℕ) :
    WalletRotationTransferItem → WalletRotationTransferItem → Prop where
  | built {item : WalletRotationTransferItem} {tx : TransferTx} :
      l = .upsert item.rotationId item.tokenContract → item.deleted = false →
      ItemUpdate s l s' id item (item.build tx)
  | claimed {item : WalletRotationTransferItem} {copy : Copy} : l = .claim copy → copy.1 = id →
      item.status ≠ .confirmed → ItemUpdate s l s' id item { item with status := .submitted }
  | failed {item : WalletRotationTransferItem} {n : ℕ} : (s.calls n).about = some id →
      ItemUpdate s l s' id item { item with status := .failed }
  | confirmed {item : WalletRotationTransferItem} {receipt : Receipt} :
      (∃ n, (s.calls n).about = some id) → Landed s id → Recorded s' id →
      ItemUpdate s l s' id item { item with status := .confirmed, receipt := some receipt }
  | reconciled {item : WalletRotationTransferItem} {n rotationId : ℕ} {copies drained : List Copy}
      {copy : Copy} : s.calls n = .reconciling rotationId copies (copy :: drained) →
      l = .reconcile copy → copy.1 = id → item.Stuck → Recorded s' id →
      ItemUpdate s l s' id item { item with status := .confirmed }
  | dropped {item : WalletRotationTransferItem} : l = .softCancel item.rotationId →
      ItemUpdate s l s' id item { item with deleted := true }

/-- An item that a step may insert. -/
def Inserts (s : State) (l : Label) (item : WalletRotationTransferItem) : Prop :=
  l = .upsert item.rotationId item.tokenContract ∧ item.status = .pending ∧ item.deleted = false
    ∧ (∃ row, s.rotations[item.rotationId]? = some row)
    ∧ ∀ row ∈ s.items, row.Of item.rotationId → row.tokenContract ≠ item.tokenContract

theorem ItemUpdate.key (h : ItemUpdate s l s' id item item') :
  item'.rotationId = item.rotationId ∧ item'.tokenContract = item.tokenContract
  := by cases h <;> exact ⟨rfl, rfl⟩

theorem recorded_recordCustodyTransfer {registry : List RegistryEvent} {entry : RegistryEvent} :
  ∃ row ∈ recordCustodyTransfer registry entry, row.sourceRef = entry.sourceRef
  := by
  rw [recordCustodyTransfer]
  split
  · assumption
  · exact ⟨entry, by simp, rfl⟩

/-- An item is built again, or inserted. -/
theorem upsertItemBuild_change {items : List WalletRotationTransferItem} {existing : List Copy}
    {existingCopy : Option Copy} {rotationId nonce amount : ℕ} {token destination : Address}
    (hcopied : (∃ row, s.rotations[rotationId]? = some row) ∧ Copied s rotationId existing)
    (hfind : existing.find? (fun copy => copy.2.tokenContract = token) = existingCopy)
    (h : upsertItemBuild s.items (existingCopy.map Prod.fst) rotationId
      ⟨nonce, token, destination, amount⟩ = some items) :
  Change (Inserts s (.upsert rotationId token)) (ItemUpdate s (.upsert rotationId token) s')
    s.items items
  := by
  cases existingCopy with
  | some copy =>
    apply Change.of_compareAndSet h
    intro row hrow hlive
    obtain ⟨_, item, hitem, hrotation, htoken⟩ := hcopied.2 copy (List.mem_of_find?_eq_some hfind)
    obtain rfl := Option.some.inj (hitem.symm.trans hrow)
    have hcopy : copy.2.tokenContract = token := by simpa using List.find?_some hfind
    exact .built (by rw [hrotation, htoken, hcopy]) hlive
  | none =>
    dsimp only [upsertItemBuild, Option.map_none] at h
    split at h
    · rename_i existing hitemFor
      rw [itemFor, List.findIdx?_eq_some_iff_getElem] at hitemFor
      obtain ⟨hlt, hitem, _⟩ := hitemFor
      apply Change.of_compareAndSet h
      intro row hrow hlive
      rw [List.getElem?_eq_getElem hlt] at hrow
      obtain rfl := Option.some.inj hrow
      rw [decide_eq_true_iff] at hitem
      exact .built (by rw [hitem.1.1, hitem.2]) hlive
    · rename_i hitemFor
      obtain rfl := Option.some.inj h
      apply Change.insert
      refine ⟨rfl, rfl, rfl, hcopied.1, ?_⟩
      intro row hrow hof htoken
      rw [itemFor, List.findIdx?_eq_none_iff] at hitemFor
      have hnot := hitemFor row hrow
      rw [decide_eq_false_iff_not] at hnot
      exact hnot ⟨hof, htoken⟩

/-- A step updates one item at most, inserts one, or drops those of a rotation. -/
theorem Step.items (hknown : ∀ n, Known s (s.calls n)) (h : Step s l s') :
  Change (Inserts s l) (ItemUpdate s l s') s.items s'.items
    ∨ ∃ rotationId, l = .softCancel rotationId ∧ s'.items = dropItems s.items rotationId
  := by
  cases h with
  | @upsert n rotationId nonce destination existing holding holdings existingCopy items hphase hfind _
      hupsert =>
    left
    have hcopied := hknown n
    rw [hphase] at hcopied
    apply upsertItemBuild_change hcopied hfind hupsert
  | @claim n rotationId copies copy items hphase _ _ hclaim =>
    left
    apply Change.of_compareAndSet hclaim
    intro row _ hrow
    apply ItemUpdate.claimed rfl rfl
    rcases hrow.1 with hstatus | hstatus <;> simp [hstatus]
  | @confirm n rotationId copies copy row receipt hphase hrow hlanded
  | @confirmLost n rotationId copies copy row receipt hphase hrow hlanded =>
    left
    apply Change.of_modify
    intro item _
    apply ItemUpdate.confirmed ⟨n, by rw [hphase]; rfl⟩ ⟨_, hlanded, rfl⟩
    apply recorded_recordCustodyTransfer
  | @fail n rotationId copies copy hphase =>
    left
    apply Change.of_modify
    intro item _
    apply ItemUpdate.failed (n := n)
    rcases hphase with hphase | hphase | hphase <;> rw [hphase] <;> rfl
  | @reconcile n rotationId copies drained copy row items hphase hrow hitems =>
    left
    apply Change.of_compareAndSet hitems
    intro item _ hstuck
    apply ItemUpdate.reconciled hphase rfl rfl hstuck
    apply recorded_recordCustodyTransfer
  | @softCancel n rotationId hphase => exact .inr ⟨rotationId, rfl, rfl⟩
  | _ => exact .inl .same

/-- An item that is there stays there. -/
theorem Step.item_before (hknown : ∀ n, Known s (s.calls n)) (h : Step s l s')
    (hitem : s.items[id]? = some item) :
  ∃ item', s'.items[id]? = some item' ∧ (item' = item ∨ ItemUpdate s l s' id item item')
  := by
  rcases h.items hknown with hchange | ⟨rotationId, rfl, hdrop⟩
  · apply hchange.of_before hitem
  · rw [hdrop, dropItems, List.getElem?_map, hitem, Option.map_some]
    by_cases hrotation : item.rotationId = rotationId
    · exact ⟨_, rfl, .inr (by rw [if_pos hrotation]; exact .dropped (by rw [hrotation]))⟩
    · exact ⟨_, rfl, .inl (by rw [if_neg hrotation])⟩

/-- An item that is there was there, or it has been inserted. -/
theorem Step.item_after (hknown : ∀ n, Known s (s.calls n)) (h : Step s l s')
    (hitem : s'.items[id]? = some item') :
  (∃ item, s.items[id]? = some item ∧ (item' = item ∨ ItemUpdate s l s' id item item'))
    ∨ id = s.items.length ∧ Inserts s l item'
  := by
  cases hbefore : s.items[id]? with
  | some item =>
    left
    obtain ⟨item₁, hitem₁, hupdate⟩ := h.item_before hknown hbefore
    obtain rfl := Option.some.inj (hitem₁.symm.trans hitem)
    exact ⟨item, rfl, hupdate⟩
  | none =>
    right
    rcases h.items hknown with hchange | ⟨rotationId, rfl, hdrop⟩
    · rcases hchange.of_after hitem with ⟨item, hitem₀, _⟩ | ⟨_, hid, hinserts⟩
      · rw [hbefore] at hitem₀
        cases hitem₀
      · exact ⟨hid, hinserts⟩
    · rw [hdrop, dropItems, List.getElem?_map, hbefore] at hitem
      cases hitem

/-- What a step does to a rotation. -/
inductive RotationUpdate (l : Label) (rotationId : ℕ) :
    WalletRotationTransfer → WalletRotationTransfer → Prop where
  | demoted {row : WalletRotationTransfer} : row.status ≠ .completed →
      RotationUpdate l rotationId row { row with status := .submitting }
  | completed {row : WalletRotationTransfer} : l = .complete rotationId →
      RotationUpdate l rotationId row { row with status := .completed }
  | dropped {row : WalletRotationTransfer} : l = .softCancel rotationId →
      RotationUpdate l rotationId row { row with deleted := true }

/-- A step updates one rotation at most, or creates one when none is active. -/
theorem Step.rotations (h : Step s l s') :
  Change (fun _ => l = .create ∧ ∀ row ∈ s.rotations, ¬ row.Active) (fun id row row' =>
    row' = row ∨ RotationUpdate l id row row') s.rotations s'.rotations
  := by
  cases h with
  | create _ hnone => apply Change.insert ⟨rfl, hnone⟩
  | demote =>
    apply Change.of_modify
    intro row _
    split
    · exact .inl rfl
    · rename_i hstatus
      exact .inr (.demoted hstatus)
  | complete => apply Change.of_modify fun row _ => .inr (.completed rfl)
  | softCancel => apply Change.of_modify fun row _ => .inr (.dropped rfl)
  | _ => apply Change.same

/-- What a step does to the chain. -/
inductive ChainEffect (s : State) (l : Label) (s' : State) : Prop where
  | nothing : s'.landed = s.landed → s'.pending ⊆ s.pending →
      (∀ token, s.balances token ≤ s'.balances token) → ChainEffect s l s'
  | sent {n rotationId : ℕ} {copies : List Copy} {copy : Copy} {row : WalletRotationTransfer} :
      s.calls n = .claimed rotationId copies copy → s.rotations[rotationId]? = some row →
      copy.2.unsignedTxXdr.token = copy.2.tokenContract →
      copy.2.unsignedTxXdr.recipient = row.destinationAddress →
      copy.2.unsignedTxXdr.amount = copy.2.amountScaled → s'.landed = s.landed →
      s'.pending = s.pending ++ [⟨copy.1, copy.2.unsignedTxXdr⟩] → s'.balances = s.balances →
      ChainEffect s l s'
  | landed {t : Sent} : t ∈ s.pending → (∀ t' ∈ s.landed, t'.tx.nonce ≠ t.tx.nonce) → l = .other →
      s'.landed = s.landed ++ [t] → s'.pending ⊆ s.pending →
      s'.balances = Function.update s.balances t.tx.token (s.balances t.tx.token - t.tx.amount) →
      ChainEffect s l s'
  | withdrawn {token : Address} {amount : ℕ} : l = .withdraw token amount →
      s'.landed = s.landed → s'.pending ⊆ s.pending →
      s'.balances = Function.update s.balances token (s.balances token - amount) →
      ChainEffect s l s'

theorem Step.chain (h : Step s l s') :
  ChainEffect s l s'
  := by
  cases h with
  | send hphase hrow htoken hrecipient hamount =>
    exact .sent hphase hrow htoken hrecipient hamount rfl rfl rfl
  | land ht hfresh _ => exact .landed ht hfresh rfl rfl (List.filter_subset_self _) rfl
  | fade => exact .nothing rfl (List.filter_subset_self _) fun _ => le_refl _
  | @deposit token amount =>
    refine .nothing rfl (List.Subset.refl _) ?_
    intro token'
    show s.balances token' ≤ Function.update s.balances token (s.balances token + amount) token'
    rw [Function.update_apply]
    split
    · rename_i htoken
      rw [htoken]
      apply Nat.le_add_right
    · apply le_refl
  | withdraw => exact .withdrawn rfl rfl (List.Subset.refl _) rfl
  | _ => exact .nothing rfl (List.Subset.refl _) fun _ => le_refl _

/-- What is inserted into the ledger is of an item without a row, when its transfer has landed, or
when the item is reconciled. -/
theorem Step.registry (h : Step s l s') :
  s'.registry = s.registry ∨ ∃ (n rotationId : ℕ) (row : WalletRotationTransfer) (copy : Copy)
    (receipt : Option Receipt), s.rotations[rotationId]? = some row
      ∧ (∀ entry ∈ s.registry, entry.sourceRef ≠ copy.1)
      ∧ s'.registry = s.registry ++ [custodyEntry row.destinationAddress copy receipt]
      ∧ ((∃ copies, s.calls n = .sent rotationId copies copy)
          ∧ ⟨copy.1, copy.2.unsignedTxXdr⟩ ∈ s.landed
        ∨ (∃ copies drained, s.calls n = .reconciling rotationId copies (copy :: drained))
          ∧ l = .reconcile copy ∧ ∃ item, s.items[copy.1]? = some item ∧ item.Stuck)
  := by
  cases h with
  | @confirm n rotationId copies copy row receipt hphase hrow hlanded
  | @confirmLost n rotationId copies copy row receipt hphase hrow hlanded =>
    by_cases hrecorded : ∃ entry ∈ s.registry, entry.sourceRef = copy.1
    · exact .inl (if_pos hrecorded)
    · refine .inr ⟨n, rotationId, row, copy, some receipt, hrow, ?_, if_neg hrecorded, ?_⟩
      · intro entry hentry hsource
        exact hrecorded ⟨entry, hentry, hsource⟩
      · exact .inl ⟨⟨copies, hphase⟩, hlanded⟩
  | @reconcile n rotationId copies drained copy row items hphase hrow hitems =>
    by_cases hrecorded : ∃ entry ∈ s.registry, entry.sourceRef = copy.1
    · exact .inl (if_pos hrecorded)
    · refine .inr ⟨n, rotationId, row, copy, copy.2.receipt, hrow, ?_, if_neg hrecorded, ?_⟩
      · intro entry hentry hsource
        exact hrecorded ⟨entry, hentry, hsource⟩
      · obtain ⟨item, hitem, hstuck, _⟩ := compareAndSet_eq_some.mp hitems
        exact .inr ⟨⟨copies, drained, hphase⟩, rfl, item, hitem, hstuck⟩
  | _ => exact .inl rfl

/-- What has landed stays so. -/
theorem Step.landed (h : Step s l s') (hlanded : Landed s id) :
  Landed s' id
  := by
  obtain ⟨t, ht, hitem⟩ := hlanded
  cases h.chain with
  | nothing heq | sent _ _ _ _ _ heq | withdrawn _ heq => exact ⟨t, heq ▸ ht, hitem⟩
  | landed _ _ _ heq => exact ⟨t, heq ▸ List.mem_append_left _ ht, hitem⟩

/-- What is in the ledger stays there. -/
theorem Step.recorded (h : Step s l s') (hrecorded : Recorded s id) :
  Recorded s' id
  := by
  obtain ⟨entry, hentry, hsource⟩ := hrecorded
  rcases h.registry with heq | ⟨_, _, _, _, _, _, _, heq, _⟩
  · exact ⟨entry, heq ▸ hentry, hsource⟩
  · exact ⟨entry, heq ▸ List.mem_append_left _ hentry, hsource⟩

/-- A rotation stays, with its destination. -/
theorem Step.rotation {rotationId : ℕ} {row : WalletRotationTransfer} (h : Step s l s')
    (hrow : s.rotations[rotationId]? = some row) :
  ∃ row', s'.rotations[rotationId]? = some row'
    ∧ (row' = row ∨ RotationUpdate l rotationId row row')
  := by
  obtain ⟨row', hrow', heq | heq | hupdate⟩ := h.rotations.of_before hrow
  · exact ⟨row', hrow', .inl heq⟩
  · exact ⟨row', hrow', .inl heq⟩
  · exact ⟨row', hrow', .inr hupdate⟩

/-- What is closed stays so. -/
theorem Step.closed {rotationId : ℕ} (h : Step s l s') (hclosed : Closed s rotationId) :
  Closed s' rotationId
  := by
  obtain ⟨row, hrow, hactive⟩ := hclosed
  obtain ⟨row', hrow', rfl | hupdate⟩ := h.rotation hrow
  · exact ⟨row', hrow', hactive⟩
  · refine ⟨row', hrow', ?_⟩
    cases hupdate with
    | demoted hstatus => exact fun hactive' => hactive ⟨hstatus, hactive'.2⟩
    | completed => exact fun hactive' => hactive'.1 rfl
    | dropped => exact fun hactive' => Bool.noConfusion hactive'.2

/-- A rotation that is active was active, or it has been created when none was. -/
theorem Step.active_before {rotationId : ℕ} {row' : WalletRotationTransfer} (h : Step s l s')
    (hrow' : s'.rotations[rotationId]? = some row') (hactive : row'.Active) :
  (∃ row, s.rotations[rotationId]? = some row ∧ row.Active)
    ∨ l = .create ∧ rotationId = s.rotations.length ∧ ∀ row ∈ s.rotations, ¬ row.Active
  := by
  rcases h.rotations.of_after hrow' with ⟨row, hrow, hupdate⟩ | ⟨_, hid, hl, hnone⟩
  · left
    refine ⟨row, hrow, ?_⟩
    rcases hupdate with rfl | rfl | hupdate
    · exact hactive
    · exact hactive
    · cases hupdate with
      | demoted hstatus => exact ⟨hstatus, hactive.2⟩
      | completed => exact absurd rfl hactive.1
      | dropped => cases hactive.2
  · exact .inr ⟨hl, hid, hnone⟩

/-- What is dropped with a rotation. -/
theorem Step.items_of_softCancel {rotationId : ℕ} (h : Step s (.softCancel rotationId) s') :
  s'.items = dropItems s.items rotationId
  := by
  cases h
  rfl

/-- A call is about an item that it was about before, or that it has claimed. -/
theorem Step.about {n : ℕ} (h : Step s l s') (habout : (s'.calls n).about = some id) :
  (s.calls n).about = some id ∨ ∃ copy, l = .claim copy ∧ copy.1 = id
  := by
  have henter : ∀ m phase, (phase.about = some id → (s.calls m).about = some id
      ∨ ∃ copy, l = .claim copy ∧ copy.1 = id) →
      ∀ n, (Function.update s.calls m phase n).about = some id →
        (s.calls n).about = some id ∨ ∃ copy, l = .claim copy ∧ copy.1 = id :=
    fun m phase hphase => (Function.forall_update_iff s.calls fun n phase => phase.about = some id →
      (s.calls n).about = some id ∨ ∃ copy, l = .claim copy ∧ copy.1 = id).mpr
        ⟨hphase, fun n _ => .inl⟩
  cases h with
  | @claim m rotationId copies copy items =>
    apply henter m (.claimed rotationId copies copy) _ n habout
    intro hid
    exact .inr ⟨copy, rfl, Option.some.inj hid⟩
  | send hphase | confirmLost hphase =>
    exact henter _ _ (fun hid => .inl (by rw [hphase]; exact hid)) n habout
  | land | fade | deposit | withdraw => exact .inl habout
  | _ => exact henter _ _ (fun hid => by cases hid) n habout

end Effects

end Rotation
