import Tove.Wallets.Export
import Tove.Wallets.RotationLedger

/-!
# When the latch is safe

A wallet is to be latched only when the balances of the items of its export were found to be
zero after the last of them was confirmed, an export that is completed is to stay so, and no
export is to be active beside a rotation.

The second holds in every run: the constraint on the table undoes the statement that would mark
a completed export as being submitted. `status` finalizes with balances that were read before
the items were confirmed, and that are not those of all items; `submit` reads the balances of
the items that it has in memory; and the check for the other feature is made long before the row
is inserted.
-/

namespace WalletExports

open Soroban Transition Rows

/-! ### What is to hold -/

/-- The balance of the token was found to be zero after the last item of the export was
confirmed. -/
def ZeroSince (s : State) (exportId : ℕ) (token : Address) : Prop :=
  Since (fun event => event = .zero token) (fun event => ∃ id, event = .confirmed id exportId) s.events

/-- When a step latches the wallet, it does so for an export of which the items have been
confirmed, and the balances have been found to be zero since. -/
def LatchSafe (s : State) (l : Label) (s' : State) : Prop :=
  s.exported = false → s'.exported = true → ∃ exportId, l = .latch exportId
    ∧ ∀ (id : ℕ) (item : WalletExportItem), s.items[id]? = some item → item.exportId = exportId →
      .confirmed id exportId ∈ s.events ∧ ZeroSince s exportId item.tokenContract

/-- What is completed stays completed. -/
def StaysCompleted (s s' : State) : Prop :=
  ∀ (exportId : ℕ) (row : WalletExport), s.exports[exportId]? = some row → row.status = .completed →
    ∃ row', s'.exports[exportId]? = some row' ∧ row'.status = .completed

/-- No export is active beside a rotation. -/
def Exclusive (s : State) : Prop :=
  ¬ ((∃ row ∈ s.exports, row.InFlight) ∧ ∃ row ∈ s.rotation.rotations, InFlight row)

/-! ### The condition -/

/-- The export that a call is to finalize with balances that it has found to be zero. -/
def Phase.latching : Phase → Option ℕ
  | .checking exportId _ | .finalizing exportId true | .completing exportId => some exportId
  | _ => none

/-- An export is created only while no rotation is active, and a rotation only while no export
is; `submit` goes on to read the balances only if it has all items of the export in memory, and
until it has finalized the export no item of it is built or confirmed; and `status` does not
finalize. -/
def Careful (s : State) (l : Label) (_ : State) : Prop :=
  match l with
  | .create => ∀ row ∈ s.rotation.rotations, ¬ row.Active
  | .rotation .create => ∀ row ∈ s.exports, row.status = .completed
  | .check exportId copies => ∀ item ∈ s.items, item.exportId = exportId →
    ∃ copy ∈ copies, copy.2.tokenContract = item.tokenContract
  | .upsert exportId | .confirm exportId => ∀ n, (s.calls n).latching ≠ some exportId
  | .reconciled _ => False
  | .rotation _ | .latch _ | .other => True

variable {s s' : State} {l : Label} {n exportId id : ℕ} {copies copies' : List Copy} {copy : Copy}
  {item item' : WalletExportItem} {token : Address} {tokens : List Address}
  {status : WalletExportItemStatus}

/-! ### What a call knows -/

/-- The copies are of items of the export. -/
def Copied (s : State) (exportId : ℕ) (copies : List Copy) : Prop :=
  ∀ copy ∈ copies, ∃ item, s.items[copy.1]? = some item ∧ item.exportId = exportId

/-- The balances of the items have been found to be zero, apart from those of the tokens. -/
def Zeroed (s : State) (exportId : ℕ) (tokens : List Address) : Prop :=
  ∀ item ∈ s.items, item.exportId = exportId →
    item.tokenContract ∈ tokens ∨ ZeroSince s exportId item.tokenContract

/-- The items have been confirmed, and their balances found to be zero since. -/
def Counted (s : State) (exportId : ℕ) : Prop :=
  ∀ (id : ℕ) (item : WalletExportItem), s.items[id]? = some item → item.exportId = exportId →
    .confirmed id exportId ∈ s.events ∧ ZeroSince s exportId item.tokenContract

/-- What a call knows in its phase. -/
def Known (s : State) : Phase → Prop
  | .building exportId _ copies _ | .submitting exportId copies => Copied s exportId copies
  | .claimed exportId copies copy | .caught exportId copies copy => Copied s exportId (copy :: copies)
  | .polling exportId _ stuck drained => Copied s exportId (stuck ++ drained)
  | .reconciling exportId _ drained => Copied s exportId drained
  | .checking exportId tokens => Zeroed s exportId tokens
  | .finalizing exportId true => Zeroed s exportId []
  | .completing exportId => Counted s exportId
  | _ => True

theorem copied_itemsOf :
  Copied s exportId (itemsOf s.items exportId)
  := by
  intro copy hcopy
  obtain ⟨id, item⟩ := copy
  simp only [itemsOf, List.mem_map, List.mem_filter, decide_eq_true_iff, Prod.mk.injEq] at hcopy
  obtain ⟨p, ⟨hp, hof⟩, rfl, rfl⟩ := hcopy
  exact ⟨p.1, List.mem_zipIdx_iff_getElem?.mp hp, hof⟩

theorem Copied.subset (h : Copied s exportId copies) (hsubset : copies' ⊆ copies) :
  Copied s exportId copies'
  := fun copy hcopy => h copy (hsubset hcopy)

theorem Copied.mark (h : Copied s exportId copies) :
  Copied s exportId (mark copies id status)
  := by
  intro copy hcopy
  obtain ⟨copy₀, hcopy₀, rfl⟩ := List.mem_map.mp hcopy
  have hknown := h copy₀ hcopy₀
  split
  · rename_i hid
    rw [← hid]
    exact hknown
  · exact hknown

/-! ### What a step changes -/

/-- How a step may update an item: it is noted when it is confirmed. -/
structure ItemUpdate (s' : State) (id : ℕ) (item item' : WalletExportItem) : Prop where
  exportId : item'.exportId = item.exportId
  token : item'.tokenContract = item.tokenContract
  confirmed : item'.status = .confirmed → .confirmed id item.exportId ∈ s'.events

/-- An item is built again, or inserted. -/
theorem upsertItemBuild_change {existingId : Option ℕ} {amount : ℕ} {items : List WalletExportItem}
    (h : upsertItemBuild s.items existingId exportId token amount = items) :
  Change (fun item => item.exportId = exportId ∧ item.status = .pending) (ItemUpdate s') s.items items
  := by
  obtain rfl := h
  cases existingId with
  | some id =>
    apply Change.of_modify
    intro item _
    exact ⟨rfl, rfl, fun hstatus => by cases hstatus⟩
  | none => exact .insert ⟨rfl, rfl⟩

/-- A step updates one item at most, or inserts one. -/
theorem Step.items (hknown : ∀ n, Known s (s.calls n)) (h : Step s l s') :
  Change (fun item => l = .upsert item.exportId ∧ item.status = .pending) (ItemUpdate s')
    s.items s'.items
  := by
  cases h with
  | upsert _ _ _ hitems =>
    apply (upsertItemBuild_change hitems).mono
    · rintro item ⟨rfl, hstatus⟩
      exact ⟨rfl, hstatus⟩
    · exact fun _ _ _ hupdate => hupdate
  | claim _ _ _ hclaim =>
    apply Change.of_compareAndSet hclaim
    intro item _ _
    exact ⟨rfl, rfl, fun hstatus => by cases hstatus⟩
  | @confirm n exportId copies copy hphase | @confirmLost n exportId copies copy hphase =>
    apply Change.of_modify
    intro item hitem
    refine ⟨rfl, rfl, fun _ => ?_⟩
    have hcopied := hknown n
    rw [hphase] at hcopied
    obtain ⟨item', hitem', rfl⟩ := hcopied copy (by simp)
    obtain rfl := Option.some.inj (hitem.symm.trans hitem')
    simp [State.note]
  | fail =>
    apply Change.of_modify
    intro item _
    exact ⟨rfl, rfl, fun hstatus => by cases hstatus⟩
  | @reconcile n exportId copies drained copy items hphase hitems =>
    apply Change.of_compareAndSet hitems
    intro item hitem _
    refine ⟨rfl, rfl, fun _ => ?_⟩
    have hcopied := hknown n
    rw [hphase] at hcopied
    obtain ⟨item', hitem', rfl⟩ := hcopied copy (by simp)
    obtain rfl := Option.some.inj (hitem.symm.trans hitem')
    simp [State.note]
  | _ => exact .same

/-- A step notes one event at most. -/
theorem Step.events (h : Step s l s') :
  s'.events = s.events ∨ (∃ token, s'.events = s.events ++ [.zero token])
    ∨ ∃ id exportId, l = .confirm exportId ∧ s'.events = s.events ++ [.confirmed id exportId]
  := by
  cases h with
  | readZero | checked | drained => exact .inr (.inl ⟨_, rfl⟩)
  | confirm | confirmLost | reconcile => exact .inr (.inr ⟨_, _, rfl, rfl⟩)
  | _ => exact .inl rfl

theorem Step.mem_events {event : Event} (h : Step s l s') (hevent : event ∈ s.events) :
  event ∈ s'.events
  := by
  rcases h.events with heq | ⟨_, heq⟩ | ⟨_, _, _, heq⟩
  · rwa [heq]
  · rw [heq]
    exact List.mem_append_left _ hevent
  · rw [heq]
    exact List.mem_append_left _ hevent

/-- A balance that was zero counts until an item of the export is confirmed. -/
theorem Step.zeroSince (h : Step s l s') (hl : l ≠ .confirm exportId)
    (hzero : ZeroSince s exportId token) :
  ZeroSince s' exportId token
  := by
  rw [ZeroSince]
  rcases h.events with heq | ⟨_, heq⟩ | ⟨id, exportId', hconfirm, heq⟩
  · rwa [heq]
  · rw [heq]
    apply Since.later hzero
    rintro ⟨id, hevent⟩
    cases hevent
  · rw [heq]
    apply Since.later hzero
    rintro ⟨id', hevent⟩
    injection hevent with _ hexport
    rw [hexport] at hconfirm
    exact hl hconfirm

/-- An item stays, with its export and its token. -/
theorem Step.item_before (hknown : ∀ n, Known s (s.calls n)) (h : Step s l s')
    (hitem : s.items[id]? = some item) :
  ∃ item', s'.items[id]? = some item' ∧ item'.exportId = item.exportId
    ∧ item'.tokenContract = item.tokenContract
  := by
  obtain ⟨item', hitem', rfl | hupdate⟩ := (h.items hknown).of_before hitem
  · exact ⟨item', hitem', rfl, rfl⟩
  · exact ⟨item', hitem', hupdate.exportId, hupdate.token⟩

/-- An item was there before, unless its export is built. -/
theorem Step.item_after (hknown : ∀ n, Known s (s.calls n)) (h : Step s l s')
    (hitem : s'.items[id]? = some item') (hl : l ≠ .upsert item'.exportId) :
  ∃ item, s.items[id]? = some item ∧ item'.exportId = item.exportId
    ∧ item'.tokenContract = item.tokenContract
  := by
  rcases (h.items hknown).of_after hitem with ⟨item, hitem₀, rfl | hupdate⟩ | ⟨_, _, hinsert⟩
  · exact ⟨item', hitem₀, rfl, rfl⟩
  · exact ⟨item, hitem₀, hupdate.exportId, hupdate.token⟩
  · exact absurd hinsert.1 hl

/-- What is confirmed has been noted. -/
theorem Step.confirmed (hknown : ∀ n, Known s (s.calls n))
    (hconfirmed : ∀ (id : ℕ) (item : WalletExportItem), s.items[id]? = some item →
      item.status = .confirmed → .confirmed id item.exportId ∈ s.events)
    (h : Step s l s') (hitem : s'.items[id]? = some item') (hstatus : item'.status = .confirmed) :
  .confirmed id item'.exportId ∈ s'.events
  := by
  rcases (h.items hknown).of_after hitem with ⟨item, hitem₀, rfl | hupdate⟩ | ⟨_, _, _, hpending⟩
  · exact h.mem_events (hconfirmed id item' hitem₀ hstatus)
  · rw [hupdate.exportId]
    exact hupdate.confirmed hstatus
  · rw [hpending] at hstatus
    cases hstatus

/-! ### The latch -/

theorem Copied.step (hknown : ∀ n, Known s (s.calls n)) (h : Step s l s')
    (hcopied : Copied s exportId copies) :
  Copied s' exportId copies
  := by
  intro copy hcopy
  obtain ⟨item, hitem, hof⟩ := hcopied copy hcopy
  obtain ⟨item', hitem', hexport, _⟩ := h.item_before hknown hitem
  exact ⟨item', hitem', hexport.trans hof⟩

/-- Nothing of an export that a call is to finalize is built or confirmed. -/
theorem Careful.ne (hc : Careful s l s') (hlatching : (s.calls n).latching = some exportId) :
  l ≠ .upsert exportId ∧ l ≠ .confirm exportId
  := by
  constructor <;> rintro rfl <;> exact hc n hlatching

theorem Zeroed.step (hknown : ∀ n, Known s (s.calls n)) (h : Step s l s') (hc : Careful s l s')
    (hlatching : (s.calls n).latching = some exportId) (hzeroed : Zeroed s exportId tokens) :
  Zeroed s' exportId tokens
  := by
  obtain ⟨hupsert, hconfirm⟩ := hc.ne hlatching
  intro item' hitem' hof
  obtain ⟨id, hid⟩ := List.mem_iff_getElem?.mp hitem'
  obtain ⟨item, hitem, hexport, htoken⟩ := h.item_after hknown hid (by rwa [hof])
  rw [htoken]
  rcases hzeroed item (List.mem_of_getElem? hitem) (hexport.symm.trans hof) with hmem | hzero
  · exact .inl hmem
  · exact .inr (h.zeroSince hconfirm hzero)

theorem Counted.step (hknown : ∀ n, Known s (s.calls n)) (h : Step s l s') (hc : Careful s l s')
    (hlatching : (s.calls n).latching = some exportId) (hcounted : Counted s exportId) :
  Counted s' exportId
  := by
  obtain ⟨hupsert, hconfirm⟩ := hc.ne hlatching
  intro id item' hitem' hof
  obtain ⟨item, hitem, hexport, htoken⟩ := h.item_after hknown hitem' (by rwa [hof])
  obtain ⟨hevent, hzero⟩ := hcounted id item hitem (hexport.symm.trans hof)
  rw [htoken]
  exact ⟨h.mem_events hevent, h.zeroSince hconfirm hzero⟩

/-- What a call knows stays true. -/
theorem Known.step (hknown : ∀ n, Known s (s.calls n)) (h : Step s l s') (hc : Careful s l s') :
  Known s' (s.calls n)
  := by
  have hphase := hknown n
  cases hcalls : s.calls n with
  | building | submitting | claimed | caught | reconciling | polling =>
    rw [hcalls] at hphase
    exact Copied.step hknown h hphase
  | checking =>
    rw [hcalls] at hphase
    exact Zeroed.step hknown h hc (by rw [hcalls]; rfl) hphase
  | finalizing exportId allBalancesZero =>
    rw [hcalls] at hphase
    cases allBalancesZero with
    | true => exact Zeroed.step hknown h hc (by rw [hcalls]; rfl) hphase
    | false => trivial
  | completing =>
    rw [hcalls] at hphase
    exact Counted.step hknown h hc (by rw [hcalls]; rfl) hphase
  | _ => trivial

/-- What the calls know after a step. -/
theorem Step.known (hknown : ∀ n, Known s (s.calls n))
    (hconfirmed : ∀ (id : ℕ) (item : WalletExportItem), s.items[id]? = some item →
      item.status = .confirmed → .confirmed id item.exportId ∈ s.events)
    (h : Step s l s') (hc : Careful s l s') :
  ∀ n, Known s' (s'.calls n)
  := by
  have hframe : ∀ n, Known s' (s.calls n) := fun n => Known.step hknown h hc
  have henter : ∀ n phase, Known s' phase → ∀ n', Known s' (Function.update s.calls n phase n') :=
    fun n phase hphase => (Function.forall_update_iff s.calls fun _ => Known s').mpr
      ⟨hphase, fun n' _ => hframe n'⟩
  have hbefore : ∀ {n phase}, s.calls n = phase → Known s phase ∧ Known s' phase := by
    rintro n phase rfl
    exact ⟨hknown n, hframe n⟩
  cases h with
  | found | conflict | load => exact henter _ _ copied_itemsOf
  | create => exact henter _ _ (by simp [Known, Copied])
  | skip hphase | upsert hphase => exact henter _ _ (hbefore hphase).2
  | @claim n exportId copies copy items hphase hcopy =>
    refine henter _ _ ((hbefore hphase).2.subset ?_)
    simp [hcopy]
  | confirm hphase => exact henter _ _ ((hbefore hphase).2.subset (List.subset_cons_self _ _)).mark
  | confirmLost hphase => exact henter _ _ (hbefore hphase).2
  | fail hphase =>
    rcases hphase with hphase | hphase
    · exact henter _ _ ((hbefore hphase).2.subset (List.subset_cons_self _ _)).mark
    · exact henter _ _ ((hbefore hphase).2.subset (List.subset_cons_self _ _)).mark
  | check hphase =>
    refine henter _ _ ?_
    intro item hitem hof
    obtain ⟨copy, hcopy, htoken⟩ := hc item hitem hof
    exact .inl (List.mem_map.mpr ⟨copy, hcopy, htoken⟩)
  | @checked n exportId token tokens hphase =>
    refine henter _ _ ?_
    intro item hitem hof
    rcases (hbefore hphase).2 item hitem hof with hmem | hzero
    · rcases List.mem_cons.mp hmem with htoken | hmem
      · rw [htoken]
        exact .inr (.now rfl)
      · exact .inl hmem
    · exact .inr hzero
  | gone hphase => exact henter _ _ (hbefore hphase).2
  | poll =>
    refine henter _ _ ?_
    dsimp only [Known]
    rw [List.append_nil]
    exact Copied.subset copied_itemsOf (List.filter_subset_self _)
  | drained hphase => exact henter _ _ ((hbefore hphase).2.subset (by simp))
  | held hphase => exact henter _ _ ((hbefore hphase).2.subset (by simp))
  | polled hphase => exact henter _ _ (hbefore hphase).2
  | reconcile hphase | unstuck hphase =>
    exact henter _ _ ((hbefore hphase).2.subset (List.subset_cons_self _ _))
  | reconciled => cases hc
  | @count n exportId hphase _ hall =>
    refine henter _ _ ?_
    intro id item hitem hof
    have hmem := List.mem_of_getElem? hitem
    refine ⟨?_, ((hbefore hphase).2 item hmem hof).resolve_left List.not_mem_nil⟩
    rw [← hof]
    exact hconfirmed id item hitem (hall.2 item hmem hof)
  | rotation => exact hframe
  | _ => exact henter _ _ trivial

theorem Step.latchSafe (hknown : ∀ n, Known s (s.calls n)) (h : Step s l s') :
  LatchSafe s l s'
  := by
  intro hexported hexported'
  cases h with
  | @latch n exportId hphase =>
    have hcounted := hknown n
    rw [hphase] at hcounted
    exact ⟨exportId, rfl, hcounted⟩
  | _ => exact absurd (hexported.symm.trans hexported') (by simp)

/-! ### The exports -/

/-- How a step may update an export: the constraint is met, and what is completed stays so. -/
def ExportUpdate (row row' : WalletExport) : Prop :=
  row'.Checked ∧ (row.Checked → row.status = .completed → row'.status = .completed)

/-- A step updates one export at most, or creates one. -/
theorem Step.exports (h : Step s l s') :
  Change (fun row => row.Checked ∧ l = .create) (fun _ row row' => ExportUpdate row row')
    s.exports s'.exports
  := by
  cases h with
  | create => exact .insert ⟨by simp [WalletExport.Checked], rfl⟩
  | demote _ _ _ hdemote =>
    apply Change.of_compareAndSet hdemote
    intro row _ hchecked
    refine ⟨hchecked, fun hbefore hstatus => ?_⟩
    have hcompletedAt := hchecked.mpr (hbefore.mp hstatus)
    cases hcompletedAt
  | latch =>
    apply Change.of_modify
    intro row _
    exact ⟨⟨fun _ => rfl, fun _ => rfl⟩, fun _ _ => rfl⟩
  | _ => exact .same

/-- The constraint holds of every row. -/
theorem Step.constraint (h : Step s l s') (hs : ∀ row ∈ s.exports, row.Checked) :
  ∀ row ∈ s'.exports, row.Checked
  := by
  intro row' hrow'
  obtain ⟨id, hid⟩ := List.mem_iff_getElem?.mp hrow'
  rcases h.exports.of_after hid with ⟨row, hrow, rfl | hupdate⟩ | ⟨_, _, hinsert⟩
  · exact hs row' (List.mem_of_getElem? hrow)
  · exact hupdate.1
  · exact hinsert.1

theorem checked_of_reachable (h : system.Reachable s) :
  ∀ row ∈ s.exports, row.Checked
  := by
  apply h.invariant (I := fun s => ∀ row ∈ s.exports, row.Checked)
  · intro s₀ hinit row hrow
    rw [hinit.2.2.1] at hrow
    cases hrow
  · intro s₀ l s₁ hs₀ hstep
    apply hstep.constraint hs₀

/-- What is completed stays completed, in every run. -/
theorem staysCompleted :
  system.EveryStep fun s _ s' => StaysCompleted s s'
  := by
  intro s l s' hreachable h exportId row hrow hstatus
  have hchecked := checked_of_reachable hreachable row (List.mem_of_getElem? hrow)
  have hchange := Step.exports h
  obtain ⟨row', hrow', rfl | hupdate⟩ := hchange.of_before hrow
  · exact ⟨row', hrow', hstatus⟩
  · exact ⟨row', hrow', hupdate.2 hchecked hstatus⟩

/-! ### The other feature -/

/-- No export that is not completed is beside a rotation that is active. -/
def Apart (s : State) : Prop :=
  ¬ ((∃ row ∈ s.exports, row.status ≠ .completed) ∧ ∃ row ∈ s.rotation.rotations, row.Active)

/-- An export that is not completed was there, or it is created. -/
theorem Step.export_before (h : Step s l s') (hs : ∀ row ∈ s.exports, row.Checked)
    (hactive : ∃ row ∈ s'.exports, row.status ≠ .completed) :
  (∃ row ∈ s.exports, row.status ≠ .completed) ∨ l = .create
  := by
  obtain ⟨row', hrow', hstatus⟩ := hactive
  obtain ⟨id, hid⟩ := List.mem_iff_getElem?.mp hrow'
  rcases h.exports.of_after hid with ⟨row, hrow, rfl | hupdate⟩ | ⟨_, _, hinsert⟩
  · exact .inl ⟨row', List.mem_of_getElem? hrow, hstatus⟩
  · left
    have hmem := List.mem_of_getElem? hrow
    exact ⟨row, hmem, fun hbefore => hstatus (hupdate.2 (hs row hmem) hbefore)⟩
  · exact .inr hinsert.2

/-- A rotation that is active was there, or it is created. -/
theorem Step.rotation_before (h : Step s l s')
    (hactive : ∃ row ∈ s'.rotation.rotations, row.Active) :
  (∃ row ∈ s.rotation.rotations, row.Active) ∨ l = .rotation .create
  := by
  cases h with
  | rotation hstep =>
    obtain ⟨row', hrow', hactive⟩ := hactive
    obtain ⟨id, hid⟩ := List.mem_iff_getElem?.mp hrow'
    rcases hstep.active_before hid hactive with ⟨row, hrow, hbefore⟩ | ⟨hl, _⟩
    · exact .inl ⟨row, List.mem_of_getElem? hrow, hbefore⟩
    · exact .inr (by rw [hl])
  | _ => exact .inl hactive

theorem Step.apart (h : Step s l s') (hs : ∀ row ∈ s.exports, row.Checked) (hapart : Apart s)
    (hc : Careful s l s') :
  Apart s'
  := by
  rintro ⟨hexport, hrotation⟩
  rcases h.export_before hs hexport with hexport₀ | rfl
  · rcases h.rotation_before hrotation with hrotation₀ | rfl
    · exact hapart ⟨hexport₀, hrotation₀⟩
    · obtain ⟨row, hrow, hstatus⟩ := hexport₀
      exact hstatus (hc row hrow)
  · rcases h.rotation_before hrotation with ⟨row, hrow, hactive⟩ | hl
    · exact hc row hrow hactive
    · cases hl

theorem Apart.exclusive (h : Apart s) :
  Exclusive s
  := by
  rintro ⟨⟨row, hrow, hstatus⟩, row', hrow', hstatus', hdeleted⟩
  refine h ⟨⟨row, hrow, ?_⟩, row', hrow', ?_, hdeleted⟩
  · rcases hstatus with hstatus | hstatus <;> simp [hstatus]
  · rcases hstatus' with hstatus' | hstatus' <;> simp [hstatus']

/-! ### The runs -/

/-- What holds in every run whose steps are careful. -/
structure Tracked (s : State) : Prop where
  known : ∀ n, Known s (s.calls n)
  confirmed : ∀ (id : ℕ) (item : WalletExportItem), s.items[id]? = some item →
    item.status = .confirmed → .confirmed id item.exportId ∈ s.events
  checked : ∀ row ∈ s.exports, row.Checked
  apart : Apart s

theorem Step.tracked (hs : Tracked s) (h : Step s l s') (hc : Careful s l s') :
  Tracked s' where
  known := h.known hs.known hs.confirmed hc
  confirmed := fun _ _ => h.confirmed hs.known hs.confirmed
  checked := h.constraint hs.checked
  apart := h.apart hs.checked hs.apart hc

theorem tracked_of_reachable (h : (system.restrict Careful).Reachable s) :
  Tracked s
  := by
  apply h.invariant
  · rintro s₀ ⟨_, _, hexports, hitems, _, hcalls⟩
    constructor
    · intro n
      rw [hcalls n]
      trivial
    · intro id item hitem
      rw [hitems] at hitem
      cases hitem
    · intro row hrow
      rw [hexports] at hrow
      cases hrow
    · rintro ⟨⟨row, hrow, _⟩, _⟩
      rw [hexports] at hrow
      cases hrow
  · rintro s₁ l s₂ hs₁ ⟨hstep, hc⟩
    apply hstep.tracked hs₁ hc

/-- In every run whose steps are careful, no export is active beside a rotation, the wallet is
latched safely, and what is completed stays so. -/
theorem safe_of_careful (h : (system.restrict Careful).Reachable s) :
  Exclusive s ∧ ∀ l s', (system.restrict Careful).step s l s' →
    LatchSafe s l s' ∧ StaysCompleted s s'
  := by
  constructor
  · exact (tracked_of_reachable h).apart.exclusive
  · rintro l s' ⟨hstep, _⟩
    constructor
    · apply Step.latchSafe (tracked_of_reachable h).known hstep
    · apply staysCompleted s l s' h.of_restrict hstep

/-- A wallet with two tokens, and one call. -/
def sampleState (balances : Address → ℕ) (exports : List WalletExport) (items : List WalletExportItem)
    (events : List Event) (phase : Phase) : State where
  rotation := ⟨[], [], [], balances, [], [], fun _ => .idle⟩
  exported := false
  exports
  items
  events
  calls := Function.update (fun _ => .idle) 0 phase

def sampleBalances (a b : ℕ) : Address → ℕ :=
  Function.update (Function.update (fun _ => 0) (.contract 1) a) (.contract 2) b

def sampleExport : WalletExport := ⟨.account 3, .pending, false⟩

def sampleItem (status : WalletExportItemStatus) : WalletExportItem := ⟨0, .contract 1, 10, status⟩

def sampleItem' (status : WalletExportItemStatus) : WalletExportItem := ⟨0, .contract 2, 20, status⟩

theorem sample_not_latching {balances : Address → ℕ} {exports : List WalletExport}
    {items : List WalletExportItem} {events : List Event} {phase : Phase}
    (h : phase.latching = none) :
  ∀ n, ((sampleState balances exports items events phase).calls n).latching ≠ some exportId
  := by
  apply (Function.forall_update_iff (fun _ => Phase.idle)
    fun _ phase => phase.latching ≠ some exportId).mpr
  constructor
  · rw [h]
    simp
  · intro n _ hn
    cases hn

/-- The items are built, and a call is to submit them. -/
theorem sample_loaded :
  (system.restrict Careful).Reachable (sampleState (sampleBalances 10 20) [sampleExport]
    [sampleItem .pending, sampleItem' .pending] []
    (.submitting 0 [(0, sampleItem .pending), (1, sampleItem' .pending)]))
  := by
  have hinit : (system.restrict Careful).Reachable
      (sampleState (sampleBalances 10 20) [] [] [] .idle) :=
    .init ⟨⟨rfl, rfl, rfl, rfl, rfl, fun _ => rfl⟩, rfl, rfl, rfl, rfl, by simp [sampleState]⟩
  have hresolved : (system.restrict Careful).Reachable
      (sampleState (sampleBalances 10 20) [] [] [] (.resolved (.account 3))) := by
    have h := hinit.step ⟨@Step.resolve _ 0 (.account 3) rfl rfl, trivial⟩
    simpa [State.enter, sampleState] using h
  have hreading : (system.restrict Careful).Reachable
      (sampleState (sampleBalances 10 20) [] [] [] (.reading (.account 3) [])) := by
    have h := hresolved.step ⟨@Step.initiate _ 0 (.account 3) rfl (by simp [sampleState]), trivial⟩
    simpa [State.enter, sampleState] using h
  have hread : (system.restrict Careful).Reachable
      (sampleState (sampleBalances 10 20) [] [] [] (.reading (.account 3) [(.contract 1, 10)])) := by
    have h := hreading.step
      ⟨@Step.read _ 0 (.account 3) (.contract 1) _ rfl (by simp) (by decide), trivial⟩
    simpa [State.enter, sampleState, sampleBalances] using h
  have hread' : (system.restrict Careful).Reachable (sampleState (sampleBalances 10 20) [] [] []
      (.reading (.account 3) [(.contract 1, 10), (.contract 2, 20)])) := by
    have h := hread.step
      ⟨@Step.read _ 0 (.account 3) (.contract 2) _ rfl (by simp) (by decide), trivial⟩
    simpa [State.enter, sampleState, sampleBalances] using h
  have habsent : (system.restrict Careful).Reachable (sampleState (sampleBalances 10 20) [] [] []
      (.creating (.account 3) [(.contract 1, 10), (.contract 2, 20)])) := by
    have h := hread'.step
      ⟨@Step.absent _ 0 (.account 3) _ rfl (by simp) (by simp [sampleState]), trivial⟩
    simpa [State.enter, sampleState] using h
  have hcreated : (system.restrict Careful).Reachable
      (sampleState (sampleBalances 10 20) [sampleExport] [] []
        (.building 0 (.account 3) [] [(.contract 1, 10), (.contract 2, 20)])) := by
    have h := habsent.step
      ⟨@Step.create _ 0 (.account 3) _ rfl (by simp [sampleState]), by simp [Careful, sampleState]⟩
    simpa [State.enter, sampleState, sampleExport] using h
  have hbuilt : (system.restrict Careful).Reachable
      (sampleState (sampleBalances 10 20) [sampleExport] [sampleItem .pending] []
        (.building 0 (.account 3) [] [(.contract 2, 20)])) := by
    have h := hcreated.step ⟨@Step.upsert _ 0 0 (.account 3) [] (.contract 1, 10) _ none _ rfl
      (by simp [ExistingFor]) (by simp) rfl, sample_not_latching rfl⟩
    simpa [State.enter, sampleState, upsertItemBuild, sampleItem, sampleItem'] using h
  have hbuilt' : (system.restrict Careful).Reachable
      (sampleState (sampleBalances 10 20) [sampleExport]
        [sampleItem .pending, sampleItem' .pending] []
        (.building 0 (.account 3) [] [])) := by
    have h := hbuilt.step ⟨@Step.upsert _ 0 0 (.account 3) [] (.contract 2, 20) _ none _ rfl
      (by simp [ExistingFor]) (by simp) rfl, sample_not_latching rfl⟩
    simpa [State.enter, sampleState, upsertItemBuild, sampleItem, sampleItem'] using h
  have hstopped : (system.restrict Careful).Reachable
      (sampleState (sampleBalances 10 20) [sampleExport]
        [sampleItem .pending, sampleItem' .pending] [] .idle) := by
    have h := hbuilt'.step ⟨@Step.stop _ 0, trivial⟩
    simpa [State.enter, sampleState] using h
  have hresolved' : (system.restrict Careful).Reachable
      (sampleState (sampleBalances 10 20) [sampleExport]
        [sampleItem .pending, sampleItem' .pending] [] (.resolved (.account 3))) := by
    have h := hstopped.step ⟨@Step.resolve _ 0 (.account 3) rfl rfl, trivial⟩
    simpa [State.enter, sampleState] using h
  have hloaded := hresolved'.step ⟨@Step.load _ 0 0 (.account 3) sampleExport rfl rfl, trivial⟩
  have hitems : itemsOf [sampleItem .pending, sampleItem' .pending] 0
      = [(0, sampleItem .pending), (1, sampleItem' .pending)] := rfl
  simpa [State.enter, sampleState, hitems] using hloaded

/-- The first item is confirmed, and the second is claimed. -/
theorem sample_claimed :
  (system.restrict Careful).Reachable (sampleState (sampleBalances 10 20) [sampleExport]
    [sampleItem .confirmed, sampleItem' .submitted] [.confirmed 0 0]
    (.claimed 0 [(0, sampleItem .confirmed), (1, sampleItem' .pending)]
      (1, sampleItem' .pending)))
  := by
  have hclaimed : (system.restrict Careful).Reachable (sampleState (sampleBalances 10 20)
      [sampleExport] [sampleItem .submitted, sampleItem' .pending] []
      (.claimed 0 [(0, sampleItem .pending), (1, sampleItem' .pending)]
        (0, sampleItem .pending))) := by
    have h := sample_loaded.step
      ⟨@Step.claim _ 0 0 _ (0, sampleItem .pending) _ rfl (by simp) (by decide) rfl, trivial⟩
    simpa [State.enter, sampleState, sampleItem] using h
  have hconfirmed : (system.restrict Careful).Reachable (sampleState (sampleBalances 10 20)
      [sampleExport] [sampleItem .confirmed, sampleItem' .pending] [.confirmed 0 0]
      (.submitting 0 [(0, sampleItem .confirmed), (1, sampleItem' .pending)])) := by
    have h := hclaimed.step
      ⟨@Step.confirm _ 0 0 _ (0, sampleItem .pending) rfl, sample_not_latching rfl⟩
    simpa [State.note, sampleState, sampleItem, markItemConfirmed, mark] using h
  have h := hconfirmed.step
    ⟨@Step.claim _ 0 0 _ (1, sampleItem' .pending) _ rfl (by simp) (by decide) rfl, trivial⟩
  simpa [State.enter, sampleState, sampleItem, sampleItem'] using h

theorem sample_not_locked {balances : Address → ℕ} {exports : List WalletExport}
    {items : List WalletExportItem} {events : List Event} :
  ¬ (sampleState balances exports items events (.finalizing 0 true)).Locked
  := by
  rintro ⟨n, exportId, hn⟩
  have hall : ∀ n, (sampleState balances exports items events (.finalizing 0 true)).calls n
      ≠ .completing exportId := by
    apply (Function.forall_update_iff (fun _ => Phase.idle) fun _ phase => phase ≠ .completing exportId).mpr
    simp
  exact hall n hn

theorem update_sampleBalances {a b amount : ℕ} :
  Function.update (sampleBalances a b) (.contract 1) amount = sampleBalances amount b
  := by
  rw [sampleBalances, Function.update_comm (by decide), Function.update_idem, sampleBalances]

theorem update_sampleBalances' {a b amount : ℕ} :
  Function.update (sampleBalances a b) (.contract 2) amount = sampleBalances a amount
  := by
  rw [sampleBalances, Function.update_idem, sampleBalances]

/-- The wallet is drained. -/
theorem sample_drained {events : List Event} {phase : Phase} {items : List WalletExportItem}
    (h : (system.restrict Careful).Reachable
      (sampleState (sampleBalances 10 20) [sampleExport] items events phase)) :
  (system.restrict Careful).Reachable
    (sampleState (sampleBalances 0 0) [sampleExport] items events phase)
  := by
  have hfirst := h.step ⟨.rotation (@Rotation.Step.withdraw _ (.contract 1) 10 (Nat.le_refl _))
    (fun hl => by cases hl), trivial⟩
  have hsecond := hfirst.step ⟨.rotation (@Rotation.Step.withdraw _ (.contract 2) 20 (Nat.le_refl _))
    (fun hl => by cases hl), trivial⟩
  have hbalances : Function.update (Function.update (sampleBalances 10 20) (.contract 1) (10 - 10))
      (.contract 2) (20 - 20) = sampleBalances 0 0 := by
    rw [update_sampleBalances, update_sampleBalances']
  rw [← hbalances]
  exact hsecond

/-- The second item is confirmed, the balances are read, and the wallet is latched. -/
theorem safe_of_careful_sample :
  ∃ s s' : State, s.exported = false ∧ s'.exported = true ∧ LatchSafe s (.latch 0) s' ∧ Exclusive s
  := by
  have hconfirmed : (system.restrict Careful).Reachable (sampleState (sampleBalances 10 20)
      [sampleExport] [sampleItem .confirmed, sampleItem' .confirmed] [.confirmed 0 0, .confirmed 1 0]
      (.submitting 0 [(0, sampleItem .confirmed), (1, sampleItem' .confirmed)])) := by
    have h := sample_claimed.step
      ⟨@Step.confirm _ 0 0 _ (1, sampleItem' .pending) rfl, sample_not_latching rfl⟩
    simpa [State.note, sampleState, sampleItem, sampleItem', markItemConfirmed, mark] using h
  have hchecking := (sample_drained hconfirmed).step
    ⟨@Step.check _ 0 0 _ rfl ⟨by simp, by simp [sampleItem, sampleItem']⟩, by
      simp [Careful, sampleState, sampleItem, sampleItem']⟩
  have hchecked := hchecking.step ⟨@Step.checked _ 0 0 (.contract 1) _ rfl rfl, trivial⟩
  have hchecked' := hchecked.step ⟨@Step.checked _ 0 0 (.contract 2) _ rfl rfl, trivial⟩
  have hgone : (system.restrict Careful).Reachable (sampleState (sampleBalances 0 0) [sampleExport]
      [sampleItem .confirmed, sampleItem' .confirmed]
      [.confirmed 0 0, .confirmed 1 0, .zero (.contract 1), .zero (.contract 2)]
      (.finalizing 0 true)) := by
    have h := hchecked'.step ⟨@Step.gone _ 0 0 rfl, trivial⟩
    simpa [State.enter, State.note, sampleState] using h
  have hcounted := hgone.step ⟨@Step.count _ 0 0 rfl sample_not_locked
    (by simp [AllConfirmed, sampleState, sampleItem, sampleItem']), trivial⟩
  have hlatch := (safe_of_careful hcounted).2 _ _ ⟨@Step.latch _ 0 0 rfl, trivial⟩
  exact ⟨_, _, rfl, rfl, hlatch.1, (safe_of_careful hcounted).1⟩

/-- No balance was found to be zero since the last event, when an item was confirmed by it. -/
theorem not_zeroSince (events : List Event) (h : s.events = events ++ [.confirmed id exportId]) :
  ¬ ZeroSince s exportId token
  := by
  rw [ZeroSince, h, since_concat]
  rintro (hzero | ⟨_, hconfirmed⟩)
  · cases hzero
  · exact hconfirmed ⟨id, rfl⟩

/-- The confirmation of the second item is lost, and the wallet is drained. The first token
comes in again; `status` finds the balance of the second to be zero, confirms its item and
latches the wallet. -/
theorem not_latchSafe :
  ¬ ∀ s : State, system.Reachable s → ∀ l s', system.step s l s' → LatchSafe s l s'
  := by
  intro h
  have hstopped := ((sample_drained sample_claimed).of_restrict).step (@Step.stop _ 0)
  have hdeposit := hstopped.step
    (.rotation (@Rotation.Step.deposit _ (.contract 1) 5) (fun hl => by cases hl))
  have hpolling := hdeposit.step (@Step.poll _ 0 0 sampleExport rfl rfl rfl
    ⟨(1, sampleItem' .submitted), by decide, rfl⟩)
  have hdrained := hpolling.step (@Step.drained _ 0 0 _ [] [] (1, sampleItem' .submitted) rfl rfl)
  have hpolled := hdrained.step (@Step.polled _ 0 0 _ _ rfl)
  have hreconciled := hpolled.step
    (@Step.reconcile _ 0 0 _ [] (1, sampleItem' .submitted) _ rfl rfl)
  have hfinalizing := hreconciled.step (@Step.reconciled _ 0 0 _ rfl ⟨by decide, by decide⟩)
  have hnormal : system.Reachable (sampleState
      (Function.update (sampleBalances 0 0) (.contract 1) (sampleBalances 0 0 (.contract 1) + 5))
      [sampleExport] [sampleItem .confirmed, sampleItem' .confirmed]
      [.confirmed 0 0, .zero (.contract 2), .confirmed 1 0] (.finalizing 0 true)) := by
    simpa [State.enter, State.note, sampleState, sampleItem'] using hfinalizing
  have hcounted := hnormal.step (@Step.count _ 0 0 rfl sample_not_locked
    (by simp [AllConfirmed, sampleState, sampleItem, sampleItem']))
  obtain ⟨exportId, hl, hitems⟩ := h _ hcounted _ _ (@Step.latch _ 0 0 rfl) rfl rfl
  injection hl with hexport
  obtain ⟨_, hzero⟩ := hitems 0 (sampleItem .confirmed) rfl hexport
  rw [← hexport] at hzero
  exact not_zeroSince [.confirmed 0 0, .zero (.contract 2)] rfl hzero

/-- Both features are found not to be active, and both rows are created. -/
theorem not_exclusive :
  ¬ ∀ s : State, system.Reachable s → Exclusive s
  := by
  intro h
  have hinit : system.Reachable (sampleState (sampleBalances 10 20) [] [] [] .idle) :=
    .init ⟨⟨rfl, rfl, rfl, rfl, rfl, fun _ => rfl⟩, rfl, rfl, rfl, rfl, by simp [sampleState]⟩
  have hresolved := hinit.step (@Step.resolve _ 0 (.account 3) rfl rfl)
  have hreading := hresolved.step (@Step.initiate _ 0 (.account 3) rfl (by simp [sampleState, State.enter]))
  have hread := hreading.step (@Step.read _ 0 (.account 3) (.contract 1) _ rfl (by simp) (by decide))
  have habsent := hread.step (@Step.absent _ 0 (.account 3) _ rfl (by simp) (by simp [sampleState, State.enter]))
  have hbegin := habsent.step (.rotation (@Rotation.Step.initiate _ 0 (.account 2) rfl)
    (fun _ => by simp [sampleState, State.enter]))
  have hread' := hbegin.step (.rotation (@Rotation.Step.read _ 0 (.account 2) (.contract 1) _ rfl
    (by simp) (by decide)) (fun hl => by cases hl))
  have habsent' := hread'.step (.rotation (@Rotation.Step.absent _ 0 (.account 2) _ rfl (by simp)
    (by simp [sampleState, State.enter, Rotation.State.enter])) (fun hl => by cases hl))
  have hcreated := habsent'.step (@Step.create _ 0 (.account 3) _ rfl (by simp [sampleState, State.enter]))
  have hcreated' := hcreated.step (.rotation (@Rotation.Step.create _ 0 (.account 2) _ rfl
    (by simp [sampleState, State.enter, Rotation.State.enter])) (fun hl => by cases hl))
  exact h _ hcreated' ⟨⟨_, List.mem_singleton_self _, .inl rfl⟩, _, List.mem_singleton_self _,
    .inl rfl, rfl⟩

/-- Neither the latch is safe nor the features exclude each other, in every run. -/
theorem not_forall_safe :
  (¬ ∀ s : State, system.Reachable s → ∀ l s', system.step s l s' → LatchSafe s l s')
    ∧ ¬ ∀ s : State, system.Reachable s → Exclusive s
  := ⟨not_latchSafe, not_exclusive⟩

end WalletExports
