import Tove.Offerings.Approvals

/-!
# The quorum of an approval

A deployment is claimed by a transaction that has counted enough signatures. The lock on the
offering keeps other approvals away from the time at which the row is read until the transaction
ends, so the signatures that are counted are those of distinct admins, and a deployment is
claimed once.

How old a signature is, is not looked at when it is counted. It is only the expiry pass that takes
signatures away, and it deals with an offering as long as no deployment of it has been claimed.
-/

namespace Approvals

open Soroban Transition

variable {cfg : Config} {artistAddresses : ℕ → Option Address} {s s' : State} {l : Label}

/-! ### What a claim rests on -/

/-- A signature on record, which may have been deleted since. -/
def OnRecord (approvals : List OfferingApproval) (i : ℕ) (row : OfferingApproval) : Prop :=
  ∃ deletedAt, approvals[i]? = some { row with deletedAt }

/-- The signatures that a transaction has counted are live, by distinct admins of the roster, and
each of them is its own, or on record. What was on record when an expiry pass has dealt with the
offering was not too old then. -/
structure Counted (cfg : Config) (approvals : List OfferingApproval) (txn : Txn)
    (own : Option OfferingApproval) (signatures : List OfferingApproval)
    (deal : Option Deal) : Prop where
  distinct : (signatures.map OfferingApproval.adminSub).Nodup
  live : ∀ row ∈ signatures, row.Live txn.offeringId ∧ row.adminSub ∈ cfg.signerSet
  recorded : ∀ row ∈ signatures, own = some row ∨ ∃ i, OnRecord approvals i row
    ∧ ∀ d, deal = some d → i < d.recorded → d.lookedAt ≤ row.createdAt + cfg.ttl

/-- What is to hold of the claims of a deployment. -/
structure QuorumSafe (cfg : Config) (artistAddresses : ℕ → Option Address) (s : State) : Prop where
  /-- A deployment starts with a claim. -/
  claimed : ∀ l s' id off off', Step cfg artistAddresses s l s' → s.offerings id = some off →
    off.escrowDeployStatus ≠ some .deploying → s'.offerings id = some off' →
    off'.escrowDeployStatus = some .deploying → ∃ n, l = .claim n id
  /-- A claim takes a planned offering whose deployment has not been claimed, or has failed, and it
  rests on enough signatures. -/
  quorum : ∀ n id s', Step cfg artistAddresses s (.claim n id) s' →
    ∃ off txn off' own signatures deal, s.offerings id = some off ∧ off.status = .planned
      ∧ (off.escrowDeployStatus = none ∨ off.escrowDeployStatus = some .failed)
      ∧ s.calls n = .counted txn off' own signatures deal ∧ txn.offeringId = id
      ∧ cfg.threshold ≤ signatures.length ∧ Counted cfg s.approvals txn own signatures deal
  /-- Between two claims of an offering, its deployment fails. -/
  exclusive : ∀ n m id s₁ ls s₂ s₃, Step cfg artistAddresses s (.claim n id) s₁ →
    (system cfg artistAddresses).Run s₁ ls s₂ → Step cfg artistAddresses s₂ (.claim m id) s₃ →
    .fail id ∈ ls

/-! ### The statements -/

section Statements

/-- Two signatures are not live on the same offering by the same admin. -/
def Distinct (a b : OfferingApproval) : Prop :=
  ∀ id, a.Live id → b.Live id → a.adminSub ≠ b.adminSub

theorem readOffering_eq_ok {off₀ : Option Offering} {off : Offering}
    (h : readOffering artistAddresses off₀ = .ok off) :
  ∃ snapshotArtistAddress, off₀ = some { off with snapshotArtistAddress } ∧ off.status = .planned
    ∧ off.escrowDeployStatus ≠ some .deploying ∧ off.escrowDeployStatus ≠ some .deployed
  := by
  cases off₀ with
  | none => cases h
  | some off₀ =>
    simp only [readOffering, Checks.check_bind_eq_ok, Checks.rejectIf_eq_ok, not_or] at h
    obtain ⟨_, hplanned, ⟨hdeploying, hdeployed⟩, h⟩ := h
    rw [not_ne_iff] at hplanned
    refine ⟨off₀.snapshotArtistAddress, ?_⟩
    split at h
    · obtain rfl := Checks.pure_eq_ok.mp h
      exact ⟨rfl, hplanned, hdeploying, hdeployed⟩
    · cases h
    · obtain rfl := Checks.pure_eq_ok.mp h
      exact ⟨rfl, hplanned, hdeploying, hdeployed⟩

theorem casEscrowDeploying_eq_some {off off' : Offering} :
  off.casEscrowDeploying = some off'
    ↔ (off.status = .planned
      ∧ (off.escrowDeployStatus = none ∨ off.escrowDeployStatus = some .failed))
      ∧ off' = { off with escrowDeployStatus := some .deploying }
  := by
  rw [Offering.casEscrowDeploying, Option.ite_none_right_eq_some]
  simp [eq_comm]

/-- A live row of a table that has been swept was live before. -/
theorem live_of_softDelete {approvals : List OfferingApproval} {offeringId now id i : ℕ}
    {row : OfferingApproval} (hrow : (softDeleteAllForOffering approvals offeringId now)[i]? = some row)
    (hlive : row.Live id) :
  approvals[i]? = some row ∧ id ≠ offeringId
  := by
  rw [softDeleteAllForOffering, List.getElem?_map, Option.map_eq_some_iff] at hrow
  obtain ⟨row₀, hrow₀, rfl⟩ := hrow
  split at hlive
  · cases hlive.2
  · next hnot =>
    rw [if_neg hnot]
    refine ⟨hrow₀, ?_⟩
    rintro rfl
    exact hnot hlive

/-- What is on record stays on record. -/
theorem OnRecord.softDelete {approvals : List OfferingApproval} {i : ℕ} {row : OfferingApproval}
    (h : OnRecord approvals i row) (offeringId now : ℕ) :
  OnRecord (softDeleteAllForOffering approvals offeringId now) i row
  := by
  obtain ⟨deletedAt, hrow⟩ := h
  rw [OnRecord, softDeleteAllForOffering, List.getElem?_map, hrow, Option.map_some]
  split
  · exact ⟨some now, rfl⟩
  · exact ⟨deletedAt, rfl⟩

theorem OnRecord.append {approvals : List OfferingApproval} {i : ℕ} {row : OfferingApproval}
    (h : OnRecord approvals i row) (rows : List OfferingApproval) :
  OnRecord (approvals ++ rows) i row
  := by
  obtain ⟨deletedAt, hrow⟩ := h
  obtain ⟨hlt, _⟩ := List.getElem?_eq_some_iff.mp hrow
  exact ⟨deletedAt, (List.getElem?_append_left hlt).trans hrow⟩

theorem Distinct.softDelete {approvals : List OfferingApproval} (h : approvals.Pairwise Distinct)
    (offeringId now : ℕ) :
  (softDeleteAllForOffering approvals offeringId now).Pairwise Distinct
  := by
  rw [softDeleteAllForOffering, List.pairwise_map]
  apply h.imp
  intro a b hab id ha hb
  split at ha
  · cases ha.2
  · split at hb
    · cases hb.2
    · next hnota hnotb =>
      rw [if_neg hnota, if_neg hnotb]
      exact hab id ha hb

end Statements

/-! ### What a step changes -/

section Steps

/-- What is known of the signature that a transaction inserts: no other signature of the admin is
live. -/
def Fresh (approvals : List OfferingApproval) (txn : Txn) (own : Option OfferingApproval) : Prop :=
  ∀ row, own = some row → row.Live txn.offeringId ∧ row.adminSub = txn.adminSub
    ∧ ∀ row' ∈ approvals, row'.Live txn.offeringId → row'.adminSub ≠ txn.adminSub

/-- A call holds the lock on its offering, and its view of the row is right. -/
structure Holds (cfg : Config)
    (artistAddresses : ℕ → Option Address) (s : State) (n : ℕ) (txn : Txn)
    (off : Offering) : Prop where
  signer : txn.adminSub ∈ cfg.signerSet
  lock : s.locks txn.offeringId = some n
  view : readOffering artistAddresses (s.offerings txn.offeringId) = .ok off

/-- What is known of a call in a phase. -/
def Known (cfg : Config) (artistAddresses : ℕ → Option Address) (s : State) (n : ℕ) :
    ApprovePhase → Prop
  | .idle => True
  | .begun txn => txn.adminSub ∈ cfg.signerSet
  | .locked txn off => Holds cfg artistAddresses s n txn off
  | .signed txn off own => Holds cfg artistAddresses s n txn off ∧ Fresh s.approvals txn own
  | .counted txn off own signatures deal => Holds cfg artistAddresses s n txn off
    ∧ Fresh s.approvals txn own ∧ Counted cfg s.approvals txn own signatures deal

/-- What holds in every state. -/
structure Invariant (cfg : Config) (artistAddresses : ℕ → Option Address) (s : State) : Prop where
  unique : s.approvals.Pairwise Distinct
  calls : ∀ n, Known cfg artistAddresses s n (s.calls n)
  deals : ∀ (id : ℕ) (d : Deal), s.deals id = some d → d.recorded ≤ s.approvals.length
    ∧ ∀ (i : ℕ) (row : OfferingApproval), i < d.recorded → s.approvals[i]? = some row →
      row.Live id → d.lookedAt ≤ row.createdAt + cfg.ttl

/-- What is on record stays on record. -/
theorem Step.onRecord (hstep : Step cfg artistAddresses s l s') {i : ℕ} {row : OfferingApproval}
    (h : OnRecord s.approvals i row) :
  OnRecord s'.approvals i row
  := by
  cases hstep with
  | claim _ _ _ | record _ _ => exact h.append _
  | expire _ | deployed _ _ _ => exact h.softDelete _ _
  | _ => exact h

/-- When a call enters a phase, the others stay where they are. -/
theorem enter_calls {s₀ : State} {n m : ℕ} {phase : ApprovePhase} (hm : m ≠ n) :
  (s₀.enter n phase).calls m = s₀.calls m
  := Function.update_of_ne hm ..

/-- An offering that a call has locked is changed by no other call, nor are the signatures on it. -/
theorem Invariant.locked (h : Invariant cfg artistAddresses s)
    (hstep : Step cfg artistAddresses s l s')
    {m id : ℕ} (hlock : s.locks id = some m) (hoff : s.offerings id ≠ none)
    (hcall : s'.calls m = s.calls m) (hbusy : s.calls m ≠ .idle) :
  s'.locks id = some m ∧ s'.offerings id = s.offerings id
    ∧ ∀ row ∈ s'.approvals, row.Live id → row ∈ s.approvals
  := by
  have hfree : ∀ id' : ℕ, s.locks id' = none → id ≠ id' := by
    rintro id' hfree rfl
    cases hlock.symm.trans hfree
  have hother : ∀ n : ℕ, s'.calls n = .idle → n ≠ m := by
    rintro n hidle rfl
    exact hbusy (hcall.symm.trans hidle)
  have hunlock : ∀ (s₀ : State) (n : ℕ), s₀.locks = s.locks → n ≠ m →
    (s₀.unlock n).locks id = some m := by
    intro s₀ n hlocks hn
    change (if s₀.locks id = some n then none else s₀.locks id) = some m
    rw [hlocks, hlock, if_neg fun heq => hn (Option.some.inj heq).symm]
  have hwrite : ∀ (n : ℕ) (txn : Txn) (off off' : Offering) (own : Option OfferingApproval), n ≠ m →
      Holds cfg artistAddresses s n txn off → Fresh s.approvals txn own →
      (s.write txn.offeringId off' own).offerings id = s.offerings id
        ∧ ∀ row ∈ (s.write txn.offeringId off' own).approvals, row.Live id → row ∈ s.approvals := by
    intro n txn off off' own hn hholds hfresh
    have hne : id ≠ txn.offeringId := by
      rintro rfl
      exact hn (Option.some.inj (hholds.lock.symm.trans hlock))
    refine ⟨Function.update_of_ne hne .., ?_⟩
    intro row hmem hlive
    rcases List.mem_append.mp hmem with hmem | hmem
    · exact hmem
    · obtain ⟨hown, _⟩ := hfresh row (Option.mem_toList.mp hmem)
      exact absurd (hlive.1.symm.trans hown.1) hne
  have hdelete : ∀ offeringId, ∀ row ∈ softDeleteAllForOffering s.approvals offeringId s.now,
      row.Live id → row ∈ s.approvals := by
    intro offeringId row hmem hlive
    obtain ⟨i, hi⟩ := List.mem_iff_getElem?.mp hmem
    exact List.mem_of_getElem? (live_of_softDelete hi hlive).1
  cases hstep with
  | plan hnone _ =>
    refine ⟨hlock, Function.update_of_ne ?_ .., fun _ hmem _ => hmem⟩
    rintro rfl
    exact hoff hnone
  | lock _ hlocks _ =>
    exact ⟨(Function.update_of_ne (hfree _ hlocks) ..).trans hlock, rfl, fun _ hmem _ => hmem⟩
  | @claim n _ _ _ _ _ _ hphase _ _ =>
    have hn := hother n (Function.update_self ..)
    have hknown := h.calls n
    rw [hphase] at hknown
    exact ⟨hunlock _ n rfl hn, hwrite n _ _ _ _ hn hknown.1 hknown.2.1⟩
  | @record n _ _ _ _ _ hphase _ =>
    have hn := hother n (Function.update_self ..)
    have hknown := h.calls n
    rw [hphase] at hknown
    exact ⟨hunlock _ n rfl hn, hwrite n _ _ _ _ hn hknown.1 hknown.2.1⟩
  | @rollback n =>
    exact ⟨hunlock _ n rfl (hother n (Function.update_self ..)), rfl, fun _ hmem _ => hmem⟩
  | expire _ => exact ⟨hlock, rfl, hdelete _⟩
  | deployed _ hlocks _ =>
    exact ⟨hlock, Function.update_of_ne (hfree _ hlocks) .., hdelete _⟩
  | failed _ hlocks _ | proceed _ hlocks _ _ =>
    exact ⟨hlock, Function.update_of_ne (hfree _ hlocks) .., fun _ hmem _ => hmem⟩
  | _ => exact ⟨hlock, rfl, fun _ hmem _ => hmem⟩

/-- What is known of a call that stays where it is stays known. -/
theorem Known.step (h : Invariant cfg artistAddresses s) (hstep : Step cfg artistAddresses s l s')
    {m : ℕ} (hcall : s'.calls m = s.calls m) :
  Known cfg artistAddresses s' m (s'.calls m)
  := by
  have hknown := h.calls m
  have hholds : ∀ {txn : Txn} {off : Offering}, s.calls m ≠ .idle →
      Holds cfg artistAddresses s m txn off → Holds cfg artistAddresses s' m txn off
        ∧ ∀ row ∈ s'.approvals, row.Live txn.offeringId → row ∈ s.approvals := by
    intro txn off hbusy hholds
    have hoff : s.offerings txn.offeringId ≠ none := by
      obtain ⟨_, heq, _⟩ := readOffering_eq_ok hholds.view
      rw [heq]
      nofun
    obtain ⟨hlock, hsame, hrows⟩ := h.locked hstep hholds.lock hoff hcall hbusy
    exact ⟨⟨hholds.signer, hlock, by rw [hsame]; exact hholds.view⟩, hrows⟩
  have hfresh : ∀ {txn : Txn} {own : Option OfferingApproval},
      (∀ row ∈ s'.approvals, row.Live txn.offeringId → row ∈ s.approvals) →
      Fresh s.approvals txn own → Fresh s'.approvals txn own := by
    intro txn own hrows hfresh row hown
    obtain ⟨hlive, hadmin, hnone⟩ := hfresh row hown
    exact ⟨hlive, hadmin, fun row' hmem hlive' => hnone row' (hrows row' hmem hlive') hlive'⟩
  rw [hcall]
  generalize hphase : s.calls m = phase at hknown hholds
  cases phase with
  | idle => trivial
  | begun txn => exact hknown
  | locked txn off => exact (hholds nofun hknown).1
  | signed txn off own =>
    obtain ⟨hheld, hrows⟩ := hholds nofun hknown.1
    exact ⟨hheld, hfresh hrows hknown.2⟩
  | counted txn off own signatures deal =>
    obtain ⟨hheld, hrows⟩ := hholds nofun hknown.1
    obtain ⟨distinct, live, recorded⟩ := hknown.2.2
    refine ⟨hheld, hfresh hrows hknown.2.1, distinct, live, ?_⟩
    intro row hmem
    apply (recorded row hmem).imp_right
    rintro ⟨i, hi, hdeal⟩
    exact ⟨i, hstep.onRecord hi, hdeal⟩

/-- The signature that is inserted is the only one of its admin that is live. -/
theorem fresh_insertSignature (approvals : List OfferingApproval) (txn : Txn) :
  Fresh approvals txn (insertSignature approvals txn)
  := by
  intro row hown
  rw [insertSignature, Option.ite_none_left_eq_some] at hown
  obtain ⟨hnone, heq⟩ := hown
  obtain rfl := Option.some.inj heq
  refine ⟨⟨rfl, rfl⟩, rfl, ?_⟩
  intro row' hmem hlive hadmin
  exact hnone ⟨row', hmem, hlive, hadmin⟩

/-- The signatures stay distinct when a transaction adds its own. -/
theorem Fresh.pairwise {approvals : List OfferingApproval} {txn : Txn}
    {own : Option OfferingApproval}
    (hunique : approvals.Pairwise Distinct) (h : Fresh approvals txn own) :
  (approvals ++ own.toList).Pairwise Distinct
  := by
  rw [List.pairwise_append]
  refine ⟨hunique, ?_, ?_⟩
  · cases own <;> simp
  · intro a ha b hb id halive hblive
    obtain ⟨hown, hadmin, hnone⟩ := h b (Option.mem_toList.mp hb)
    obtain rfl : txn.offeringId = id := hown.1.symm.trans hblive.1
    rw [hadmin]
    exact hnone a ha halive

/-- What is counted are the signatures of distinct admins. -/
theorem Invariant.counted (h : Invariant cfg artistAddresses s) {txn : Txn}
    {own : Option OfferingApproval} (hfresh : Fresh s.approvals txn own) :
  Counted cfg s.approvals txn own (liveSigners cfg s.approvals own txn.offeringId)
    (s.deals txn.offeringId)
  := by
  have hmem : ∀ row ∈ liveSigners cfg s.approvals own txn.offeringId,
      (row ∈ s.approvals ∨ own = some row) ∧ row.Live txn.offeringId
        ∧ row.adminSub ∈ cfg.signerSet := by
    intro row hrow
    simpa [liveSigners, or_and_right] using hrow
  constructor
  · rw [List.Nodup, List.pairwise_map]
    apply List.Pairwise.imp_of_mem (R := Distinct)
    · intro a b ha hb hab
      exact hab _ (hmem a ha).2.1 (hmem b hb).2.1
    · exact (hfresh.pairwise h.unique).filter _
  · exact fun row hrow => (hmem row hrow).2
  · intro row hrow
    obtain ⟨hrow | hown, hlive, _⟩ := hmem row hrow
    · right
      obtain ⟨i, hi⟩ := List.mem_iff_getElem?.mp hrow
      exact ⟨i, ⟨row.deletedAt, hi⟩, fun d hd hlt => (h.deals _ d hd).2 i row hlt hi hlive⟩
    · exact .inl hown

theorem Invariant.unique_step (h : Invariant cfg artistAddresses s)
    (hstep : Step cfg artistAddresses s l s') :
  s'.approvals.Pairwise Distinct
  := by
  cases hstep with
  | @claim n _ _ _ _ _ _ hphase _ _ | @record n _ _ _ _ _ hphase _ =>
    have hknown := h.calls n
    rw [hphase] at hknown
    exact hknown.2.1.pairwise h.unique
  | expire _ | deployed _ _ _ => exact Distinct.softDelete h.unique _ _
  | _ => exact h.unique

theorem Invariant.calls_step (h : Invariant cfg artistAddresses s)
    (hstep : Step cfg artistAddresses s l s') (m : ℕ) :
  Known cfg artistAddresses s' m (s'.calls m)
  := by
  by_cases hcall : s'.calls m = s.calls m
  · exact Known.step h hstep hcall
  · have hother : ∀ {s₀ : State} {n : ℕ} {phase : ApprovePhase}, s₀.calls = s.calls →
        (s₀.enter n phase).calls m ≠ s.calls m → m = n := by
      intro s₀ n phase hcalls hne
      by_contra hm
      exact hne ((enter_calls hm).trans (congrFun hcalls m))
    have henter : ∀ {s₀ : State} {phase : ApprovePhase},
        Known cfg artistAddresses (s₀.enter m phase) m phase →
        Known cfg artistAddresses (s₀.enter m phase) m ((s₀.enter m phase).calls m) := by
      intro s₀ phase hphase
      have hsame : (s₀.enter m phase).calls m = phase := Function.update_self ..
      rwa [hsame]
    cases hstep with
    | start _ hsigner =>
      obtain rfl := hother rfl hcall
      exact henter hsigner
    | lock hphase _ hread =>
      obtain rfl := hother rfl hcall
      have hknown := h.calls m
      rw [hphase] at hknown
      exact henter ⟨hknown, Function.update_self .., hread⟩
    | insert hphase =>
      obtain rfl := hother rfl hcall
      have hknown := h.calls m
      rw [hphase] at hknown
      exact henter ⟨⟨hknown.1, hknown.2, hknown.3⟩, fresh_insertSignature _ _⟩
    | count hphase =>
      obtain rfl := hother rfl hcall
      have hknown := h.calls m
      rw [hphase] at hknown
      exact henter ⟨⟨hknown.1.1, hknown.1.2, hknown.1.3⟩, hknown.2, h.counted hknown.2⟩
    | claim _ _ _ | record _ _ | rollback =>
      obtain rfl := hother rfl hcall
      exact henter trivial
    | _ => exact absurd rfl hcall

/-- What an expiry pass has dealt with was not too old. -/
theorem Invariant.deals_step (h : Invariant cfg artistAddresses s)
    (hstep : Step cfg artistAddresses s l s') {id : ℕ} {d : Deal} (hd : s'.deals id = some d) :
  d.recorded ≤ s'.approvals.length ∧ ∀ (i : ℕ) (row : OfferingApproval), i < d.recorded →
    s'.approvals[i]? = some row → row.Live id → d.lookedAt ≤ row.createdAt + cfg.ttl
  := by
  have hdelete : ∀ {offeringId : ℕ}, s.deals id = some d →
      d.recorded ≤ (softDeleteAllForOffering s.approvals offeringId s.now).length
        ∧ ∀ (i : ℕ) (row : OfferingApproval), i < d.recorded →
          (softDeleteAllForOffering s.approvals offeringId s.now)[i]? = some row →
          row.Live id → d.lookedAt ≤ row.createdAt + cfg.ttl := by
    intro offeringId hd
    obtain ⟨hlength, hold⟩ := h.deals id d hd
    refine ⟨by rwa [softDeleteAllForOffering, List.length_map], ?_⟩
    intro i row hlt hi hlive
    exact hold i row hlt (live_of_softDelete hi hlive).1 hlive
  cases hstep with
  | claim _ _ _ | record _ _ =>
    obtain ⟨hlength, hold⟩ := h.deals id d hd
    refine ⟨hlength.trans (by simp [State.enter, State.unlock, State.write]), ?_⟩
    intro i row hlt hi hlive
    apply hold i row hlt _ hlive
    rw [← hi]
    exact (List.getElem?_append_left (hlt.trans_le hlength)).symm
  | look _ _ =>
    change (if _ then some ⟨s.now, s.approvals.length⟩ else s.deals id) = some d at hd
    split at hd
    · next hfresh =>
      obtain rfl := Option.some.inj hd
      refine ⟨le_rfl, ?_⟩
      intro i row _ hi hlive
      by_contra hold
      exact hfresh.2 ⟨row, List.mem_of_getElem? hi, hlive, not_le.mp hold⟩
    · exact h.deals id d hd
  | @expire lookedAt offeringId _ _ =>
    by_cases hid : id = offeringId
    · subst hid
      obtain rfl : (⟨lookedAt, s.approvals.length⟩ : Deal) = d := by simpa using hd
      refine ⟨by rw [softDeleteAllForOffering, List.length_map], ?_⟩
      intro i row _ hi hlive
      exact absurd rfl (live_of_softDelete hi hlive).2
    · exact hdelete ((Function.update_of_ne hid ..).symm.trans hd)
  | deployed _ _ _ => exact hdelete hd
  | _ => exact h.deals id d hd

theorem Invariant.step (h : Invariant cfg artistAddresses s)
    (hstep : Step cfg artistAddresses s l s') :
  Invariant cfg artistAddresses s'
  := ⟨h.unique_step hstep, h.calls_step hstep, fun _ _ => h.deals_step hstep⟩

theorem invariant_of_reachable (h : (system cfg artistAddresses).Reachable s) :
  Invariant cfg artistAddresses s
  := by
  apply h.invariant
  · rintro s₀ ⟨_, happrovals, _, hcalls, _, hdeals⟩
    refine ⟨by simp [happrovals], ?_, ?_⟩
    · intro n
      rw [hcalls]
      trivial
    · intro id d hd
      cases (hdeals id).symm.trans hd
  · intro s₀ l s₁ hs₀ hstep
    apply hs₀.step hstep

end Steps

/-! ### The runs -/

section Runs

/-- The deployment of the offering is under way, or it has succeeded. -/
def Taken (s : State) (id : ℕ) : Prop :=
  ∃ off, s.offerings id = some off
    ∧ (off.escrowDeployStatus = some .deploying ∨ off.escrowDeployStatus = some .deployed)

/-- An offering that a call has locked is not taken. -/
theorem Holds.not_taken {n : ℕ} {txn : Txn} {off : Offering}
    (h : Holds cfg artistAddresses s n txn off) :
  ¬ Taken s txn.offeringId
  := by
  rintro ⟨off₀, hoff₀, htaken⟩
  obtain ⟨_, heq, _, hdeploying, hdeployed⟩ := readOffering_eq_ok h.view
  obtain rfl := Option.some.inj (hoff₀.symm.trans heq)
  exact htaken.elim hdeploying hdeployed

/-- As long as its deployment does not fail, an offering that is taken stays taken. -/
theorem Taken.step {id : ℕ} (h : Taken s id) (hinv : Invariant cfg artistAddresses s)
    (hstep : Step cfg artistAddresses s l s') (hfail : l ≠ .fail id) :
  Taken s' id
  := by
  obtain ⟨off, hoff, htaken⟩ := h
  have hwrite : ∀ {id' : ℕ} {off' : Offering}, id ≠ id' →
      Function.update s.offerings id' (some off') id = some off := by
    intro id' off' hne
    exact (Function.update_of_ne hne ..).trans hoff
  cases hstep with
  | plan hnone _ =>
    refine ⟨off, hwrite ?_, htaken⟩
    rintro rfl
    cases hoff.symm.trans hnone
  | @claim n _ _ _ _ _ _ hphase _ _ | @record n _ _ _ _ _ hphase _ =>
    have hknown := hinv.calls n
    rw [hphase] at hknown
    refine ⟨off, hwrite ?_, htaken⟩
    rintro rfl
    exact hknown.1.not_taken ⟨off, hoff, htaken⟩
  | @deployed id' off₀ off' address hoff₀ _ hcas =>
    by_cases hid : id = id'
    · subst hid
      rw [Offering.casEscrowDeployed, Option.ite_none_right_eq_some] at hcas
      obtain ⟨_, heq⟩ := hcas
      obtain rfl := Option.some.inj heq
      exact ⟨_, Function.update_self .., .inr rfl⟩
    · exact ⟨off, hwrite hid, htaken⟩
  | failed _ _ _ =>
    refine ⟨off, hwrite ?_, htaken⟩
    rintro rfl
    exact hfail rfl
  | @proceed id' off₀ status hoff₀ _ _ _ =>
    by_cases hid : id = id'
    · subst hid
      obtain rfl := Option.some.inj (hoff₀.symm.trans hoff)
      exact ⟨_, Function.update_self .., htaken⟩
    · exact ⟨off, hwrite hid, htaken⟩
  | _ => exact ⟨off, hoff, htaken⟩

theorem Taken.run {id : ℕ} (h : Taken s id) (hinv : Invariant cfg artistAddresses s)
    {ls : List Label}
    (hrun : (system cfg artistAddresses).Run s ls s') (hfail : .fail id ∉ ls) :
  Taken s' id ∧ Invariant cfg artistAddresses s'
  := by
  induction hrun with
  | nil => exact ⟨h, hinv⟩
  | @snoc _ _ _ l _ hstep ih =>
    rw [List.mem_append, not_or, List.mem_singleton] at hfail
    obtain ⟨htaken, hinv⟩ := ih hfail.1
    exact ⟨htaken.step hinv hstep (Ne.symm hfail.2), hinv.step hstep⟩

/-- What a claim has found, and that it takes the offering. -/
theorem Invariant.claim (h : Invariant cfg artistAddresses s) {n id : ℕ}
    (hstep : Step cfg artistAddresses s (.claim n id) s') :
  ¬ Taken s id ∧ Taken s' id
  := by
  cases hstep with
  | claim hphase _ hcas =>
    have hknown := h.calls n
    rw [hphase] at hknown
    obtain ⟨_, rfl⟩ := casEscrowDeploying_eq_some.mp hcas
    exact ⟨hknown.1.not_taken, _, Function.update_self .., .inl rfl⟩

/-- In every run, a deployment is claimed by a call that has counted enough signatures, and it is
claimed once. -/
theorem quorumSafe (h : (system cfg artistAddresses).Reachable s) :
  QuorumSafe cfg artistAddresses s
  := by
  have hinv := invariant_of_reachable h
  constructor
  · intro l s' id off off' hstep hoff hnot hoff' hdeploying
    have hsame : s'.offerings = s.offerings → ∃ n, l = .claim n id := by
      intro hsame
      rw [hsame, hoff] at hoff'
      obtain rfl := Option.some.inj hoff'
      exact absurd hdeploying hnot
    have hupdate : ∀ {id' : ℕ} {off₁ : Offering},
        s'.offerings = Function.update s.offerings id' (some off₁) →
        (id = id' → off₁.escrowDeployStatus = some .deploying → ∃ n, l = .claim n id) →
        ∃ n, l = .claim n id := by
      intro id' off₁ hupdate hnew
      rw [hupdate] at hoff'
      by_cases hid : id = id'
      · subst hid
        rw [Function.update_self] at hoff'
        obtain rfl := Option.some.inj hoff'
        exact hnew rfl hdeploying
      · rw [Function.update_of_ne hid, hoff] at hoff'
        obtain rfl := Option.some.inj hoff'
        exact absurd hdeploying hnot
    cases hstep with
    | plan _ hnone => exact hupdate rfl fun _ hnew => nomatch hnone.symm.trans hnew
    | claim _ _ _ => exact hupdate rfl fun hid _ => ⟨_, by rw [hid]⟩
    | @record n _ _ _ _ _ hphase _ =>
      have hknown := hinv.calls n
      rw [hphase] at hknown
      obtain ⟨_, _, _, hnew, _⟩ := readOffering_eq_ok hknown.1.view
      exact hupdate rfl fun _ hnew' => absurd hnew' hnew
    | deployed _ _ hcas =>
      rw [Offering.casEscrowDeployed, Option.ite_none_right_eq_some] at hcas
      obtain rfl := Option.some.inj hcas.2
      exact hupdate rfl nofun
    | failed _ _ hcas =>
      rw [Offering.casEscrowFailed, Option.ite_none_right_eq_some] at hcas
      obtain rfl := Option.some.inj hcas.2
      exact hupdate rfl nofun
    | proceed hoff₀ _ _ _ =>
      apply hupdate rfl
      rintro rfl hnew
      obtain rfl := Option.some.inj (hoff₀.symm.trans hoff)
      exact absurd hnew hnot
    | _ => exact hsame rfl
  · intro n id s' hstep
    cases hstep with
    | @claim _ txn off' _ own signatures deal hphase hthreshold hcas =>
      have hknown := hinv.calls n
      rw [hphase] at hknown
      obtain ⟨_, heq, _⟩ := readOffering_eq_ok hknown.1.view
      obtain ⟨⟨hplanned, hstatus⟩, _⟩ := casEscrowDeploying_eq_some.mp hcas
      exact ⟨_, txn, off', own, signatures, deal, heq, hplanned, hstatus, hphase, rfl, hthreshold,
        hknown.2.2⟩
  · intro n m id s₁ ls s₂ s₃ hclaim hrun hclaim'
    by_contra hfail
    obtain ⟨_, htaken⟩ := hinv.claim hclaim
    obtain ⟨htaken, hinv₂⟩ := htaken.run (hinv.step hclaim) hrun hfail
    exact (hinv₂.claim hclaim').1 htaken

end Runs

/-! ### A signature whose age is not looked at -/

/-- There are enough signatures that are live and not too old. -/
def FreshQuorum (cfg : Config) (s : State) (offeringId : ℕ) : Prop :=
  ∃ signers : List ℕ, signers.Nodup ∧ cfg.threshold ≤ signers.length
    ∧ ∀ adminSub ∈ signers, adminSub ∈ cfg.signerSet ∧ ∃ row ∈ s.approvals, row.Live offeringId
      ∧ row.adminSub = adminSub ∧ s.now ≤ row.createdAt + cfg.ttl

def sampleConfig : Config where
  signerSet := [1, 2, 3]
  threshold := 2
  ttl := 7

def sampleOffering : Offering := ⟨.planned, none, none, some (.account 20), 0, false⟩

/-- The signature of an admin. -/
def sampleSignature (adminSub createdAt : ℕ) : OfferingApproval := ⟨0, adminSub, createdAt, none⟩

/-- A planned offering, which no admin has signed. -/
def samplePlanned : State where
  now := 0
  offerings id := if id = 0 then some sampleOffering else none
  approvals := []
  locks _ := none
  calls _ := .idle
  pass := none
  deals _ := none

theorem samplePlanned_reachable :
  (system sampleConfig fun _ => none).Reachable samplePlanned
  := by
  apply Transition.System.Reachable.init
  refine ⟨?_, rfl, fun _ => rfl, fun _ => rfl, rfl, fun _ => rfl⟩
  intro id off hoff
  change (if id = 0 then some sampleOffering else none) = some off at hoff
  rw [Option.ite_none_right_eq_some] at hoff
  obtain rfl := Option.some.inj hoff.2
  rfl

/-- A call of an admin who signs the offering, up to the count. -/
def sign (s : State) (n adminSub : ℕ) : State :=
  let txn : Txn := ⟨adminSub, 0, s.now⟩
  let locked := State.enter { s.enter n (.begun txn) with
    locks := Function.update s.locks 0 (some n) } n (.locked txn sampleOffering)
  let signed := locked.enter n (.signed txn sampleOffering (insertSignature s.approvals txn))
  signed.enter n (.counted txn sampleOffering (insertSignature s.approvals txn)
    (liveSigners sampleConfig s.approvals (insertSignature s.approvals txn) 0) (s.deals 0))

theorem sign_reachable (h : (system sampleConfig fun _ => none).Reachable s) (n : ℕ) {adminSub : ℕ}
    (hidle : s.calls n = .idle) (hsigner : adminSub ∈ sampleConfig.signerSet)
    (hlock : s.locks 0 = none) (hoff : s.offerings 0 = some sampleOffering) :
  (system sampleConfig fun _ => none).Reachable (sign s n adminSub)
  := by
  have hcalls : ∀ (s₀ : State) (phase : ApprovePhase), (s₀.enter n phase).calls n = phase :=
    fun _ _ => Function.update_self ..
  have hread : readOffering (fun _ => none) (s.offerings 0) = .ok sampleOffering := by
    rw [hoff]
    rfl
  have hstarted := h.step (@Step.start sampleConfig _ s n adminSub 0 hidle hsigner)
  have hlocked := hstarted.step (.lock (hcalls _ _) hlock hread)
  exact (hlocked.step (.insert (hcalls _ _))).step (.count (hcalls _ _))

/-- The first admin has signed, and as many days later the second one has counted. -/
def sampleCounted (days : ℕ) : State :=
  sign { ((((sign samplePlanned 1 1).write 0 sampleOffering (some (sampleSignature 1 0))).unlock
    1).enter 1 .idle) with now := days } 2 2

theorem sampleCounted_reachable (days : ℕ) :
  (system sampleConfig fun _ => none).Reachable (sampleCounted days)
  := by
  have hcounted := @sign_reachable samplePlanned samplePlanned_reachable 1 1 rfl (by decide) rfl rfl
  have hrecorded := hcounted.step (@Step.record sampleConfig _ (sign samplePlanned 1 1) 1 ⟨1, 0, 0⟩
    sampleOffering (some (sampleSignature 1 0)) [sampleSignature 1 0] none rfl (.inl (by decide)))
  have hlater := hrecorded.step (.tick (Nat.zero_le days))
  exact sign_reachable hlater 2 rfl (by decide) rfl rfl

/-- The second signature claims the deployment. -/
theorem sampleCounted_claims (days : ℕ) :
  ∃ s', Step sampleConfig (fun _ => none) (sampleCounted days) (.claim 2 0) s' ∧ s'.now = days
    ∧ s'.approvals = [sampleSignature 1 0, sampleSignature 2 days]
  := by
  have hstep := @Step.claim sampleConfig (fun _ => none) (sampleCounted days) 2 ⟨2, 0, days⟩
    sampleOffering { sampleOffering with escrowDeployStatus := some .deploying }
    (some (sampleSignature 2 days)) [sampleSignature 1 0, sampleSignature 2 days] none rfl
    (le_refl 2) rfl
  exact ⟨_, hstep, rfl, rfl⟩

/-- The deployment is claimed by two admins, and the claim is safe. -/
theorem quorumSafe_sample :
  (∃ s', Step sampleConfig (fun _ => none) (sampleCounted 1) (.claim 2 0) s')
    ∧ QuorumSafe sampleConfig (fun _ => none) (sampleCounted 1)
  := by
  obtain ⟨s', hstep, _⟩ := sampleCounted_claims 1
  exact ⟨⟨s', hstep⟩, quorumSafe (sampleCounted_reachable 1)⟩

/-- A signature counts as long as no pass has expired it, however old it is. -/
theorem not_forall_freshQuorum :
  ¬ ∀ (cfg : Config) (artistAddresses : ℕ → Option Address) (s s' : State) (n id : ℕ),
    (system cfg artistAddresses).Reachable s → Step cfg artistAddresses s (.claim n id) s' →
    FreshQuorum cfg s' id
  := by
  intro h
  obtain ⟨s', hstep, hnow, happrovals⟩ := sampleCounted_claims 30
  obtain ⟨signers, hnodup, hthreshold, hsigners⟩ :=
    h _ _ _ s' 2 0 (sampleCounted_reachable 30) hstep
  have hsubset : signers ⊆ [2] := by
    intro adminSub hmem
    obtain ⟨_, row, hrow, _, rfl, hfresh⟩ := hsigners adminSub hmem
    rw [happrovals, List.mem_pair] at hrow
    rcases hrow with rfl | rfl
    · rw [hnow] at hfresh
      exact absurd hfresh (by decide)
    · exact List.mem_singleton_self 2
  have hlength := (List.subperm_of_subset hnodup hsubset).length_le
  exact absurd (hthreshold.trans hlength) (by decide)

end Approvals
