import Tove.Offerings.BidBook

/-!
# How many bids are active

A change of a status makes no bid active that was not, so only a submission adds to the active
bids of its offering, and it does so with the lock of the offering, after it has counted them.
What it has counted stays as it is until it is over, since the transactions that are committed
in the meantime do not have the lock.
-/

namespace BidBook

open Js Soroban Clearing Relay ReadCommitted Store Transition

variable {hashtext : JsString → ℤ} {maxBidsPerOffering : ℕ} {s s' : State} {db : Store JsString Row}
  {m n : ℕ} {id offeringId collectorSub : JsString} {row row' : Row} {change : Change}

/-! ### The rows -/

/-- A change of the status makes no bid active that was not. -/
theorem Change.activeOn_of_set (hstatus : row.status = change.expected)
    (h : (change.set row).ActiveOn offeringId) :
  row.ActiveOn offeringId
  := by
  obtain ⟨hoffering, hactive, hdeleted⟩ := h
  cases change with
  | escrowed => exact ⟨hoffering, .inl hstatus, hdeleted⟩
  | failed => exact ⟨hoffering, .inl hstatus, hdeleted⟩
  | canceling => exact ⟨hoffering, .inr (.inl hstatus), hdeleted⟩
  | canceled => exact ⟨hoffering, .inr (.inr hstatus), hdeleted⟩
  | backToEscrowed => exact ⟨hoffering, .inr (.inr hstatus), hdeleted⟩

theorem Row.not_activeOn_win {w : ClearingWinner} :
  ¬ (row.win w).ActiveOn offeringId
  := by
  rintro ⟨_, h | h | h, _⟩ <;> cases h

theorem Row.not_activeOn_lose :
  ¬ row.lose.ActiveOn offeringId
  := by
  rintro ⟨_, h | h | h, _⟩ <;> cases h

/-- The index of the active bids admits a row for its collector. -/
theorem Indexed.admits (h : Indexed db n id row) (hrow : row.ActiveOf offeringId collectorSub) :
  db.Admits (Row.ActiveOf offeringId collectorSub) n id
  := by
  obtain ⟨rfl, rfl, hactive⟩ := hrow
  exact h.activePerCollector hactive

/-! ### The steps -/

/-- A step is one of its transaction, at READ COMMITTED. -/
theorem Step.acts (h : Step hashtext maxBidsPerOffering s n s')
    (offeringId collectorSub : JsString) :
  Acts (Row.ActiveOf offeringId collectorSub) n s.bids s'.bids
  := by
  cases h with
  | insert _ _ hfresh hindexed => exact .write (fun m _ => hfresh m) hindexed.admits
  | update _ _ _ hfree hindexed | win _ _ _ hfree hindexed | lose _ _ _ hfree hindexed =>
    exact .write hfree hindexed.admits
  | commit => exact .commit
  | full | conflict | fail => exact .abort
  | _ => exact .nothing

/-- The locks of the other transactions are left alone. -/
theorem Step.locks (h : Step hashtext maxBidsPerOffering s n s') (hm : m ≠ n) (key : ℤ) :
  s'.locks key = some m ↔ s.locks key = some m
  := by
  cases h with
  | @lock bid _ hnone =>
    show Function.update s.locks (hashtext bid.offeringId) (some n) key = some m ↔ _
    rw [Function.update_apply]
    split
    · rename_i hkey
      rw [hkey, hnone]
      simp [Ne.symm hm]
    · exact Iff.rfl
  | full | conflict | commit | fail =>
    show (if s.locks key = some n then none else s.locks key) = some m ↔ _
    split
    · rename_i hn
      rw [hn]
      simp [Ne.symm hm]
    · exact Iff.rfl
  | _ => exact Iff.rfl

theorem Step.calls (h : Step hashtext maxBidsPerOffering s n s') (hm : m ≠ n) :
  s'.calls m = s.calls m
  := by
  cases h <;> exact Function.update_of_ne hm _ _

/-! ### What a transaction may add -/

/-- The transaction has the lock of an offering. -/
def Locked (hashtext : JsString → ℤ) (s : State) (n : ℕ) (offeringId : JsString) : Prop :=
  s.locks (hashtext offeringId) = some n

/-- What a submission has made sure of before it inserts the bid. -/
def Ready (hashtext : JsString → ℤ) (maxBidsPerOffering : ℕ) (s : State) (n : ℕ) : Phase → Prop
  | .idle => s.bids.writes n = fun _ => none
  | .running (.submit bid) .counting =>
    s.bids.writes n = (fun _ => none) ∧ Locked hashtext s n bid.offeringId
  | .running (.submit bid) .inserting =>
    s.bids.writes n = (fun _ => none) ∧ Locked hashtext s n bid.offeringId
      ∧ (s.bids.having (Row.ActiveOn bid.offeringId)).encard < maxBidsPerOffering
  | .running (.submit _) .locking => s.bids.writes n = fun _ => none
  | _ => True

/-- The rows are held and indexed, the active bids are within the limit, and so is what each
transaction adds to them. -/
structure Tracked (hashtext : JsString → ℤ) (maxBidsPerOffering : ℕ) (s : State) : Prop where
  consistent : ∀ offeringId collectorSub, Consistent (Row.ActiveOf offeringId collectorSub) s.bids
  active : ∀ offeringId, (s.bids.having (Row.ActiveOn offeringId)).encard ≤ maxBidsPerOffering
  within : ∀ n offeringId, Within (Row.ActiveOn offeringId) maxBidsPerOffering
    (Locked hashtext s n offeringId) s.bids n
  ready : ∀ n, Ready hashtext maxBidsPerOffering s n (s.calls n)

/-- Two transactions do not have one lock. -/
theorem Locked.exclusive (hm : m ≠ n) (h : Locked hashtext s m offeringId) :
  ¬ Locked hashtext s n offeringId
  := by
  intro hn
  exact hm (Option.some.inj (h.symm.trans hn))

theorem Tracked.within_of_ne (hs : Tracked hashtext maxBidsPerOffering s)
    (h : Step hashtext maxBidsPerOffering s n s') (hm : m ≠ n) (offeringId : JsString) :
  Within (Row.ActiveOn offeringId) maxBidsPerOffering (Locked hashtext s' m offeringId) s'.bids m
  := by
  have hlocked : Locked hashtext s' m offeringId = Locked hashtext s m offeringId :=
    propext (h.locks hm _)
  rw [hlocked]
  exact Within.acts (hs.consistent [] []) (h.acts [] []) hm (hs.within n offeringId)
    (Locked.exclusive hm) (hs.within m offeringId)

/-- What a submission has made sure of stays so when another transaction acts. -/
theorem Tracked.ready_of_ne (hs : Tracked hashtext maxBidsPerOffering s)
    (h : Step hashtext maxBidsPerOffering s n s') (hm : m ≠ n) :
  Ready hashtext maxBidsPerOffering s' m (s'.calls m)
  := by
  have hready := hs.ready m
  have hwrites := (h.acts [] []).writes hm
  rw [h.calls hm]
  cases hphase : s.calls m with
  | idle =>
    rw [hphase] at hready
    exact hwrites.trans hready
  | running operation stage =>
    rw [hphase] at hready
    cases operation with
    | change | settle => cases stage <;> trivial
    | submit bid =>
      cases stage with
      | locking => exact hwrites.trans hready
      | counting => exact ⟨hwrites.trans hready.1, (h.locks hm _).mpr hready.2⟩
      | inserting =>
        obtain ⟨hclean, hlocked, hroom⟩ := hready
        refine ⟨hwrites.trans hclean, (h.locks hm _).mpr hlocked, ?_⟩
        have hsubset := (hs.within n bid.offeringId).having (h.acts [] [])
          (hlocked.exclusive hm)
        exact (Set.encard_le_encard hsubset).trans_lt hroom
      | updating | winning | losing | flipping | committing => trivial

/-- A transaction that has written nothing counts what is committed. -/
theorem countActiveForOffering_of_clean (h : db.writes n = fun _ => none) :
  countActiveForOffering db n offeringId = (db.having (Row.ActiveOn offeringId)).encard
  := by
  rw [countActiveForOffering, view_of_clean h]
  rfl

/-- What the transaction that acts adds, and what it has made sure of. -/
theorem Step.own (hs : Tracked hashtext maxBidsPerOffering s)
    (h : Step hashtext maxBidsPerOffering s n s') :
  (∀ offeringId, Within (Row.ActiveOn offeringId) maxBidsPerOffering
      (Locked hashtext s' n offeringId) s'.bids n)
    ∧ Ready hashtext maxBidsPerOffering s' n (s'.calls n)
  := by
  have hwithin := hs.within n
  have hready := hs.ready n
  cases h with
  | @start operation hphase =>
    rw [hphase] at hready
    rw [enter_calls]
    refine ⟨hwithin, ?_⟩
    cases operation with
    | submit => exact hready
    | change | settle => trivial
  | @lock bid hphase hnone =>
    rw [hphase] at hready
    rw [lock_calls]
    exact ⟨fun offeringId => within_of_clean hready, hready, Function.update_self ..⟩
  | count hphase hroom =>
    rw [hphase] at hready
    rw [enter_calls]
    refine ⟨hwithin, hready.1, hready.2, ?_⟩
    rwa [countActiveForOffering_of_clean hready.1] at hroom
  | @insert id bid hphase _ _ _ =>
    rw [hphase] at hready
    rw [write_calls]
    obtain ⟨hclean, hlocked, hroom⟩ := hready
    refine ⟨?_, trivial⟩
    intro offeringId
    by_cases hoffering : bid.offeringId = offeringId
    · subst hoffering
      exact within_insert hclean hlocked hroom
    · refine ⟨∅, ?_, .inl rfl⟩
      intro id' row hwrites hactive
      rcases of_write_writes hwrites with ⟨_, _, rfl⟩ | ⟨_, hwrites⟩
      · exact absurd hactive.1 hoffering
      · rw [hclean] at hwrites
        cases hwrites
  | update _ hview hstatus =>
    rw [write_calls]
    exact ⟨fun offeringId => (hwithin offeringId).write hview (Change.activeOn_of_set hstatus),
      trivial⟩
  | win _ hview =>
    rw [write_calls]
    exact ⟨fun offeringId => (hwithin offeringId).write hview fun hactive =>
      absurd hactive Row.not_activeOn_win, trivial⟩
  | lose _ hview =>
    rw [write_calls]
    exact ⟨fun offeringId => (hwithin offeringId).write hview fun hactive =>
      absurd hactive Row.not_activeOn_lose, trivial⟩
  | miss | won | scan | skip | settled =>
    rw [enter_calls]
    exact ⟨hwithin, trivial⟩
  | full | conflict | fail =>
    rw [finish_calls]
    exact ⟨fun offeringId => within_of_clean abort_writes, abort_writes⟩
  | commit =>
    rw [finish_calls]
    exact ⟨fun offeringId => within_of_clean commit_writes, commit_writes⟩

theorem Step.tracked (hs : Tracked hashtext maxBidsPerOffering s)
    (h : Step hashtext maxBidsPerOffering s n s') :
  Tracked hashtext maxBidsPerOffering s'
  := by
  obtain ⟨hwithin, hready⟩ := h.own hs
  constructor
  · intro offeringId collectorSub
    exact (h.acts offeringId collectorSub).consistent (hs.consistent offeringId collectorSub)
  · intro offeringId
    exact (hs.within n offeringId).encard_le (h.acts [] []) (hs.active offeringId)
  · intro m
    by_cases hm : m = n
    · subst hm
      exact hwithin
    · exact hs.within_of_ne h hm
  · intro m
    by_cases hm : m = n
    · subst hm
      exact hready
    · exact hs.ready_of_ne h hm

/-! ### The runs -/

theorem tracked_init (h : (system hashtext maxBidsPerOffering).init s) :
  Tracked hashtext maxBidsPerOffering s
  := by
  obtain ⟨hempty, hclean, _, hidle⟩ := h
  have hnone : ∀ m k row, s.bids.writes m k ≠ some row := by
    intro m k row hwrites
    rw [hclean m] at hwrites
    cases hwrites
  constructor
  · intro offeringId collectorSub
    constructor
    · intro m n k row _ hwrites
      exact absurd hwrites (hnone m k row)
    · intro m n k _ row _ hwrites
      exact absurd hwrites (hnone m k row)
    · intro m k _ row _ hwrites
      exact absurd hwrites (hnone m k row)
    · intro k _ row _ hcommitted
      rw [hempty] at hcommitted
      cases hcommitted
  · intro offeringId
    have hhaving : s.bids.having (Row.ActiveOn offeringId) = ∅ := by
      ext id
      simp [having, hempty]
    rw [hhaving, Set.encard_empty]
    exact zero_le
  · exact fun n offeringId => within_of_clean (hclean n)
  · intro n
    rw [hidle n]
    exact hclean n

theorem Reachable.tracked (h : (system hashtext maxBidsPerOffering).Reachable s) :
  Tracked hashtext maxBidsPerOffering s
  := by
  apply h.invariant
  · intro s₀ hinit
    apply tracked_init hinit
  · intro s₁ n s₂ hs₁ hstep
    apply Step.tracked hs₁ hstep

/-- Whatever transactions there are, the active bids of an offering stay within the limit, and a
collector has at most one of them. -/
theorem withinBudget (h : (system hashtext maxBidsPerOffering).Reachable s) :
  WithinBudget maxBidsPerOffering s
  := by
  have hs := Reachable.tracked h
  constructor
  · exact hs.active
  · intro offeringId collectorSub
    exact (hs.consistent offeringId collectorSub).unique

/-! ### Two bids on one offering -/

/-- The given rows are committed, and no transaction is running. -/
def settled (rows : JsString → Option Row) : State where
  bids := { committed := rows, writes := fun _ _ => none }
  locks := fun _ => none
  calls := fun _ => .idle

/-- A row that is to be written shares neither its collector nor its key with another. -/
def Distinct (rows : JsString → Option Row) (id : JsString) (row : Row) : Prop :=
  ∀ id' row', id' ≠ id → rows id' = some row' →
    row'.collectorSub ≠ row.collectorSub ∧ row'.idempotencyHash ≠ row.idempotencyHash

section Settled

variable {rows : JsString → Option Row}

theorem Distinct.update {id' : JsString} (h : Distinct rows id row)
    (hne : row'.collectorSub ≠ row.collectorSub)
    (hkey : row'.idempotencyHash ≠ row.idempotencyHash) :
  Distinct (Function.update rows id' (some row')) id row
  := by
  intro k row'' hk heq
  by_cases hid : k = id'
  · subst hid
    rw [Function.update_self] at heq
    cases heq
    exact ⟨hne, hkey⟩
  · rw [Function.update_of_ne hid] at heq
    exact h k row'' hk heq

/-- The row itself may have been there before. -/
theorem Distinct.update_self (h : Distinct rows id row) :
  Distinct (Function.update rows id row') id row
  := by
  intro k row'' hk heq
  rw [Function.update_of_ne hk] at heq
  exact h k row'' hk heq

/-- The indexes admit such a row. -/
theorem Distinct.indexed (h : Distinct rows id row) :
  Indexed (settled rows).bids n id row
  := by
  constructor
  · intro _
    constructor
    · intro k row' hk hview hof
      exact (h k row' hk hview).1 hof.2.1
    · intro m k row' _ hwrites
      cases hwrites
  · intro _
    constructor
    · intro k row' hk hview hholds
      exact (h k row' hk hview).2 hholds.1
    · intro m k row' _ hwrites
      cases hwrites

/-- A transaction that has written one row is over. -/
theorem finish_write (hbids : s.bids = (settled rows).bids.write 0 id row)
    (hlocks : ∀ key, s.locks key = none ∨ s.locks key = some 0)
    (hcalls : ∀ m, m ≠ 0 → s.calls m = .idle) :
  s.finish 0 (s.bids.commit 0) = settled (Function.update rows id (some row))
  := by
  simp only [State.finish, settled, State.mk.injEq]
  refine ⟨?_, ?_, ?_⟩
  · simp only [Store.commit, Store.mk.injEq, hbids]
    constructor
    · funext k
      by_cases hk : k = id
      · subst hk
        simp [view, write]
      · simp [view, write, hk, settled]
    · simp [write, settled]
  · funext key
    rcases hlocks key with hnone | hheld
    · simp [hnone]
    · simp [hheld]
  · funext m
    by_cases hm : m = 0
    · subst hm
      rw [Function.update_self]
    · rw [Function.update_of_ne hm, hcalls m hm]

/-- A bid is submitted when there is room for one. -/
theorem settled_submit (id : JsString) (bid : NewBid)
    (h : (system hashtext maxBidsPerOffering).Reachable (settled rows)) (hid : rows id = none)
    (hdistinct : Distinct rows id bid.row)
    (hroom : {k | ∃ row, rows k = some row ∧ row.ActiveOn bid.offeringId}.encard
      < maxBidsPerOffering) :
  (system hashtext maxBidsPerOffering).Reachable
    (settled (Function.update rows id (some bid.row)))
  := by
  have hlocking := h.step (@Step.start _ _ _ 0 (.submit bid) rfl)
  have hcounting := hlocking.step (.lock (enter_calls ..) rfl)
  have hinserting := hcounting.step (.count (lock_calls ..) (by
    rw [countActiveForOffering_of_clean rfl]
    exact hroom))
  have hcommitting := hinserting.step
    (.insert (enter_calls ..) hid (fun _ => rfl) hdistinct.indexed)
  have hcommitted := hcommitting.step (.commit (write_calls ..))
  rwa [finish_write rfl] at hcommitted
  · intro key
    by_cases hkey : key = hashtext bid.offeringId
    · subst hkey
      exact .inr (Function.update_self ..)
    · exact .inl (Function.update_of_ne hkey ..)
  · intro m hm
    simp [State.write, State.enter, State.lock, settled, hm]

/-- A status is changed. -/
theorem settled_change (id : JsString) (change : Change)
    (h : (system hashtext maxBidsPerOffering).Reachable (settled rows)) (hrow : rows id = some row)
    (hstatus : row.status = change.expected)
    (hdistinct : Distinct rows id (change.set row)) :
  (system hashtext maxBidsPerOffering).Reachable
    (settled (Function.update rows id (some (change.set row))))
  := by
  have hupdating := h.step (@Step.start _ _ _ 0 (.change id change) rfl)
  have hcommitting := hupdating.step
    (.update (enter_calls ..) hrow hstatus (fun _ _ => rfl) hdistinct.indexed)
  have hcommitted := hcommitting.step (.commit (write_calls ..))
  rwa [finish_write rfl] at hcommitted
  · exact fun _ => .inl rfl
  · intro m hm
    simp [State.write, State.enter, settled, hm]

end Settled

/-- A bid of the collector `[1]` on the offering `[0]`. -/
def sampleBid : NewBid := ⟨[0], [1], .account 0, 10, 2, [2]⟩

/-- A bid of the collector `[3]` on the same offering. -/
def otherBid : NewBid := ⟨[0], [3], .account 1, 12, 1, [4]⟩

/-- The first bid, once it is in escrow. -/
def sampleEscrowed : Row := Change.set (.escrowed 1 [5]) sampleBid.row

/-- While the first bid is being canceled it is the only one, and there is room for another. -/
theorem encard_canceling {offeringId : JsString} :
  {k | ∃ row', Function.update (Function.update (Function.update (fun _ => none) [7]
      (some sampleBid.row)) [7] (some sampleEscrowed)) [7]
      (some (Change.set .canceling sampleEscrowed)) k = some row' ∧ row'.ActiveOn offeringId}.encard
    < 2
  := by
  apply lt_of_le_of_lt (b := 1)
  · apply Set.encard_le_one_iff.mpr
    have hid : ∀ k row', Function.update (Function.update (Function.update (fun _ => none) [7]
        (some sampleBid.row)) [7] (some sampleEscrowed)) [7]
        (some (Change.set .canceling sampleEscrowed)) k = some row' → k = [7] := by
      intro k row' hrow
      by_contra hne
      simp [Function.update_of_ne hne] at hrow
    rintro k k' ⟨row₁, hrow₁, _⟩ ⟨row₂, hrow₂, _⟩
    rw [hid k row₁ hrow₁, hid k' row₂ hrow₂]
  · decide

/-- The first bid is submitted and is in escrow. While it is being canceled, the second one is
submitted, and then the cancellation is rolled back. -/
theorem withinBudget_sample :
  ∃ s : State, s.bids.committed [7] = some sampleEscrowed
    ∧ s.bids.committed [8] = some otherBid.row ∧ WithinBudget 2 s
  := by
  have hempty : ∀ id row, Distinct (fun _ => none) id row := by
    intro _ _ _ _ _ h
    cases h
  have hinit : (system (fun _ => 0) 2).Reachable (settled fun _ => none) :=
    .init ⟨fun _ => rfl, fun _ => rfl, fun _ => rfl, fun _ => rfl⟩
  have hsubmitted := settled_submit [7] sampleBid hinit rfl (hempty _ _) (by simp)
  have hescrowed := settled_change [7] (.escrowed 1 [5]) hsubmitted (Function.update_self ..) rfl
    (hempty _ _).update_self
  have hcanceling := settled_change [7] .canceling hescrowed (Function.update_self ..) rfl
    (hempty _ _).update_self.update_self
  have hboth := settled_submit [8] otherBid hcanceling rfl
    ((((hempty [8] _).update (by decide) (by decide)).update (by decide) (by decide)).update
      (by decide) (by decide)) encard_canceling
  have hback := settled_change [7] .backToEscrowed hboth rfl rfl
    ((hempty [7] _).update_self.update_self.update_self.update (by decide) (by decide))
  exact ⟨_, rfl, rfl, withinBudget hback⟩

end BidBook
