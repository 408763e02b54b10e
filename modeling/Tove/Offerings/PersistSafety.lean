import Tove.Offerings.Persist

/-!
# A settlement is persisted once, or not at all

Each winner flips one row, and what it flips is no longer escrowed; so the rows that are flipped are
as many as the winners, whichever offering they belong to. When the winners and the losers together
are as many as the bids of the offering that were escrowed, no winner has flipped a bid on another
offering.
-/

namespace Persist

open Js Clearing Transition Totals

open Offerings (OfferingBid OfferingRow OfferingStatus)

variable {off : Offering} {p : Attempt} {bids bids' marked : List BidRow} {w : ClearingWinner}
  {winners : List ClearingWinner} {row : BidRow}

/-! ### The rows -/

section Rows

/-- What the winners make of a row. -/
def BidRow.mark (winners : List ClearingWinner) (row : BidRow) : BidRow :=
  { row with bid := row.bid.marked winners }

/-- What the settlement makes of a row. -/
def BidRow.settle (offeringId : ℕ) (winners : List ClearingWinner) (row : BidRow) : BidRow :=
  if row.Escrowed offeringId then { row with bid := row.bid.outcome winners } else row

theorem casWon_eq_some :
  casWon bids w = some bids'
    ↔ (∃ row ∈ bids, row.bid.id = w.id ∧ row.bid.status = .escrowed)
      ∧ bids' = bids.map (BidRow.award w)
  := by
  rw [casWon, Option.ite_none_right_eq_some]
  simp [eq_comm]

theorem award_id : (row.award w).bid.id = row.bid.id := by
  rw [BidRow.award]
  split <;> rfl

/-- A bid that has become `won` is not flipped again. -/
theorem mark_award :
  (row.award w).mark winners = row.mark (w :: winners)
  := by
  by_cases hescrowed : row.bid.status = .escrowed
  · by_cases hid : row.bid.id = w.id
    · simp [BidRow.award, BidRow.mark, OfferingBid.marked, OfferingBid.win, hescrowed, hid]
    · simp [BidRow.award, BidRow.mark, OfferingBid.marked, hescrowed, hid, Ne.symm hid]
  · simp [BidRow.award, BidRow.mark, OfferingBid.marked, hescrowed]

/-- The loop over the winners. -/
theorem foldlM_casWon (h : winners.foldlM casWon bids = some marked) :
  marked = bids.map (BidRow.mark winners)
  := by
  induction winners generalizing bids with
  | nil =>
    rw [List.foldlM_nil] at h
    obtain rfl := Option.some.inj h
    symm
    apply List.map_id''
    intro row
    simp [BidRow.mark, OfferingBid.marked]
  | cons w winners ih =>
    rw [List.foldlM_cons, Option.bind_eq_bind, Option.bind_eq_some_iff] at h
    obtain ⟨bids₁, hw, hrest⟩ := h
    obtain ⟨_, rfl⟩ := casWon_eq_some.mp hw
    rw [ih hrest, List.map_map]
    apply List.map_congr_left
    intro row _
    apply mark_award

/-- A winner changes a total by what it makes of the one row that it flips. -/
theorem casWon_total {g : BidRow → ℤ} {gain : ClearingWinner → ℤ}
    (hgain : ∀ row w, row.bid.status = .escrowed →
      g { row with bid := row.bid.win w } = g row + gain w)
    (hnodup : (bids.map fun row => row.bid.id).Nodup) (h : casWon bids w = some bids') :
  total g bids' = total g bids + gain w
  := by
  obtain ⟨⟨row, hmem, hid, hescrowed⟩, rfl⟩ := casWon_eq_some.mp h
  have hother : ∀ c ∈ bids, c ≠ row → (g ∘ BidRow.award w) c = g c := by
    intro c hc hne
    rw [Function.comp_apply, BidRow.award, if_neg]
    rintro ⟨hcid, _⟩
    exact hne (List.inj_on_of_nodup_map hnodup hc hmem (hcid.trans hid.symm))
  have hrow : g (row.award w) = g row + gain w := by
    rw [BidRow.award, if_pos ⟨hid, hescrowed⟩, hgain row w hescrowed]
  rw [total_map, total_update (f := g) hnodup.of_map hmem hother, Function.comp_apply, hrow]
  ring

/-- The winners change a total by what each of them makes of the row that it flips. -/
theorem foldlM_total {g : BidRow → ℤ} {gain : ClearingWinner → ℤ}
    (hgain : ∀ row w, row.bid.status = .escrowed →
      g { row with bid := row.bid.win w } = g row + gain w)
    (hnodup : (bids.map fun row => row.bid.id).Nodup)
    (h : winners.foldlM casWon bids = some marked) :
  total g marked = total g bids + total gain winners
  := by
  induction winners generalizing bids with
  | nil =>
    rw [List.foldlM_nil] at h
    obtain rfl := Option.some.inj h
    rw [total_nil, add_zero]
  | cons w winners ih =>
    rw [List.foldlM_cons, Option.bind_eq_bind, Option.bind_eq_some_iff] at h
    obtain ⟨bids₁, hw, hrest⟩ := h
    have hnodup₁ : (bids₁.map fun row => row.bid.id).Nodup := by
      obtain ⟨_, rfl⟩ := casWon_eq_some.mp hw
      rw [List.map_map]
      have hids : (fun row => row.bid.id) ∘ BidRow.award w = fun row : BidRow => row.bid.id := by
        funext row
        apply award_id
      rwa [hids]
    rw [ih hnodup₁ hrest, casWon_total hgain hnodup hw, total_cons]
    ring

/-! ### The bids of the offering -/

/-- What the settlement of the bids of an offering comes to. -/
structure SettledBids (offeringId : ℕ) (winners : List ClearingWinner) (bids bids' : List BidRow) :
    Prop where
  settled : bids' = bids.map (BidRow.settle offeringId winners)
  won_or_lost : ∀ row ∈ bids, row.Escrowed offeringId →
    (∃ w ∈ winners, w.id = row.bid.id ∧ (row.settle offeringId winners).bid = row.bid.win w)
      ∨ (∀ w ∈ winners, w.id ≠ row.bid.id) ∧ (row.settle offeringId winners).bid = row.bid.lose
  won : bids.countP (fun row => row.Escrowed offeringId
    ∧ (row.settle offeringId winners).bid.status = .won) = winners.length
  won_add_lost : bids.countP (fun row => row.Escrowed offeringId
      ∧ (row.settle offeringId winners).bid.status = .won)
    + bids.countP (fun row => row.Escrowed offeringId
      ∧ (row.settle offeringId winners).bid.status = .lost)
    = bids.countP fun row => row.Escrowed offeringId
  allocated : total (fun row => (row.settle offeringId winners).bid.allocatedCount.getD 0)
      (bids.filter fun row => row.Escrowed offeringId)
    = total ClearingWinner.allocatedCount winners

/-- A bid that is settled has either outcome. -/
theorem settle_cases (winners : List ClearingWinner) {offeringId : ℕ}
    (h : row.Escrowed offeringId) :
  (∃ w ∈ winners, w.id = row.bid.id ∧ row.settle offeringId winners = { row with bid := row.bid.win w }
      ∧ row.mark winners = { row with bid := row.bid.win w })
    ∨ (∀ w ∈ winners, w.id ≠ row.bid.id)
      ∧ row.settle offeringId winners = { row with bid := row.bid.lose } ∧ row.mark winners = row
  := by
  rw [BidRow.settle, if_pos h, BidRow.mark, OfferingBid.outcome, OfferingBid.marked, if_pos h.2,
    if_pos h.2]
  cases hfind : winners.find? fun w => w.id = row.bid.id with
  | none =>
    right
    rw [List.find?_eq_none] at hfind
    exact ⟨fun w hw => by simpa using hfind w hw, rfl, rfl⟩
  | some w =>
    left
    refine ⟨w, List.mem_of_find?_eq_some hfind, ?_, rfl, rfl⟩
    simpa using List.find?_some hfind

/-- When winners and losers are as many as there were, no winner has flipped a bid on another
offering. -/
theorem mark_of_not_escrowed {offeringId : ℕ} (hnodup : (bids.map fun row => row.bid.id).Nodup)
    (hmark : winners.foldlM casWon bids = some marked)
    (hcount : winners.length + marked.countP (fun row => row.Escrowed offeringId)
      = bids.countP fun row => row.Escrowed offeringId)
    (hrow : row ∈ bids) (hother : ¬ row.Escrowed offeringId) :
  row.mark winners = row
  := by
  let own : BidRow → ℤ := fun row => if row.Escrowed offeringId then 1 else 0
  let foreign : BidRow → ℤ := fun row =>
    if row.bid.status = .escrowed ∧ row.offeringId ≠ offeringId then 1 else 0
  have hgain : ∀ (row : BidRow) (w : ClearingWinner), row.bid.status = .escrowed →
      (own { row with bid := row.bid.win w } + foreign { row with bid := row.bid.win w })
        = (own row + foreign row) + -1 := by
    intro row w hescrowed
    by_cases hid : row.offeringId = offeringId <;>
      simp [own, foreign, BidRow.Escrowed, OfferingBid.win, hescrowed, hid]
  have htotal := foldlM_total (g := fun row => own row + foreign row) hgain hnodup hmark
  rw [total_add, total_add] at htotal
  have hlength : total (fun _ : ClearingWinner => (-1 : ℤ)) winners = -winners.length := by
    have := total_mul_left (-1) (fun _ : ClearingWinner => 1) winners
    rw [total_one] at this
    simpa using this
  have hown : total own bids = bids.countP fun row => row.Escrowed offeringId := total_countP ..
  have hown' : total own marked = marked.countP fun row => row.Escrowed offeringId :=
    total_countP ..
  have hforeign : total (foreign ∘ BidRow.mark winners) bids = total foreign bids := by
    rw [← total_map, ← foldlM_casWon hmark]
    omega
  have hle : ∀ row ∈ bids, (foreign ∘ BidRow.mark winners) row ≤ foreign row := by
    intro row _
    rw [Function.comp_apply]
    by_cases hescrowed : row.bid.status = .escrowed
    · have hid : (row.mark winners).offeringId = row.offeringId := rfl
      simp only [foreign, hescrowed, hid, true_and]
      split_ifs <;> simp_all
    · simp [foreign, BidRow.mark, OfferingBid.marked, hescrowed]
  have hsame := eq_of_total_eq hle hforeign row hrow
  by_cases hescrowed : row.bid.status = .escrowed
  · have hid : row.offeringId ≠ offeringId := fun hid => hother ⟨hid, hescrowed⟩
    rw [Function.comp_apply] at hsame
    have hstill : (row.mark winners).bid.status = .escrowed := by
      by_contra hnot
      simp [foreign, hescrowed, hid, hnot] at hsame
    have hself : row.Escrowed row.offeringId := ⟨rfl, hescrowed⟩
    rcases settle_cases winners hself with ⟨w, _, _, _, hmarked⟩ | ⟨_, _, hmarked⟩
    · rw [hmarked] at hstill
      cases hstill
    · exact hmarked
  · rw [BidRow.mark, OfferingBid.marked, if_neg hescrowed]

/-- A bid that is escrowed is won, or is left by the winners; no other bid is touched. -/
theorem settledBids_won {offeringId : ℕ} (hmarked : marked = bids.map (BidRow.mark winners))
    (hother : ∀ row ∈ bids, ¬ row.Escrowed offeringId → row.mark winners = row) :
  (bids.countP fun row => row.Escrowed offeringId
      ∧ (row.settle offeringId winners).bid.status = .won)
    + marked.countP (fun row => row.Escrowed offeringId)
    = bids.countP fun row => row.Escrowed offeringId
  := by
  zify
  rw [hmarked, ← total_countP, ← total_countP, ← total_countP, total_map, ← total_add]
  apply total_congr
  intro row hrow
  rw [Function.comp_apply]
  by_cases h : row.Escrowed offeringId
  · rcases settle_cases winners h with ⟨w, _, _, hsettle, hmark⟩ | ⟨_, hsettle, hmark⟩
    · rw [hsettle, hmark]
      simp [BidRow.Escrowed, OfferingBid.win, h.1, h.2]
    · rw [hsettle, hmark]
      simp [h, OfferingBid.lose]
  · rw [hother row hrow h]
    simp [h]

/-- A bid that is escrowed is won or lost. -/
theorem settledBids_won_add_lost {offeringId : ℕ} :
  (bids.countP fun row => row.Escrowed offeringId
      ∧ (row.settle offeringId winners).bid.status = .won)
    + (bids.countP fun row => row.Escrowed offeringId
      ∧ (row.settle offeringId winners).bid.status = .lost)
    = bids.countP fun row => row.Escrowed offeringId
  := by
  zify
  rw [← total_countP, ← total_countP, ← total_countP, ← total_add]
  apply total_congr
  intro row _
  by_cases h : row.Escrowed offeringId
  · rcases settle_cases winners h with ⟨w, _, _, hsettle, _⟩ | ⟨_, hsettle, _⟩
    · rw [hsettle]
      simp [h, OfferingBid.win]
    · rw [hsettle]
      simp [h, OfferingBid.lose]
  · simp [h]

/-- The bids of the offering are allocated what the winners are. -/
theorem settledBids_allocated {offeringId : ℕ} (hnodup : (bids.map fun row => row.bid.id).Nodup)
    (hmark : winners.foldlM casWon bids = some marked)
    (hother : ∀ row ∈ bids, ¬ row.Escrowed offeringId → row.mark winners = row) :
  total (fun row => (row.settle offeringId winners).bid.allocatedCount.getD 0)
      (bids.filter fun row => row.Escrowed offeringId)
    = total ClearingWinner.allocatedCount winners
  := by
  let sold : BidRow → ℤ := fun row =>
    if row.bid.status = .won then row.bid.allocatedCount.getD 0 else 0
  have hgain : ∀ (row : BidRow) (w : ClearingWinner), row.bid.status = .escrowed →
      sold { row with bid := row.bid.win w } = sold row + w.allocatedCount := by
    intro row w hescrowed
    simp [sold, OfferingBid.win, hescrowed]
  have htotal := foldlM_total hgain hnodup hmark
  have hrows : total (sold ∘ BidRow.mark winners) bids = total (fun row => sold row
      + if row.Escrowed offeringId then (row.settle offeringId winners).bid.allocatedCount.getD 0
        else 0) bids := by
    apply total_congr
    intro row hrow
    rw [Function.comp_apply]
    by_cases h : row.Escrowed offeringId
    · have hstatus : row.bid.status = .escrowed := h.2
      rcases settle_cases winners h with
        ⟨w, _, _, hsettle, hmarked⟩ | ⟨_, hsettle, hmarked⟩
      · rw [hsettle, hmarked]
        simp [sold, h, hstatus, OfferingBid.win]
      · rw [hsettle, hmarked]
        simp [sold, h, OfferingBid.lose]
    · rw [hother row hrow h, if_neg h, add_zero]
  rw [foldlM_casWon hmark, total_map, hrows, total_add] at htotal
  rw [total_filter]
  omega

/-- The statements settle the bids of the offering, and no others. -/
theorem settledBids {offeringId : ℕ} (hnodup : (bids.map fun row => row.bid.id).Nodup)
    (hmark : winners.foldlM casWon bids = some marked)
    (hcount : winners.length + marked.countP (fun row => row.Escrowed offeringId)
      = bids.countP fun row => row.Escrowed offeringId) :
  SettledBids offeringId winners bids (marked.map (BidRow.drop offeringId))
  := by
  have hother : ∀ row ∈ bids, ¬ row.Escrowed offeringId → row.mark winners = row :=
    fun row hrow => mark_of_not_escrowed hnodup hmark hcount hrow
  have hmarked := foldlM_casWon hmark
  constructor
  case settled =>
    rw [hmarked, List.map_map]
    apply List.map_congr_left
    intro row hrow
    rw [Function.comp_apply]
    by_cases h : row.Escrowed offeringId
    · rcases settle_cases winners h with
        ⟨w, _, _, hsettle, hmark⟩ | ⟨_, hsettle, hmark⟩
      · rw [hsettle, hmark]
        simp [BidRow.drop, BidRow.Escrowed, OfferingBid.win]
      · rw [hsettle, hmark, BidRow.drop, if_pos h]
    · rw [hother row hrow h, BidRow.drop, if_neg h, BidRow.settle, if_neg h]
  case won_or_lost =>
    intro row _ h
    rcases settle_cases winners h with ⟨w, hw, hid, hsettle, _⟩ | ⟨hnone, hsettle, _⟩
    · left
      exact ⟨w, hw, hid, by rw [hsettle]⟩
    · right
      exact ⟨hnone, by rw [hsettle]⟩
  case won =>
    have := settledBids_won hmarked hother
    omega
  case won_add_lost => apply settledBids_won_add_lost
  case allocated => apply settledBids_allocated hnodup hmark hother

end Rows

/-! ### The runs -/

section Runs

/-- What the commit of an attempt makes of the tables. -/
structure Settled (off : Offering) (p : Attempt) (t t' : Tables) : Prop where
  offering : t'.offering = ⟨.settled, false⟩
  bids : SettledBids off.id p.result.winners t.bids t'.bids
  sold : total (fun row => (row.settle off.id p.result.winners).bid.allocatedCount.getD 0)
    (t.bids.filter fun row => row.Escrowed off.id) = off.publicFloat
  audits : t'.audits = t.audits ++ [snapshot off p]
  record : t'.audits.filter (fun a => a.offeringId = off.id) = [snapshot off p]
  log : t'.log = t.log ++ [settledEntry off p]

/-- The winners have been flipped, and the rest of the bids. -/
structure Flipped (off : Offering) (p : Attempt) (t view : Tables) : Prop where
  offering : view.offering = ⟨.settled, false⟩
  bids : SettledBids off.id p.result.winners t.bids view.bids
  accepted : p.Accepted off t.bids

/-- What a transaction has done to the tables on which it began. -/
def Phase.Holds (off : Offering) (t : Tables) : Phase → Prop
  | .idle => True
  | .called p => p.Accepted off t.bids
  | .flipping p remaining view => p.Accepted off t.bids ∧ view.offering = ⟨.settled, false⟩
    ∧ view.audits = t.audits ∧ view.log = t.log
    ∧ ∃ done, p.result.winners = done ++ remaining ∧ done.foldlM casWon t.bids = some view.bids
  | .flipped p view => Flipped off p t view ∧ view.audits = t.audits ∧ view.log = t.log
  | .stored p view => Flipped off p t view ∧ view.audits = t.audits ++ [snapshot off p]
    ∧ view.log = t.log
  | .logged p view => Settled off p t view

/-- The attempt is in its transaction, and has the lock. -/
def Phase.InTransaction : Phase → Prop
  | .idle | .called _ => False
  | _ => True

/-- What an attempt has committed. -/
def Label.committed : Label → Option Attempt
  | .commit p => some p
  | .other => none

/-- What the attempts have committed. -/
def commits (ls : List Label) : List Attempt := ls.filterMap Label.committed

/-- Either nothing has been committed, and what each transaction has done it has done on the initial
tables; or one attempt has committed, and no other is in its transaction. -/
inductive Once (off : Offering) (t : Tables) : List Attempt → State → Prop where
  | unsettled {s : State} : s.tables = t → t.offering.status = .subscribed →
      (∀ n, (s.attempts n).Holds off t) →
      (∀ n, (s.attempts n).InTransaction → s.lock = some n) → Once off t [] s
  | settled {s : State} {p : Attempt} : Settled off p t s.tables →
      (∀ n, ¬ (s.attempts n).InTransaction) → Once off t [p] s

theorem commits_append (ls ls' : List Label) :
  commits (ls ++ ls') = commits ls ++ commits ls'
  := List.filterMap_append

theorem commits_singleton (l : Label) :
  commits [l] = l.committed.toList
  := by cases l <;> rfl

variable {t : Tables} {s s' : State} {n : ℕ} {phase : Phase} {l : Label} {ps : List Attempt}

/-- An attempt that enters a phase of its transaction has done to the tables what it should
have, and has the lock. -/
theorem Once.enter (htables : s.tables = t) (hstatus : t.offering.status = .subscribed)
    (hholds : ∀ n, (s.attempts n).Holds off t)
    (hlock : ∀ n, (s.attempts n).InTransaction → s.lock = some n) (hphase : phase.Holds off t)
    (hn : phase.InTransaction → s.lock = some n) :
  Once off t [] (s.enter n phase)
  := by
  apply Once.unsettled (s := s.enter n phase) htables hstatus
  · apply (Function.forall_update_iff s.attempts fun _ phase => phase.Holds off t).mpr
    exact ⟨hphase, fun m _ => hholds m⟩
  · apply (Function.forall_update_iff s.attempts fun m phase => phase.InTransaction →
      s.lock = some m).mpr
    exact ⟨hn, fun m _ => hlock m⟩

theorem Once.settled_enter (hsettled : Settled off p t s.tables)
    (hnone : ∀ n, ¬ (s.attempts n).InTransaction) (hphase : ¬ phase.InTransaction) :
  Once off t [p] (s.enter n phase)
  := by
  apply Once.settled (s := s.enter n phase) hsettled
  apply (Function.forall_update_iff s.attempts fun _ phase => ¬ phase.InTransaction).mpr
  exact ⟨hphase, fun m _ => hnone m⟩

/-- What a transaction has persisted when it has inserted its record and its entry of the log. -/
theorem Flipped.settled {view : Tables} (h : Flipped off p t view)
    (haudits : ∀ a ∈ t.audits, a.offeringId ≠ off.id)
    (hrecord : view.audits = t.audits ++ [snapshot off p]) (hlog : view.log = t.log) :
  Settled off p t { view with log := view.log ++ [settledEntry off p] }
  := by
  constructor
  case offering => apply h.offering
  case bids => apply h.bids
  case sold => rw [h.bids.allocated, assertClearingInvariants_sold h.accepted.2]
  case audits => apply hrecord
  case record =>
    have hnone : t.audits.filter (fun a => a.offeringId = off.id) = [] := by
      rw [List.filter_eq_nil_iff]
      simpa using haudits
    have hself : (snapshot off p).offeringId = off.id := rfl
    rw [hrecord, List.filter_append, hnone]
    simp [hself]
  case log => rw [hlog]

/-- The statement that flips the rest of the bids, when the numbers agree. -/
theorem flipped_of_flipping {view : Tables} (hnodup : (t.bids.map fun row => row.bid.id).Nodup)
    (haccepted : p.Accepted off t.bids) (hoffering : view.offering = ⟨.settled, false⟩)
    (hmark : p.result.winners.foldlM casWon t.bids = some view.bids)
    (hcount : p.result.winners.length + (flipRemainingEscrowedToLost view.bids off.id).2
      = p.escrowedCount) :
  Flipped off p t { view with bids := (flipRemainingEscrowedToLost view.bids off.id).1 }
  := by
  rw [haccepted.1] at hcount
  exact ⟨hoffering, settledBids hnodup hmark hcount, haccepted⟩

/-- The step lemma. -/
theorem Once.step (hnodup : (t.bids.map fun row => row.bid.id).Nodup)
    (haudits : ∀ a ∈ t.audits, a.offeringId ≠ off.id) (h : Once off t ps s)
    (hstep : Step off s l s') :
  Once off t (ps ++ l.committed.toList) s'
  := by
  cases h with
  | unsettled htables hstatus hholds hlock =>
    cases hstep with
    | @call n p hphase haccepted =>
      rw [htables] at haccepted
      have hp : (Phase.called p).Holds off t := haccepted
      apply Once.enter htables hstatus hholds hlock hp False.elim
    | @casSettled n p offering hphase hfree hcas =>
      have hp := hholds n
      rw [hphase] at hp
      rw [htables, OfferingRow.casSettled, if_pos hstatus] at hcas
      obtain rfl := Option.some.inj hcas
      apply Once.enter (s := { s with lock := some n }) htables hstatus hholds
      · intro m hm
        have hm' := hlock m hm
        rw [hfree] at hm'
        cases hm'
      · refine ⟨hp, rfl, by rw [htables], by rw [htables], [], rfl, ?_⟩
        rw [htables, List.foldlM_nil]
        rfl
      · exact fun _ => rfl
    | @alreadySettled n p hphase hfree hcas =>
      have hidle : Phase.idle.Holds off t := trivial
      apply Once.enter htables hstatus hholds hlock hidle False.elim
    | @casWon n p w remaining view bids hphase hcas =>
      have hview := hholds n
      have hn := hlock n
      rw [hphase] at hview hn
      obtain ⟨haccepted, hoffering, hrecord, hlog, done, hdone, hbids⟩ := hview
      apply Once.enter htables hstatus hholds hlock _ fun _ => hn trivial
      refine ⟨haccepted, hoffering, hrecord, hlog, done ++ [w], ?_, ?_⟩
      · rw [hdone, List.append_assoc, List.singleton_append]
      · rw [List.foldlM_append, hbids, Option.bind_eq_bind, Option.bind_some, List.foldlM_cons, hcas,
          Option.bind_eq_bind, Option.bind_some, List.foldlM_nil]
        rfl
    | @flipRemaining n p view hphase hcount =>
      have hview := hholds n
      have hn := hlock n
      rw [hphase] at hview hn
      obtain ⟨haccepted, hoffering, hrecord, hlog, done, hdone, hbids⟩ := hview
      rw [List.append_nil] at hdone
      rw [← hdone] at hbids
      apply Once.enter htables hstatus hholds hlock _ fun _ => hn trivial
      exact ⟨flipped_of_flipping hnodup haccepted hoffering hbids hcount, hrecord, hlog⟩
    | @insertSnapshot n p view audits hphase hinsert =>
      have hview := hholds n
      have hn := hlock n
      rw [hphase] at hview hn
      obtain ⟨hflipped, hrecord, hlog⟩ := hview
      rw [insertSnapshot, Option.ite_none_left_eq_some] at hinsert
      obtain rfl := Option.some.inj hinsert.2
      apply Once.enter htables hstatus hholds hlock _ fun _ => hn trivial
      exact ⟨⟨hflipped.offering, hflipped.bids, hflipped.accepted⟩, by rw [hrecord], hlog⟩
    | @log n p view hphase =>
      have hview := hholds n
      have hn := hlock n
      rw [hphase] at hview hn
      obtain ⟨hflipped, hrecord, hlog⟩ := hview
      apply Once.enter htables hstatus hholds hlock _ fun _ => hn trivial
      apply hflipped.settled haudits hrecord hlog
    | @commit n p view hphase =>
      have hview := hholds n
      have hn := hlock n
      rw [hphase] at hview hn
      apply Once.settled (s := State.stop { s with tables := view } n) hview
      apply (Function.forall_update_iff s.attempts fun _ phase => ¬ phase.InTransaction).mpr
      refine ⟨id, fun m hm hm' => hm ?_⟩
      have hsame := (hlock m hm').symm.trans (hn trivial)
      exact Option.some.inj hsame
    | @rollback n =>
      apply Once.unsettled (s := s.stop n) htables hstatus
      · apply (Function.forall_update_iff s.attempts fun _ phase => phase.Holds off t).mpr
        exact ⟨trivial, fun m _ => hholds m⟩
      · apply (Function.forall_update_iff s.attempts fun m phase => phase.InTransaction →
          (if s.lock = some n then none else s.lock) = some m).mpr
        refine ⟨False.elim, fun m hm hm' => ?_⟩
        have hne : s.lock ≠ some n := by
          rw [hlock m hm']
          simpa using hm
        rw [if_neg hne, hlock m hm']
  | @settled _ p' hsettled hnone =>
    have hfalse : ∀ n, (s.attempts n).InTransaction → Once off t ([p'] ++ l.committed.toList) s' :=
      fun n hn => absurd hn (hnone n)
    cases hstep with
    | call => apply Once.settled_enter hsettled hnone id
    | casSettled _ _ hcas =>
      rw [hsettled.offering] at hcas
      cases hcas
    | alreadySettled => apply Once.settled_enter hsettled hnone id
    | rollback => exact Once.settled_enter hsettled hnone id
    | @casWon n _ _ _ _ _ hphase => apply hfalse n (by rw [hphase]; trivial)
    | @flipRemaining n _ _ hphase => apply hfalse n (by rw [hphase]; trivial)
    | @insertSnapshot n _ _ _ hphase => apply hfalse n (by rw [hphase]; trivial)
    | @log n _ _ hphase => apply hfalse n (by rw [hphase]; trivial)
    | @commit n _ _ hphase => apply hfalse n (by rw [hphase]; trivial)

/-- The run lemma. -/
theorem once {s₀ s : State} {ls : List Label} (hinit : (system off).init s₀)
    (hrun : (system off).Run s₀ ls s) :
  Once off s₀.tables (commits ls) s
  := by
  obtain ⟨hstatus, hnodup, haudits, _, hidle⟩ := hinit
  induction hrun with
  | nil =>
    apply Once.unsettled rfl hstatus
    · intro n
      rw [hidle n]
      trivial
    · intro n hn
      rw [hidle n] at hn
      cases hn
  | snoc _ hstep ih =>
    have hnext := Once.step hnodup haudits ih hstep
    rwa [commits_append, commits_singleton]

/-- A settlement leaves no choice of the tables. -/
theorem Settled.unique {t₁ t₂ : Tables} (h₁ : Settled off p t t₁) (h₂ : Settled off p t t₂) :
  t₁ = t₂
  := by
  obtain ⟨offering₁, bids₁, audits₁, log₁⟩ := t₁
  obtain ⟨offering₂, bids₂, audits₂, log₂⟩ := t₂
  obtain rfl : offering₁ = offering₂ := h₁.offering.trans h₂.offering.symm
  obtain rfl : bids₁ = bids₂ := h₁.bids.settled.trans h₂.bids.settled.symm
  obtain rfl : audits₁ = audits₂ := h₁.audits.trans h₂.audits.symm
  obtain rfl : log₁ = log₂ := h₁.log.trans h₂.log.symm
  rfl

/-- Either no attempt has committed and no row has changed; or one attempt has, the tables are those
of its settlement, and no other attempt changes anything. -/
theorem persist_once {s₀ s : State} {ls : List Label} (hinit : (system off).init s₀)
    (hrun : (system off).Run s₀ ls s) :
  commits ls = [] ∧ s.tables = s₀.tables
    ∨ ∃ p, commits ls = [p] ∧ Settled off p s₀.tables s.tables
      ∧ ∀ ls' s', (system off).Run s ls' s' → commits ls' = [] ∧ s'.tables = s.tables
  := by
  have honce := once hinit hrun
  generalize hcommits : commits ls = ps at honce
  cases honce with
  | unsettled htables =>
    left
    exact ⟨rfl, htables⟩
  | @settled _ p hsettled =>
    right
    refine ⟨p, rfl, hsettled, fun ls' s' hrun' => ?_⟩
    have hnext := once hinit (hrun.trans hrun')
    rw [commits_append, hcommits] at hnext
    generalize hmore : commits ls' = ps' at hnext
    cases hnext with
    | settled hsettled' => exact ⟨rfl, hsettled'.unique hsettled⟩

theorem enter_attempts :
  (s.enter n phase).attempts n = phase
  := Function.update_self ..

/-- The loop over the winners, when each of them flips its bid. -/
theorem flipping_run {remaining : List ClearingWinner} {view : Tables}
    (hphase : s.attempts n = .flipping p remaining view)
    (h : remaining.foldlM casWon view.bids = some marked) :
  ∃ ls s', (system off).Run s ls s' ∧ commits ls = []
    ∧ s'.attempts n = .flipping p [] { view with bids := marked }
  := by
  induction remaining generalizing s view with
  | nil =>
    rw [List.foldlM_nil] at h
    obtain rfl := Option.some.inj h
    exact ⟨[], s, .nil s, rfl, hphase⟩
  | cons w remaining ih =>
    rw [List.foldlM_cons, Option.bind_eq_bind, Option.bind_eq_some_iff] at h
    obtain ⟨bids₁, hw, hrest⟩ := h
    have hstep : Step off s .other _ := Step.casWon hphase hw
    obtain ⟨ls, s', hrun, hcommits, hlast⟩ :=
      ih (s := s.enter n (.flipping p remaining { view with bids := bids₁ }))
        enter_attempts hrest
    exact ⟨.other :: ls, s', (Transition.System.Run.single hstep).trans hrun, hcommits, hlast⟩

/-- An attempt that meets no fault commits. -/
theorem commit_run (hinit : (system off).init s) (haccepted : p.Accepted off s.tables.bids)
    (hmark : p.result.winners.foldlM casWon s.tables.bids = some marked)
    (hcount : p.result.winners.length + marked.countP (fun row => row.Escrowed off.id)
      = p.escrowedCount) :
  ∃ ls s', (system off).Run s ls s' ∧ commits ls = [p]
  := by
  obtain ⟨hstatus, _, haudits, hfree, hidle⟩ := hinit
  have hcas : s.tables.offering.casSettled = some ⟨.settled, false⟩ := if_pos hstatus
  have hcalled := Transition.System.Run.single (S := system off) (Step.call (hidle 0) haccepted)
  obtain ⟨s₀, hbegun, hphase₀⟩ : ∃ s₀, (system off).Run s [.other, .other] s₀ ∧ s₀.attempts 0
      = .flipping p p.result.winners { s.tables with offering := ⟨.settled, false⟩ } :=
    ⟨_, hcalled.snoc (Step.casSettled enter_attempts hfree hcas), enter_attempts⟩
  obtain ⟨ls, s₁, hflipping, hcommits, hphase⟩ := @flipping_run off p _ s₀ 0 _ _ hphase₀ hmark
  have hinsert : insertSnapshot s.tables.audits (snapshot off p)
      = some (s.tables.audits ++ [snapshot off p]) := by
    rw [insertSnapshot, if_neg]
    rintro ⟨a, ha, hid⟩
    exact haudits a ha hid
  have hflipped := (hbegun.trans hflipping).snoc (Step.flipRemaining hphase hcount)
  have hstored := hflipped.snoc (Step.insertSnapshot enter_attempts hinsert)
  have hlogged := hstored.snoc (Step.log enter_attempts)
  refine ⟨_, _, hlogged.snoc (Step.commit enter_attempts), ?_⟩
  simp only [commits_append, hcommits]
  rfl

/-! ### The settlement of a sample book -/

def sampleOffering : Offering := ⟨0, 5, ⟨1, 10⟩, 100, 10, 3, 2⟩

/-- The bid of a row of a book. -/
def sampleBid (bid : ClearingBidInput) : BidRow :=
  ⟨0, ⟨bid.id, bid.collectorSub, .account 30, bid.priceStroops, bid.count, bid.createdAt, .escrowed,
    some bid.chainBidId.toNat, none, none⟩⟩

/-- The tied book, with a bid on another offering. -/
def sampleState : State where
  tables := ⟨⟨.subscribed, false⟩,
    ⟨1, (sampleBid ⟨[4], 4, [4], 5, 1, [10], 5⟩).bid⟩ :: tieBook.map sampleBid, [], []⟩
  lock := none
  attempts _ := .idle

theorem sampleState_init :
  (system sampleOffering).init sampleState
  := ⟨rfl, by decide, by simp [sampleState], rfl, fun _ => rfl⟩

/-- A run that persists the clearing of the tied book does so once. -/
theorem persist_once_sample :
  ∃ ls s, (system sampleOffering).Run sampleState ls s
    ∧ commits ls = [⟨tieResult, 3, ⟨none, none, true⟩⟩]
    ∧ (commits ls = [] ∧ s.tables = sampleState.tables
      ∨ ∃ p, commits ls = [p] ∧ Settled sampleOffering p sampleState.tables s.tables
        ∧ ∀ ls' s', (system sampleOffering).Run s ls' s' → commits ls' = [] ∧ s'.tables = s.tables)
  := by
  obtain ⟨ls, s, hrun, hcommits⟩ := commit_run (p := ⟨tieResult, 3, ⟨none, none, true⟩⟩)
    sampleState_init ⟨by rfl, assertClearingInvariants_tieResult⟩ rfl (by rfl)
  exact ⟨ls, s, hrun, hcommits, persist_once sampleState_init hrun⟩

end Runs

end Persist
