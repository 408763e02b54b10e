import Tove.Fractions.RunBoundedSafety

/-!
# A bounded map is correct

Whatever the tasks do, a call ends once they have settled.  Then it returns the value of every
item in its place, or throws the first rejection that a worker has seen.
-/

namespace RunBounded

open Js Transition

variable {T R E : Type}

/-! ### The pool -/

section Pool

variable {items : List T} {limit : Number} {s t : State T R E} {a : Action R E}

theorem le_of_le_toLength {n : ℕ} {x : Number} (hx : 0 ≤ x) (h : n ≤ toLength x) :
  ((n : ℚ) : Number) ≤ x
  := by
  match x with
  | none => cases hx
  | some none => exact WithBot.coe_le_coe.mpr le_top
  | some (some q) =>
    have hq : 0 ≤ q := by
      apply WithTop.coe_le_coe.mp (WithBot.coe_le_coe.mp hx)
    have hfloor : (n : ℚ) ≤ q := by
      apply (Nat.le_floor_iff hq).mp
      exact h.trans (min_le_left _ _)
    exact WithBot.coe_le_coe.mpr (WithTop.coe_le_coe.mpr hfloor)

theorem one_le_toLength {x : Number} (h : 1 ≤ x) :
  1 ≤ toLength x
  := by
  match x with
  | none => cases h
  | some none => simp [toLength]
  | some (some q) =>
    have hq : 1 ≤ q := WithTop.coe_le_coe.mp (WithBot.coe_le_coe.mp h)
    apply le_min (Nat.le_floor (by simpa using hq))
    norm_num

/-- There are at most as many workers as the limit allows. -/
theorem le_limit_of_le_pool (items : List T) {n : ℕ} (hlimit : 1 ≤ limit)
    (h : n ≤ pool items limit) :
  ((n : ℚ) : Number) ≤ limit
  := by
  have hpool : ((n : ℚ) : Number) ≤ min limit ((items.length : ℚ) : Number) := by
    apply le_of_le_toLength _ h
    apply le_min (zero_le_one.trans hlimit)
    exact WithBot.coe_le_coe.mpr (WithTop.coe_le_coe.mpr (Nat.cast_nonneg _))
  exact hpool.trans (min_le_left _ _)

/-- There is a worker when there is an item. -/
theorem pool_pos (hlimit : 1 ≤ limit) (h : items ≠ []) :
  0 < pool items limit
  := by
  apply one_le_toLength
  apply le_min hlimit
  have hlength : (1 : ℚ) ≤ items.length := by
    exact_mod_cast List.length_pos_iff.mpr h
  exact WithBot.coe_le_coe.mpr (WithTop.coe_le_coe.mpr hlength)

/-- What is under way, some worker waits on. -/
theorem card_inFlight_le (h : Consistent items s.awaited s) :
  (s.inFlight items).card ≤ s.workers.length
  := by
  have hsub : s.inFlight items ⊆ s.awaited.toFinset := by
    intro i hi
    obtain ⟨-, hpending⟩ := Finset.mem_filter.mp hi
    have hi : i < s.cursor := by
      apply h.lt_cursor
      rintro heq
      rw [heq] at hpending
      cases hpending
    rcases h.ends i hi with hmem | ⟨result, hsettled, -⟩
    · exact List.mem_toFinset.mpr hmem
    · rw [hsettled] at hpending
      cases hpending
  calc (s.inFlight items).card
    _ ≤ s.awaited.toFinset.card := Finset.card_le_card hsub
    _ ≤ s.awaited.length := List.toFinset_card_le _
    _ ≤ s.workers.length := List.length_filterMap_le _ _

end Pool

/-! ### A call ends -/

section Progress

variable {items : List T} {limit : Number} {s t : State T R E} {a : Action R E}

/-- Until a call has ended, a task is under way, or the call goes on. -/
theorem exists_step (h : Invariant items limit s) (hopen : s.outcome = none) :
  (∃ i, s.tasks i = .pending) ∨ ∃ a t, Step items limit s a t
  := by
  rcases h.workers.lt_or_eq with hroom | hpool
  · exact .inr ⟨_, _, .spawn .promised hopen hroom⟩
  by_cases hfinished : ∀ w ∈ s.workers, w = .finished
  · exact .inr ⟨_, _, .finish hopen hpool hfinished⟩
  · obtain ⟨w, hmem, hw⟩ : ∃ w ∈ s.workers, w ≠ .finished := by
      simpa using hfinished
    obtain ⟨i, rfl⟩ : ∃ i, w = .awaiting i := by
      cases w with
      | awaiting i => exact ⟨i, rfl⟩
      | finished => exact absurd rfl hw
    obtain ⟨before, after, hworker⟩ := List.append_of_mem hmem
    have hi : i < s.cursor := by
      apply h.consistent.started
      exact List.mem_filterMap.mpr ⟨_, hmem, rfl⟩
    cases htask : s.tasks i with
    | unstarted =>
      have hle := (h.consistent.unstarted i).mp htask
      omega
    | pending => exact .inl ⟨i, htask⟩
    | settled result => exact .inr ⟨_, _, .resume .promised hpool hworker htask⟩

/-- What is left to do for the items and the tasks. -/
def weight (items : List T) (s : State T R E) : ℕ :=
  2 * (items.length - s.cursor) + (s.inFlight items).card

/-- What is left to do in a call. -/
def variant (items : List T) (limit : Number) (s : State T R E) : ℕ :=
  weight items s + s.awaited.length + (pool items limit - s.workers.length)
    + if s.outcome.isNone then 1 else 0

theorem weight_observe (s : State T R E) (i : ℕ) (result : Except E R) :
  weight items (s.observe i result) = weight items s
  := by
  obtain ⟨hcursor, -, htasks, -⟩ := observe_frame s i result
  rw [weight, weight, State.inFlight, State.inFlight, hcursor, htasks]

theorem weight_pull (items : List T) (s : State T R E) (called : Called E) :
  weight items (s.pull items called).1 + (s.pull items called).2.awaits.toList.length
    ≤ weight items s
  := by
  have hinsert : ∀ item (task : Task R E),
      ((s.take item task).inFlight items).card ≤ (s.inFlight items).card + 1 := by
    intro item task
    apply (Finset.card_le_card _).trans (Finset.card_insert_le s.cursor _)
    intro i hi
    obtain ⟨hlt, hpending⟩ := Finset.mem_filter.mp hi
    rcases eq_or_ne i s.cursor with rfl | hne
    · exact Finset.mem_insert_self ..
    · apply Finset.mem_insert_of_mem
      rw [show (s.take item task).tasks i = s.tasks i from Function.update_of_ne hne _ _] at hpending
      exact Finset.mem_filter.mpr ⟨hlt, hpending⟩
  rcases pull_cases items s called with ⟨heq, -⟩ | ⟨item, hitem, -, heq | ⟨err, heq⟩⟩
  · rw [heq]
    rfl
  · have hlt := (List.getElem?_eq_some_iff.mp hitem).1
    have hle := hinsert item .pending
    rw [heq]
    change 2 * (items.length - (s.cursor + 1)) + ((s.take item .pending).inFlight items).card + 1
      ≤ 2 * (items.length - s.cursor) + _
    omega
  · have hlt := (List.getElem?_eq_some_iff.mp hitem).1
    have hle := hinsert item (.settled (.error err))
    rw [heq, weight_observe]
    change 2 * (items.length - (s.cursor + 1)) + _ + 0 ≤ 2 * (items.length - s.cursor) + _
    omega

theorem inFlight_settle {i : ℕ} (result : Except E R) (h : Consistent items s.awaited s)
    (hpending : s.tasks i = .pending) :
  (State.inFlight items { s with tasks := Function.update s.tasks i (.settled result) }).card
    < (s.inFlight items).card
  := by
  have hi : i < items.length := (h.lt_cursor (by simp [hpending])).trans_le h.cursor
  apply Finset.card_lt_card
  rw [Finset.ssubset_iff_of_subset]
  · refine ⟨i, ?_, ?_⟩
    · exact Finset.mem_filter.mpr ⟨Finset.mem_range.mpr hi, by rw [hpending]; rfl⟩
    · intro hmem
      have hsettled := (Finset.mem_filter.mp hmem).2
      simp [Task.isPending] at hsettled
  · intro j hj
    obtain ⟨hlt, hj⟩ := Finset.mem_filter.mp hj
    apply Finset.mem_filter.mpr ⟨hlt, _⟩
    change (Function.update s.tasks i _ j).isPending = true at hj
    rcases eq_or_ne j i with rfl | hne
    · rw [hpending]
      rfl
    · rw [Function.update_of_ne hne] at hj
      exact hj

/-- A worker that goes on leaves no more to do than the others and it had. -/
theorem variant_pull (limit : Number) {workers : List Worker} (before after : List Worker)
    (called : Called E) (hworkers : workers = before ++ (s.pull items called).2 :: after)
    (hopen : (s.pull items called).1.outcome = none) :
  variant items limit { (s.pull items called).1 with workers }
    ≤ weight items s + ((before ++ after).filterMap Worker.awaits).length
      + (pool items limit - workers.length) + 1
  := by
  have hweight := weight_pull items s called
  have hawaited := (awaited_append before after (s.pull items called).2).length_eq
  rw [List.length_append, ← hworkers] at hawaited
  change weight items (s.pull items called).1 + (workers.filterMap Worker.awaits).length
    + (pool items limit - workers.length) + (if (s.pull items called).1.outcome.isNone then 1 else 0)
    ≤ _
  rw [hopen, hawaited, Option.isNone_none, if_pos rfl]
  omega

theorem variant_start (hlimit : 1 ≤ limit) :
  variant items limit (start items limit : State T R E)
    = 2 * items.length + pool items limit + 1
  := by
  have hinFlight : (start items limit : State T R E).inFlight items = ∅ :=
    Finset.filter_false_of_mem fun _ _ => Bool.false_ne_true
  rw [variant, weight, hinFlight]
  simp [start, State.awaited, not_lt.mpr hlimit]

/-- Every step leaves less to do. -/
theorem variant_lt (h : Invariant items limit s) (hstep : Step items limit s a t) :
  variant items limit t < variant items limit s
  := by
  cases hstep with
  | spawn called hopen hroom =>
    obtain ⟨-, houtcome, -, -⟩ := pull_frame h.consistent called
    have hpull := variant_pull limit s.workers [] called rfl (houtcome.trans hopen)
    rw [List.append_nil, List.length_append, List.length_singleton] at hpull
    have hvariant : variant items limit s = weight items s + s.awaited.length
        + (pool items limit - s.workers.length) + 1 := by
      rw [variant, hopen, Option.isNone_none, if_pos rfl]
    rw [hvariant, State.awaited]
    omega
  | @settle i result hpending =>
    have hlt := inFlight_settle result h.consistent hpending
    simp only [variant, weight, State.awaited]
    omega
  | @resume i result before after called hpool hworker hsettled =>
    have hopen := h.open_of_awaiting (hworker ▸ List.mem_append_cons_self)
    have hobserve := h.observe hworker hsettled
    obtain ⟨-, -, -, ho⟩ := observe_frame s i result
    obtain ⟨-, houtcome, -, -⟩ := pull_frame hobserve called
    have hpull := variant_pull limit before after called rfl (houtcome.trans (ho.trans hopen))
    have hawaited : s.awaited.length = ((before ++ after).filterMap Worker.awaits).length + 1 := by
      rw [State.awaited, hworker, (awaited_append before after (.awaiting i)).length_eq]
      rw [List.length_append, add_comm]
      rfl
    have hlength : (before ++ ((s.observe i result).pull items called).2 :: after).length
        = s.workers.length := by
      rw [hworker, List.length_append, List.length_append, List.length_cons, List.length_cons]
    have hvariant : variant items limit s = weight items s + s.awaited.length
        + (pool items limit - s.workers.length) + 1 := by
      rw [variant, hopen, Option.isNone_none, if_pos rfl]
    rw [weight_observe, hlength] at hpull
    omega
  | finish hopen hpool hworkers =>
    simp only [variant, weight, State.awaited, State.inFlight, hopen, Option.isNone_none,
      Option.isNone_some, if_true, Bool.false_eq_true, if_false]
    omega

end Progress

/-! ### What a call guarantees -/

section Correct

variable {items : List T} {limit : Number} {s : State T R E} {actions : List (Action R E)}

/-- There are never more tasks under way than the limit allows. -/
theorem card_le_limit (hlimit : 1 ≤ limit) (h : Invariant items limit s) (flying : Finset ℕ)
    (hflying : ∀ i ∈ flying, s.tasks i = .pending) :
  ((flying.card : ℚ) : Number) ≤ limit
  := by
  have hsub : flying ⊆ s.inFlight items := by
    intro i hi
    have hpending := hflying i hi
    apply Finset.mem_filter.mpr
    refine ⟨Finset.mem_range.mpr ?_, by rw [hpending]; rfl⟩
    exact (h.consistent.lt_cursor (by simp [hpending])).trans_le h.consistent.cursor
  apply le_limit_of_le_pool items hlimit
  calc flying.card
    _ ≤ (s.inFlight items).card := Finset.card_le_card hsub
    _ ≤ s.workers.length := card_inFlight_le h.consistent
    _ ≤ pool items limit := h.workers

/-- After a worker has seen a rejection, `fn` is not called. -/
theorem call_eq_none_of_rejection {before after : List (Event T R E)} {i : ℕ} {err : E}
    (h : Invariant items limit s) (hlog : s.log = before ++ .observed i (.error err) :: after) :
  ∀ event ∈ after, event.call = none
  := by
  have horder := h.consistent.order
  rw [hlog, List.pairwise_append, List.pairwise_cons] at horder
  intro event hevent
  exact horder.2.1.1 event hevent rfl

/-- When a call has ended, every task that was started has been seen to settle, and every item
has been taken unless a task has failed. -/
theorem ended (hlimit : 1 ≤ limit) (h : Invariant items limit s) {o : Outcome R E}
    (ho : s.outcome = some o) :
  (∀ i < s.cursor, ∃ result, s.tasks i = .settled result ∧ s.Holds i result)
    ∧ (s.failed = true ∨ s.cursor = items.length)
  := by
  obtain ⟨hpool, hworkers, -⟩ := h.outcome o ho
  constructor
  · intro i hi
    apply (h.consistent.ends i hi).resolve_left
    intro hmem
    obtain ⟨w, hw, hawaits⟩ := List.mem_filterMap.mp hmem
    rw [hworkers w hw] at hawaits
    cases hawaits
  · rcases eq_or_ne items [] with rfl | hne
    · right
      exact Nat.le_zero.mp h.consistent.cursor
    · have hpos : s.workers ≠ [] := by
        rw [← List.length_pos_iff, hpool]
        exact pool_pos hlimit hne
      obtain ⟨w, hw⟩ := List.exists_mem_of_ne_nil _ hpos
      exact h.finished (hworkers w hw ▸ hw)

/-- When no task has been rejected, every item has been taken once, in order, and the call returns
the values of the tasks, each in its place. -/
theorem returns_of_no_rejection (hlimit : 1 ≤ limit) (h : Invariant items limit s)
    {o : Outcome R E} (ho : s.outcome = some o)
    (hok : ∀ i err, s.tasks i ≠ .settled (.error err)) :
  s.calls = items.zipIdx ∧ o = .returns s.results ∧ s.results.length = items.length
    ∧ ∀ i < items.length, ∃ value, s.tasks i = .settled (.ok value)
      ∧ s.results[i]? = some (some value)
  := by
  obtain ⟨hends, hend⟩ := ended hlimit h ho
  have hfailed : s.failed = false := by
    rw [h.consistent.failed, Option.isSome_eq_false_iff, Option.isNone_iff_eq_none]
    apply List.findSome?_eq_none_iff.mpr
    intro event hevent
    match event with
    | .called _ _ => rfl
    | .observed i (.ok value) => rfl
    | .observed i (.error err) => exact absurd (h.consistent.observed i _ hevent) (hok i err)
  have hcursor : s.cursor = items.length := by
    rw [hfailed] at hend
    simpa using hend
  refine ⟨?_, ?_, h.consistent.results, ?_⟩
  · rw [h.consistent.calls, hcursor]
    exact List.take_of_length_le (List.length_zipIdx).le
  · rw [(h.outcome o ho).2.2, State.result, hfailed]
    rfl
  · intro i hi
    obtain ⟨result, hsettled, hholds⟩ := hends i (hcursor ▸ hi)
    cases result with
    | ok value => exact ⟨value, hsettled, hholds⟩
    | error err => exact absurd hsettled (hok i err)

/-- When a task has been rejected, the call throws the first rejection that a worker has seen. -/
theorem throws_of_rejection (hlimit : 1 ≤ limit) (h : Invariant items limit s) {o : Outcome R E}
    (ho : s.outcome = some o) {i : ℕ} {err : E} (herr : s.tasks i = .settled (.error err)) :
  ∃ first, s.firstRejection = some first ∧ o = .throws (some first)
  := by
  obtain ⟨hends, -⟩ := ended hlimit h ho
  have hi : i < s.cursor := h.consistent.lt_cursor (by simp [herr])
  obtain ⟨result, hsettled, hholds⟩ := hends i hi
  rw [herr] at hsettled
  obtain rfl := Task.settled.inj hsettled
  have hfailed : s.failed = true := hholds
  have hfirst := h.consistent.failed
  rw [hfailed] at hfirst
  obtain ⟨first, hfirst⟩ := Option.isSome_iff_exists.mp hfirst.symm
  refine ⟨first, hfirst, ?_⟩
  rw [(h.outcome o ho).2.2, State.result, hfailed, if_pos rfl, h.consistent.firstError, hfirst]

/-- Whatever the tasks do and in whatever order the workers go on: there are never more tasks
under way than the limit allows; after a worker has seen a rejection no item is taken; the call
takes a bounded number of steps, and goes on as long as no task is under way; and when it ends,
no task is under way, and it returns the values of all the tasks in their places, or throws the
first rejection that a worker has seen. -/
theorem runBounded_maps (hlimit : 1 ≤ limit)
    (hrun : (system T R E items limit).Run (start items limit) actions s) :
  (∀ flying : Finset ℕ, (∀ i ∈ flying, s.tasks i = .pending) →
      ((flying.card : ℚ) : Number) ≤ limit)
    ∧ (∀ before i err after, s.log = before ++ .observed i (.error err) :: after →
      ∀ event ∈ after, event.call = none)
    ∧ actions.length ≤ 2 * items.length + pool items limit + 1
    ∧ (s.outcome = none → (∃ i, s.tasks i = .pending) ∨ ∃ a t, Step items limit s a t)
    ∧ ∀ o, s.outcome = some o →
      (∀ i, s.tasks i ≠ .pending)
      ∧ ((∀ i err, s.tasks i ≠ .settled (.error err)) →
        s.calls = items.zipIdx ∧ o = .returns s.results ∧ s.results.length = items.length
          ∧ ∀ i < items.length, ∃ value, s.tasks i = .settled (.ok value)
            ∧ s.results[i]? = some (some value))
      ∧ (∀ i err, s.tasks i = .settled (.error err) →
        ∃ first, s.firstRejection = some first ∧ o = .throws (some first))
  := by
  have h : Invariant items limit s := reachable_invariant hlimit ⟨_, _, rfl, hrun⟩
  have hlength : actions.length + variant items limit s
      ≤ variant items limit (start items limit : State T R E) := by
    apply hrun.length_add_le _ (invariant_start hlimit)
    intro s₀ a s₁ hs₀ hstep
    exact ⟨step_invariant hs₀ hstep, variant_lt hs₀ hstep⟩
  refine ⟨card_le_limit hlimit h, ?_, ?_, exists_step h, ?_⟩
  · intro before i err after hlog
    apply call_eq_none_of_rejection h hlog
  · rw [variant_start hlimit] at hlength
    omega
  · intro o ho
    refine ⟨?_, returns_of_no_rejection hlimit h ho, ?_⟩
    · intro i hpending
      have hi : i < s.cursor := h.consistent.lt_cursor (by simp [hpending])
      obtain ⟨result, hsettled, -⟩ := (ended hlimit h ho).1 i hi
      rw [hpending] at hsettled
      cases hsettled
    · intro i err herr
      apply throws_of_rejection hlimit h ho herr

/-- One worker takes the first item, takes the second one when it has a value for the first, and
ends when the second task is rejected. -/
theorem runBounded_maps_two_items :
  ∃ s : State ℕ ℕ String,
    (system ℕ ℕ String [10, 20] 1).Run (start [10, 20] 1)
      [.spawn .promised, .settle 0 (.ok 11), .resume 0 .promised, .settle 1 (.error "no"),
        .resume 1 .promised, .finish] s
    ∧ s.calls = [(10, 0), (20, 1)] ∧ s.outcome = some (.throws (some "no"))
    ∧ ∀ i, s.tasks i ≠ .pending
  := by
  have hlimit : (1 : Number) ≤ 1 := le_rfl
  have hpool : pool [10, 20] 1 = 1 := by decide +kernel
  have hopen : (start [10, 20] 1 : State ℕ ℕ String).outcome = none := by
    rw [start, if_neg hlimit.not_gt]
  have hrun := (System.Run.nil (S := system ℕ ℕ String [10, 20] 1) (start [10, 20] 1)).snoc
    (.spawn .promised hopen (by rw [hpool]; exact Nat.one_pos))
  have hrun := hrun.snoc (.settle (i := 0) (.ok 11) rfl)
  have hrun := hrun.snoc (.resume (i := 0) .promised hpool.symm (List.nil_append _).symm rfl)
  have hrun := hrun.snoc (.settle (i := 1) (.error "no") rfl)
  have hrun := hrun.snoc (.resume (i := 1) .promised hpool.symm (List.nil_append _).symm rfl)
  have hrun := hrun.snoc (.finish hopen hpool.symm (by simp [State.pull, State.observe, start]))
  have hends := (runBounded_maps hlimit hrun).2.2.2.2
  exact ⟨_, hrun, rfl, rfl, (hends _ rfl).1⟩

end Correct

end RunBounded
