import Mathlib.Data.Finset.Card
import Mathlib.Order.Interval.Finset.Nat
import Tove.Fractions.RunBounded

/-!
# What a bounded map guarantees

As long as a task is under way, a worker waits on it, and no two workers wait on the same one.
So there are at most as many tasks under way as there are workers.  What no worker waits on has
been seen to settle: its value is in its place, or the flag is set, and then no worker takes
another item.
-/

namespace RunBounded

open Js Transition

variable {T R E : Type}

/-! ### What is observed -/

/-- The call of `fn` that an event is. -/
def Event.call : Event T R E → Option (T × ℕ)
  | .called i item => some (item, i)
  | .observed _ _ => none

/-- The rejection that an event shows. -/
def Event.rejection : Event T R E → Option E
  | .observed _ (.error err) => some err
  | _ => none

/-- The items on which `fn` has been called, with their indices. -/
def State.calls (s : State T R E) : List (T × ℕ) := s.log.filterMap Event.call

/-- The first rejection that a worker has seen. -/
def State.firstRejection (s : State T R E) : Option E := s.log.findSome? Event.rejection

/-- The task that a worker waits on. -/
def Worker.awaits : Worker → Option ℕ
  | .awaiting i => some i
  | .finished => none

/-- The tasks that the workers wait on. -/
def State.awaited (s : State T R E) : List ℕ := s.workers.filterMap Worker.awaits

/-- Whether a task is under way. -/
def Task.isPending : Task R E → Bool
  | .pending => true
  | _ => false

/-- The tasks that are under way. -/
def State.inFlight (items : List T) (s : State T R E) : Finset ℕ :=
  {i ∈ Finset.range items.length | (s.tasks i).isPending}

/-- What has been seen of a task has had its effect. -/
def State.Holds (s : State T R E) (i : ℕ) : Except E R → Prop
  | .ok value => s.results[i]? = some (some value)
  | .error _ => s.failed = true

/-! ### The invariant -/

/-- The variables of a call agree with the tasks and with what the workers have done, when the
workers wait on the tasks `awaited`. -/
structure Consistent (items : List T) (awaited : List ℕ) (s : State T R E) : Prop where
  results : s.results.length = items.length
  calls : s.calls = items.zipIdx.take s.cursor
  cursor : s.cursor ≤ items.length
  unstarted : ∀ i, s.tasks i = .unstarted ↔ s.cursor ≤ i
  nodup : awaited.Nodup
  started : ∀ i ∈ awaited, i < s.cursor
  ends : ∀ i < s.cursor, i ∈ awaited ∨ ∃ result, s.tasks i = .settled result ∧ s.Holds i result
  observed : ∀ i result, .observed i result ∈ s.log → s.tasks i = .settled result
  firstError : s.firstError = s.firstRejection
  failed : s.failed = s.firstRejection.isSome
  order : s.log.Pairwise fun a b => a.rejection.isSome → b.call = none

/-- The cursor is past every task that was started. -/
theorem Consistent.lt_cursor {items : List T} {awaited : List ℕ} {s : State T R E} {i : ℕ}
    (h : Consistent items awaited s) (hi : s.tasks i ≠ .unstarted) :
  i < s.cursor
  := by
  by_contra hle
  exact hi ((h.unstarted i).mpr (not_lt.mp hle))

/-- The invariant of a call. -/
structure Invariant (items : List T) (limit : Number) (s : State T R E) : Prop where
  consistent : Consistent items s.awaited s
  workers : s.workers.length ≤ pool items limit
  finished : .finished ∈ s.workers → s.failed = true ∨ s.cursor = items.length
  outcome : ∀ o, s.outcome = some o →
    s.workers.length = pool items limit ∧ (∀ w ∈ s.workers, w = .finished) ∧ o = s.result

section Observe

variable {items : List T} {awaited : List ℕ} {s : State T R E} {i : ℕ}

theorem observe_error_of_failed {err : E} (h : s.failed = true) :
  s.observe i (.error err) = { s with log := s.log ++ [.observed i (.error err)] }
  := by
  simp only [State.observe, h, Bool.not_true, Bool.false_eq_true, if_false]

theorem observe_error_of_not_failed {err : E} (h : s.failed = false) :
  s.observe i (.error err)
    = { s with
        log := s.log ++ [.observed i (.error err)]
        failed := true
        firstError := some err }
  := by
  simp only [State.observe, h, Bool.not_false, if_true]

/-- What a worker sees changes neither the cursor, the workers, the tasks nor the outcome. -/
theorem observe_frame (s : State T R E) (i : ℕ) (result : Except E R) :
  (s.observe i result).cursor = s.cursor ∧ (s.observe i result).workers = s.workers
    ∧ (s.observe i result).tasks = s.tasks ∧ (s.observe i result).outcome = s.outcome
  := by
  cases result with
  | ok value => exact ⟨rfl, rfl, rfl, rfl⟩
  | error err =>
    cases h : s.failed with
    | true =>
      rw [observe_error_of_failed h]
      exact ⟨rfl, rfl, rfl, rfl⟩
    | false =>
      rw [observe_error_of_not_failed h]
      exact ⟨rfl, rfl, rfl, rfl⟩

theorem log_observe (s : State T R E) (i : ℕ) (result : Except E R) :
  (s.observe i result).log = s.log ++ [.observed i result]
  := by
  cases result with
  | ok value => rfl
  | error err =>
    cases h : s.failed with
    | true => rw [observe_error_of_failed h]
    | false => rw [observe_error_of_not_failed h]

theorem calls_observe (s : State T R E) (i : ℕ) (result : Except E R) :
  (s.observe i result).calls = s.calls
  := by
  rw [State.calls, log_observe, List.filterMap_append]
  exact List.append_nil _

theorem length_results_observe (s : State T R E) (i : ℕ) (result : Except E R) :
  (s.observe i result).results.length = s.results.length
  := by
  cases result with
  | ok value => exact List.length_set
  | error err =>
    cases h : s.failed with
    | true => rw [observe_error_of_failed h]
    | false => rw [observe_error_of_not_failed h]

theorem firstRejection_observe (s : State T R E) (i : ℕ) (result : Except E R) :
  (s.observe i result).firstRejection
    = s.firstRejection.or (Event.observed i result : Event T R E).rejection
  := by
  rw [State.firstRejection, log_observe, List.findSome?_append, List.findSome?_singleton]
  rfl

/-- The flag and the error are those of the first rejection that has been seen. -/
theorem failure_observe {result : Except E R} (herr : s.firstError = s.firstRejection)
    (hfailed : s.failed = s.firstRejection.isSome) :
  (s.observe i result).firstError = (s.observe i result).firstRejection
    ∧ (s.observe i result).failed = (s.observe i result).firstRejection.isSome
  := by
  rw [firstRejection_observe]
  cases result with
  | ok value =>
    rw [show (Event.observed i (.ok value) : Event T R E).rejection = none from rfl, Option.or_none]
    exact ⟨herr, hfailed⟩
  | error err =>
    cases hs : s.failed with
    | true =>
      rw [observe_error_of_failed hs, Option.or_of_isSome (hfailed ▸ hs)]
      exact ⟨herr, hfailed⟩
    | false =>
      have hnone : s.firstRejection = none := by
        rw [← Option.isNone_iff_eq_none, ← Option.not_isSome, ← hfailed, hs]
        rfl
      rw [observe_error_of_not_failed hs, hnone]
      exact ⟨rfl, rfl⟩

theorem failed_observe {result : Except E R} (h : s.failed = true) :
  (s.observe i result).failed = true
  := by
  cases result with
  | ok value => exact h
  | error err =>
    rw [observe_error_of_failed h]
    exact h

/-- What has been seen of the other tasks stays. -/
theorem holds_observe {j : ℕ} {result result' : Except E R} (hj : j ≠ i) (h : s.Holds j result') :
  (s.observe i result).Holds j result'
  := by
  cases result with
  | ok value =>
    cases result' with
    | ok value' =>
      change (s.results.set i (some value))[j]? = some (some value')
      rw [List.getElem?_set_ne hj.symm]
      apply h
    | error err => apply h
  | error err =>
    cases hs : s.failed with
    | true =>
      rw [observe_error_of_failed hs]
      cases result' <;> apply h
    | false =>
      rw [observe_error_of_not_failed hs]
      cases result' with
      | ok value => apply h
      | error err' => rfl

/-- A worker that sees how its task ended no longer waits on it. -/
theorem Consistent.observe {result : Except E R} (h : Consistent items (i :: awaited) s)
    (hsettled : s.tasks i = .settled result) :
  Consistent items awaited (s.observe i result)
  := by
  obtain ⟨hcursor, -, htasks, -⟩ := observe_frame s i result
  obtain ⟨hfresh, hnodup⟩ := List.nodup_cons.mp h.nodup
  have hi : i < s.cursor := h.started i List.mem_cons_self
  have hholds : (s.observe i result).Holds i result := by
    cases result with
    | ok value =>
      have hlength : i < s.results.length := by
        rw [h.results]
        exact hi.trans_le h.cursor
      exact List.getElem?_set_self hlength
    | error err =>
      cases hs : s.failed with
      | true =>
        rw [observe_error_of_failed hs]
        exact hs
      | false =>
        rw [observe_error_of_not_failed hs]
        rfl
  constructor
  case results =>
    rw [length_results_observe]
    apply h.results
  case calls =>
    rw [calls_observe, hcursor]
    apply h.calls
  case cursor =>
    rw [hcursor]
    apply h.cursor
  case unstarted =>
    rw [hcursor, htasks]
    apply h.unstarted
  case nodup => apply hnodup
  case started =>
    rw [hcursor]
    intro j hj
    exact h.started j (List.mem_cons_of_mem i hj)
  case ends =>
    rw [hcursor, htasks]
    intro j hj
    rcases eq_or_ne j i with rfl | hne
    · exact .inr ⟨result, hsettled, hholds⟩
    · rcases h.ends j hj with hmem | ⟨result', htask, hj'⟩
      · exact .inl (List.mem_of_ne_of_mem hne hmem)
      · exact .inr ⟨result', htask, holds_observe hne hj'⟩
  case observed =>
    rw [htasks, log_observe]
    intro j result' hmem
    rcases List.mem_append.mp hmem with hmem | hmem
    · exact h.observed j result' hmem
    · obtain ⟨rfl, rfl⟩ := Event.observed.inj (List.mem_singleton.mp hmem)
      exact hsettled
  case firstError => exact (failure_observe h.firstError h.failed).1
  case failed => exact (failure_observe h.firstError h.failed).2
  case order =>
    rw [log_observe, List.pairwise_append]
    refine ⟨h.order, List.pairwise_singleton .., ?_⟩
    intro a _ b hb _
    rw [List.mem_singleton.mp hb]
    rfl

end Observe

/-! ### A worker goes on -/

section Pull

variable {items : List T} {limit : Number} {awaited : List ℕ} {s t : State T R E}

/-- A worker takes the item at the cursor. -/
def State.take (s : State T R E) (item : T) (task : Task R E) : State T R E :=
  { s with
    cursor := s.cursor + 1
    log := s.log ++ [.called s.cursor item]
    tasks := Function.update s.tasks s.cursor task }

/-- What a worker does at the head of its loop: it ends, or it takes an item and waits, or it
takes an item, and the call of `fn` throws. -/
theorem pull_cases (items : List T) (s : State T R E) (called : Called E) :
  (s.pull items called = (s, .finished) ∧ (s.failed = true ∨ items.length ≤ s.cursor))
    ∨ ∃ item, items[s.cursor]? = some item ∧ s.failed = false
      ∧ (s.pull items called = (s.take item .pending, .awaiting s.cursor)
        ∨ ∃ err, s.pull items called
          = ((s.take item (.settled (.error err))).observe s.cursor (.error err), .finished))
  := by
  cases hitem : items[s.cursor]? with
  | none =>
    left
    exact ⟨by simp only [State.pull, hitem], .inr (List.getElem?_eq_none_iff.mp hitem)⟩
  | some item =>
    cases hfailed : s.failed with
    | true =>
      left
      exact ⟨by simp only [State.pull, hitem, hfailed], .inl rfl⟩
    | false =>
      right
      refine ⟨item, rfl, rfl, ?_⟩
      cases called with
      | promised =>
        left
        simp only [State.pull, hitem, hfailed, State.take]
      | threw err =>
        right
        exact ⟨err, by simp only [State.pull, hitem, hfailed, State.take]⟩

/-- A worker that takes an item waits on its task. -/
theorem Consistent.take {item : T} (h : Consistent items awaited s)
    (hitem : items[s.cursor]? = some item) (hfailed : s.failed = false) (task : Task R E)
    (htask : task ≠ .unstarted) :
  Consistent items (s.cursor :: awaited) (s.take item task)
  := by
  have hcursor : s.cursor < items.length := (List.getElem?_eq_some_iff.mp hitem).1
  have hother : ∀ i, i ≠ s.cursor → (s.take item task).tasks i = s.tasks i :=
    fun i hi => Function.update_of_ne hi _ _
  have hself : (s.take item task).tasks s.cursor = task := Function.update_self ..
  have hnone : ∀ event ∈ s.log, event.rejection = none := by
    apply List.findSome?_eq_none_iff.mp
    have hisSome := h.failed
    rw [hfailed] at hisSome
    exact Option.isSome_eq_false_iff.mp hisSome.symm |> Option.isNone_iff_eq_none.mp
  have hrejection : (s.take item task).firstRejection = s.firstRejection := by
    rw [State.firstRejection, State.take, List.findSome?_append, List.findSome?_singleton]
    exact Option.or_none
  constructor
  case results => apply h.results
  case calls =>
    have hlast : items.zipIdx[s.cursor]? = some (item, s.cursor) := by
      rw [List.getElem?_zipIdx, hitem, Option.map_some, zero_add]
    rw [State.calls, State.take, List.filterMap_append, List.take_add_one, hlast]
    exact congrArg (· ++ [(item, s.cursor)]) h.calls
  case cursor => exact hcursor
  case unstarted =>
    intro i
    change _ ↔ s.cursor + 1 ≤ i
    rcases eq_or_ne i s.cursor with rfl | hi
    · rw [hself]
      constructor
      · intro heq
        cases htask heq
      · intro hle
        omega
    · rw [hother i hi, h.unstarted i]
      omega
  case nodup =>
    apply List.nodup_cons.mpr ⟨?_, h.nodup⟩
    intro hmem
    exact absurd (h.started _ hmem) (lt_irrefl _)
  case started =>
    intro i hi
    change i < s.cursor + 1
    rcases List.mem_cons.mp hi with rfl | hi
    · omega
    · have hlt := h.started i hi
      omega
  case ends =>
    intro i (hi : i < s.cursor + 1)
    rcases eq_or_ne i s.cursor with rfl | hne
    · exact .inl List.mem_cons_self
    · rw [hother i hne]
      rcases h.ends i (by omega) with hmem | hsettled
      · exact .inl (List.mem_cons_of_mem _ hmem)
      · exact .inr hsettled
  case observed =>
    intro i result hmem
    rcases List.mem_append.mp hmem with hmem | hmem
    · have hsettled := h.observed i result hmem
      have hi : i ≠ s.cursor := by
        rintro rfl
        rw [(h.unstarted s.cursor).mpr le_rfl] at hsettled
        cases hsettled
      rw [hother i hi, hsettled]
    · cases List.mem_singleton.mp hmem
  case firstError =>
    rw [hrejection]
    apply h.firstError
  case failed =>
    rw [hrejection]
    apply h.failed
  case order =>
    rw [State.take, List.pairwise_append]
    refine ⟨h.order, List.pairwise_singleton .., ?_⟩
    intro a ha b _ hsome
    rw [hnone a ha] at hsome
    cases hsome

/-- A worker that goes on waits on a task that no other worker waits on, or ends. -/
theorem Consistent.pull (h : Consistent items awaited s) (called : Called E) :
  Consistent items ((s.pull items called).2.awaits.toList ++ awaited) (s.pull items called).1
  := by
  rcases pull_cases items s called with ⟨heq, -⟩ | ⟨item, hitem, hfailed, heq | ⟨err, heq⟩⟩
  · rw [heq]
    apply h
  · rw [heq]
    exact h.take hitem hfailed .pending (by simp)
  · have htake := h.take hitem hfailed (.settled (.error err)) (by simp)
    rw [heq]
    exact htake.observe (Function.update_self ..)

/-- A worker that goes on leaves the cursor within the items and the flag set, and does not touch
the workers and the outcome. When it ends, a task has failed or no items are left. -/
theorem pull_frame (h : Consistent items awaited s) (called : Called E) :
  (s.pull items called).1.workers = s.workers ∧ (s.pull items called).1.outcome = s.outcome
    ∧ (s.failed = true ∨ s.cursor = items.length →
      (s.pull items called).1.failed = true ∨ (s.pull items called).1.cursor = items.length)
    ∧ ((s.pull items called).2 = .finished →
      (s.pull items called).1.failed = true ∨ (s.pull items called).1.cursor = items.length)
  := by
  have hcursor := h.cursor
  rcases pull_cases items s called with ⟨heq, hend⟩ | ⟨item, hitem, hfailed, heq | ⟨err, heq⟩⟩
  · rw [heq]
    exact ⟨rfl, rfl, id, fun _ => hend.imp_right hcursor.antisymm⟩
  · have hlt := (List.getElem?_eq_some_iff.mp hitem).1
    rw [heq]
    refine ⟨rfl, rfl, ?_, nofun⟩
    rintro (hs | hs)
    · rw [hfailed] at hs
      cases hs
    · omega
  · obtain ⟨-, hworkers, -, houtcome⟩ :=
      observe_frame (s.take item (.settled (.error err))) s.cursor (.error err)
    have hset : ((s.take item (.settled (.error err))).observe s.cursor (.error err)).failed = true
        := by
      rw [observe_error_of_not_failed (s := s.take item (.settled (.error err))) hfailed]
    rw [heq]
    exact ⟨hworkers, houtcome, fun _ => .inl hset, fun _ => .inl hset⟩

/-- Which workers there are, and how the call has ended, is no matter for the variables. -/
theorem Consistent.with (h : Consistent items awaited s) (workers : List Worker)
    (outcome : Option (Outcome R E)) :
  Consistent items awaited { s with workers, outcome }
  where
  results := h.results
  calls := h.calls
  cursor := h.cursor
  unstarted := h.unstarted
  nodup := h.nodup
  started := h.started
  ends := h.ends
  observed := h.observed
  firstError := h.firstError
  failed := h.failed
  order := h.order

theorem Consistent.perm {awaited' : List ℕ} (h : Consistent items awaited s)
    (hperm : awaited.Perm awaited') :
  Consistent items awaited' s
  where
  results := h.results
  calls := h.calls
  cursor := h.cursor
  unstarted := h.unstarted
  nodup := hperm.nodup h.nodup
  started i hi := h.started i (hperm.mem_iff.mpr hi)
  ends i hi := (h.ends i hi).imp_left hperm.mem_iff.mp
  observed := h.observed
  firstError := h.firstError
  failed := h.failed
  order := h.order

/-- A task settles. -/
theorem Consistent.settle {i : ℕ} {result : Except E R} (h : Consistent items awaited s)
    (hpending : s.tasks i = .pending) :
  Consistent items awaited { s with tasks := Function.update s.tasks i (.settled result) }
  := by
  have hother : ∀ j r, s.tasks j = .settled r →
      Function.update s.tasks i (.settled result) j = .settled r := by
    intro j r hj
    rw [Function.update_of_ne _ _ _, hj]
    rintro rfl
    rw [hpending] at hj
    cases hj
  refine { h with unstarted := ?_, ends := ?_, observed := ?_ }
  · intro j
    rw [← h.unstarted j]
    change Function.update s.tasks i _ j = _ ↔ _
    rcases eq_or_ne j i with rfl | hj
    · rw [Function.update_self, hpending]
      simp
    · rw [Function.update_of_ne hj]
  · intro j hj
    apply (h.ends j hj).imp_right
    rintro ⟨r, hsettled, hholds⟩
    exact ⟨r, hother j r hsettled, hholds⟩
  · intro j r hmem
    exact hother j r (h.observed j r hmem)

end Pull

/-! ### Steps keep the invariant -/

section Steps

variable {items : List T} {limit : Number} {s t : State T R E} {a : Action R E}

theorem awaited_append (before after : List Worker) (w : Worker) :
  ((before ++ w :: after).filterMap Worker.awaits).Perm
    (w.awaits.toList ++ (before ++ after).filterMap Worker.awaits)
  := by
  have hperm : (before ++ w :: after).Perm ([w] ++ (before ++ after)) := List.perm_middle
  apply (hperm.filterMap Worker.awaits).trans
  rw [List.filterMap_append]
  cases w <;> rfl

theorem invariant_start (hlimit : 1 ≤ limit) :
  Invariant items limit (start items limit : State T R E)
  where
  consistent := {
    results := List.length_replicate
    calls := rfl
    cursor := Nat.zero_le _
    unstarted := fun i => ⟨fun _ => Nat.zero_le i, fun _ => rfl⟩
    nodup := List.nodup_nil
    started := nofun
    ends := nofun
    observed := nofun
    firstError := rfl
    failed := rfl
    order := List.Pairwise.nil }
  workers := Nat.zero_le _
  finished := nofun
  outcome o ho := by
    rw [start, if_neg (not_lt.mpr hlimit)] at ho
    cases ho

/-- A call has not ended while a worker waits. -/
theorem Invariant.open_of_awaiting {i : ℕ} (h : Invariant items limit s)
    (hmem : .awaiting i ∈ s.workers) :
  s.outcome = none
  := by
  rw [Option.eq_none_iff_forall_ne_some]
  intro o ho
  cases (h.outcome o ho).2.1 _ hmem

/-- The worker whose task has settled sees how it ended. -/
theorem Invariant.observe {i : ℕ} {result : Except E R} {before after : List Worker}
    (h : Invariant items limit s) (hworker : s.workers = before ++ .awaiting i :: after)
    (hsettled : s.tasks i = .settled result) :
  Consistent items ((before ++ after).filterMap Worker.awaits) (s.observe i result)
  := by
  have hawaited : Consistent items (i :: (before ++ after).filterMap Worker.awaits) s := by
    apply h.consistent.perm
    rw [State.awaited, hworker]
    exact awaited_append before after (.awaiting i)
  exact hawaited.observe hsettled

theorem step_invariant (h : Invariant items limit s) (hstep : Step items limit s a t) :
  Invariant items limit t
  := by
  cases hstep with
  | spawn called hopen hroom =>
    have hpull := h.consistent.pull called
    obtain ⟨-, houtcome, hstays, hends⟩ := pull_frame h.consistent called
    constructor
    case consistent =>
      apply (hpull.with _ _).perm
      apply ((awaited_append s.workers [] _).trans _).symm
      rw [List.append_nil]
      rfl
    case workers =>
      rw [List.length_append, List.length_singleton]
      omega
    case finished =>
      intro hmem
      rcases List.mem_append.mp hmem with hmem | hmem
      · exact hstays (h.finished hmem)
      · exact hends (List.mem_singleton.mp hmem).symm
    case outcome =>
      intro o ho
      rw [show _ = s.outcome from houtcome, hopen] at ho
      cases ho
  | settle result hpending =>
    exact { h with consistent := h.consistent.settle hpending }
  | @resume i result before after called hpool hworker hsettled =>
    have hopen := h.open_of_awaiting (hworker ▸ List.mem_append_cons_self)
    have hobserve := h.observe hworker hsettled
    have hpull := hobserve.pull called
    obtain ⟨hcursor, -, -, ho⟩ := observe_frame s i result
    obtain ⟨-, houtcome, hstays, hends⟩ := pull_frame hobserve called
    constructor
    case consistent =>
      apply (hpull.with _ _).perm
      exact (awaited_append before after _).symm
    case workers =>
      have hlength := h.workers
      rw [hworker] at hlength
      rw [List.length_append, List.length_cons] at hlength ⊢
      exact hlength
    case finished =>
      intro hmem
      by_cases hw : ((s.observe i result).pull items called).2 = .finished
      · exact hends hw
      · apply hstays
        have hmem' : Worker.finished ∈ s.workers := by
          rw [hworker]
          rcases List.mem_append.mp hmem with hmem | hmem
          · exact List.mem_append_left _ hmem
          · exact List.mem_append_right _
              (List.mem_cons_of_mem _ (List.mem_of_ne_of_mem (Ne.symm hw) hmem))
        rw [hcursor]
        exact (h.finished hmem').imp_left failed_observe
    case outcome =>
      intro o' ho'
      rw [show _ = (s.observe i result).outcome from houtcome, ho, hopen] at ho'
      cases ho'
  | finish hopen hpool hworkers =>
    constructor
    case consistent => exact h.consistent.with s.workers (some s.result)
    case workers => apply h.workers
    case finished => apply h.finished
    case outcome =>
      intro o ho
      exact ⟨hpool, hworkers, (Option.some.inj ho).symm⟩

theorem reachable_invariant (hlimit : 1 ≤ limit) (h : (system T R E items limit).Reachable s) :
  Invariant items limit s
  := by
  apply h.invariant
  · rintro s₀ rfl
    apply invariant_start hlimit
  · intro s₀ a s₁ hinv hstep
    apply step_invariant hinv hstep

end Steps

end RunBounded
