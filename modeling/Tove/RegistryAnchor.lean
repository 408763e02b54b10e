import Tove.Base.Changelog
import Tove.Soroban

/-!
# The registry anchor

The contract `RegistryAnchor` of `tove-registry-anchor`: the admin anchors a Merkle root for a
date, once. The lifetime extensions of storage entries are left out.
-/

namespace RegistryAnchor

open Soroban Changelog Transition

/-- The errors of the contract. -/
inductive Error where
  | DateAlreadyAnchored
  deriving DecidableEq, Repr

/-- The outcome of a call. -/
abbrev Outcome (α : Type) : Type := Except (Failure Error) α

/-- The slots of the contract. -/
structure Storage where
  admin : Address
  root : UInt32 → Option BytesN32

/-- The event of the contract. -/
inductive Event where
  | RegistryAnchored (merkleRoot : BytesN32) (batchDate : UInt32)
  deriving DecidableEq, Repr

/-- `__constructor`. -/
def construct (admin : Address) : Storage := ⟨admin, fun _ => none⟩

/-- `emit`. -/
def emit (env : Env) (merkleRoot : BytesN32) (batchDate : UInt32) (s : Storage) :
    Outcome (Storage × List Event) := do
  requireAuth env s.admin
  errorIf ((s.root batchDate).isSome = true) .DateAlreadyAnchored
  return ({ s with root := Function.update s.root batchDate (some merkleRoot) },
    [.RegistryAnchored merkleRoot batchDate])

/-- `set_admin`. -/
def setAdmin (env : Env) (newAdmin : Address) (s : Storage) : Outcome (Storage × List Event) := do
  requireAuth env s.admin
  return ({ s with admin := newAdmin }, [])

/-- A call that may change the storage. -/
inductive Call where
  | emit (merkleRoot : BytesN32) (batchDate : UInt32)
  | setAdmin (newAdmin : Address)
  deriving DecidableEq, Repr

/-- Run a call. -/
def perform (env : Env) : Call → Storage → Outcome (Storage × List Event)
  | .emit merkleRoot batchDate => emit env merkleRoot batchDate
  | .setAdmin newAdmin => setAdmin env newAdmin

/-- A call with its events, or a call that fails. -/
inductive Label where
  | call (env : Env) (c : Call) (events : List Event)
  | failed (env : Env) (c : Call) (failure : Failure Error)

/-- The steps of the contract. A failed call changes nothing. -/
inductive Step : Storage → Label → Storage → Prop where
  | call {env : Env} {c : Call} {s s' : Storage} {events : List Event} :
    perform env c s = .ok (s', events) → Step s (.call env c events) s'
  | failed {env : Env} {c : Call} {s : Storage} {failure : Failure Error} :
    perform env c s = .error failure → Step s (.failed env c failure) s

/-- The contract from its deployment on, as a transition system. -/
def system (admin : Address) : System Storage Label where
  init s := s = construct admin
  step := Step

/-- What an event says about its date. -/
def Event.change : Event → Entry UInt32 (Option BytesN32)
  | .RegistryAnchored merkleRoot batchDate => ⟨batchDate, some merkleRoot⟩

/-- What the events of a step say. -/
def Label.changes : Label → List (Entry UInt32 (Option BytesN32))
  | .call _ _ events => events.map Event.change
  | .failed .. => []

/-- A date without a root gets one. -/
def Anchors (before after : Option BytesN32) : Prop := before = none ∧ after.isSome = true

/-! ### What a call does -/

section Calls

variable {env : Env} {merkleRoot : BytesN32} {batchDate : UInt32} {s s' : Storage}
  {events : List Event} {l : Label}

theorem emit_of_ok (h : emit env merkleRoot batchDate s = .ok (s', events)) :
  s.root batchDate = none ∧ s'.root = Function.update s.root batchDate (some merkleRoot)
    ∧ events = [.RegistryAnchored merkleRoot batchDate]
  := by
  simp only [emit, errorIf, Checks.check_bind_eq_ok, Checks.rejectIf_eq_ok, Checks.pure_eq_ok,
    Prod.mk.injEq, Bool.not_eq_true, Option.isSome_eq_false_iff, Option.isNone_iff_eq_none] at h
  obtain ⟨_, hnone, rfl, rfl⟩ := h
  exact ⟨hnone, rfl, rfl⟩

theorem setAdmin_of_ok {newAdmin : Address} (h : setAdmin env newAdmin s = .ok (s', events)) :
  s'.root = s.root ∧ events = []
  := by
  simp only [setAdmin, Checks.check_bind_eq_ok, Checks.pure_eq_ok, Prod.mk.injEq] at h
  obtain ⟨_, rfl, rfl⟩ := h
  exact ⟨rfl, rfl⟩

/-- The events of a step report the roots that it has anchored. -/
theorem Step.changes (h : Step s l s') :
  Logs Anchors s.root l.changes s'.root
  := by
  cases h with
  | @call env c _ _ events hok =>
    cases c with
    | emit merkleRoot batchDate =>
      obtain ⟨hnone, hroot, rfl⟩ := emit_of_ok hok
      rw [hroot]
      apply Logs.single ⟨hnone, rfl⟩
    | setAdmin newAdmin =>
      obtain ⟨hroot, rfl⟩ := setAdmin_of_ok hok
      rw [hroot]
      apply Logs.nil
  | failed => apply Logs.nil

end Calls

/-! ### Runs -/

section Runs

variable {admin : Address} {s t : Storage} {ls ls' : List Label}

/-- The log of the roots. -/
theorem root_logs (hrun : (system admin).Run s ls t) :
  Logs Anchors s.root (ls.flatMap Label.changes) t.root
  := logs_of_run Storage.root Label.changes (fun _ _ _ (hstep : Step _ _ _) => hstep.changes) hrun

/-- A chain of roots has one change at most. -/
theorem eq_toList_of_isChain {before after : Option BytesN32} {values : List (Option BytesN32)}
    (hchain : (before :: values).IsChain Anchors)
    (hlast : (before :: values).getLast? = some after) :
  values = [] ∧ after = before ∨ before = none ∧ after.isSome = true ∧ values = [after]
  := by
  match values with
  | [] => exact .inl ⟨rfl, (Option.some.inj hlast).symm⟩
  | [value] =>
    obtain rfl : value = after := Option.some.inj hlast
    rw [List.isChain_cons_cons] at hchain
    exact .inr ⟨hchain.1.1, hchain.1.2, rfl⟩
  | value :: value' :: _ =>
    rw [List.isChain_cons_cons, List.isChain_cons_cons] at hchain
    obtain ⟨⟨_, hsome⟩, ⟨hnone, _⟩, _⟩ := hchain
    rw [hnone] at hsome
    cases hsome

/-- What is anchored stays. -/
theorem root_of_run (hrun : (system admin).Run s ls t) {batchDate : UInt32} {merkleRoot : BytesN32}
    (hroot : s.root batchDate = some merkleRoot) :
  t.root batchDate = some merkleRoot
  := by
  have hlogs := root_logs hrun
  rcases eq_toList_of_isChain (hlogs.isChain batchDate) (hlogs.getLast batchDate) with
    ⟨_, hafter⟩ | ⟨hnone, _⟩
  · rw [hafter, hroot]
  · rw [hroot] at hnone
    cases hnone

/-- In every run of the contract, whoever calls it: the events of a date are one at most, which is
published exactly when a root is anchored for it, and bears this root; the root is never replaced;
and `emit` answers by these events: it goes through when the admin has authorised it and no event
of the date has been published, and fails with the error of the contract when one has. -/
theorem anchored_once (hrun : (system admin).Run (construct admin) ls s) :
  (∀ batchDate, valuesOf (ls.flatMap Label.changes) batchDate
      = (s.root batchDate).toList.map some)
    ∧ (∀ ls' t batchDate merkleRoot, (system admin).Run s ls' t →
      s.root batchDate = some merkleRoot → t.root batchDate = some merkleRoot)
    ∧ ∀ env merkleRoot batchDate, env.auth s.admin = true →
      perform env (.emit merkleRoot batchDate) s
        = if valuesOf (ls.flatMap Label.changes) batchDate = [] then
            .ok ({ s with root := Function.update s.root batchDate (some merkleRoot) },
              [.RegistryAnchored merkleRoot batchDate])
          else .error (.error .DateAlreadyAnchored)
  := by
  have hlogs := root_logs hrun
  have hvalues : ∀ batchDate, valuesOf (ls.flatMap Label.changes) batchDate
      = (s.root batchDate).toList.map some := by
    intro batchDate
    rcases eq_toList_of_isChain (hlogs.isChain batchDate) (hlogs.getLast batchDate) with
      ⟨hnil, hafter⟩ | ⟨_, hsome, hvalues⟩
    · rw [hnil, hafter]
      rfl
    · obtain ⟨merkleRoot, hroot⟩ := Option.isSome_iff_exists.mp hsome
      rw [hvalues, hroot]
      rfl
  refine ⟨hvalues, fun ls' t batchDate merkleRoot hrun' hroot => root_of_run hrun' hroot, ?_⟩
  intro env merkleRoot batchDate hauth
  rw [hvalues, perform, emit, show requireAuth env s.admin = .ok () from
    requireAuth_eq_ok.mpr hauth, Checks.ok_bind]
  cases s.root batchDate with
  | none => rfl
  | some merkleRoot => rfl

/-- A second root for a date is refused. -/
theorem anchored_once_twice :
  perform ⟨fun _ => true, true, true⟩ (.emit 8 20260101)
    { construct (.account 1) with
      root := Function.update (fun _ => none) 20260101 (some 7) }
    = .error (.error .DateAlreadyAnchored)
  := by
  have hstep : Step (construct (.account 1))
      (.call ⟨fun _ => true, true, true⟩ (.emit 7 20260101) [.RegistryAnchored 7 20260101])
      { construct (.account 1) with
        root := Function.update (fun _ => none) 20260101 (some 7) } := .call rfl
  exact (anchored_once (System.Run.single (S := system (.account 1)) hstep)).2.2 _ 8 20260101 rfl

end Runs

end RegistryAnchor
