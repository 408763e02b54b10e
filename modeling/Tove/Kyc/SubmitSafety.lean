import Tove.Kyc.Submit

/-!
# The evidence is kept

A transaction writes the rows of one submission that is new, since the rows of its documents
would otherwise be there already; so the tables agree, whatever fails and whatever is repeated.
Each key is made for one upload. What is stored for a submission in progress, or for a row, is
left alone as long as what is deleted was not committed, and is not deleted for another.
-/

namespace Kyc

open Js ReadCommitted Store Transition

variable {hashPlaintext : JsString → JsString} {orphanGrace : ℕ} {s s' : State} {l : Label} {n : ℕ}
  {phase : Phase} {sub : Submission} {uploaded : List Upload}

/-! ### What a transaction writes -/

/-- What the transaction of a submission has written. -/
structure Writes (hashPlaintext : JsString → JsString) (s : State) (n : ℕ) (sub : Submission)
    (uploaded : List Upload) (stage : Stage) : Prop where
  user : ∀ userId status, s.users.writes n userId = some status → userId = sub.userId
  submission : ∀ id row, s.submissions.writes n id = some row →
    id = sub.submissionId ∧ row.PendingOf sub.userId
  document : ∀ id row, s.documents.writes n id = some row → ∃ upload ∈ uploaded,
    id = (sub.submissionId, upload.docType) ∧ row = sub.document hashPlaintext upload
  remaining : ∀ rest, stage = .inserting rest → rest ⊆ uploaded
  saved : ∀ rest, stage = .inserting rest → ∃ row,
    s.submissions.writes n sub.submissionId = some row
  inserted : ∀ rest, stage = .inserting rest → ∀ upload ∈ uploaded,
    upload ∈ rest ∨ ∃ row, s.documents.writes n (sub.submissionId, upload.docType) = some row

/-- A call has written nothing. -/
structure Clean (s : State) (n : ℕ) : Prop where
  users : s.users.writes n = fun _ => none
  submissions : s.submissions.writes n = fun _ => none
  documents : s.documents.writes n = fun _ => none

/-- What a call has written: only a transaction writes. -/
def Phase.Writes (hashPlaintext : JsString → JsString) (s : State) (n : ℕ) : Phase → Prop
  | .running sub uploaded stage => Kyc.Writes hashPlaintext s n sub uploaded stage
  | _ => Clean s n

/-- Each document that is required was uploaded, or is to be. -/
def Phase.Covers : Phase → Prop
  | .uploading _ rest uploaded failed => failed = false → ∀ docType ∈ requiredDocTypes,
    docType ∈ rest ∨ ∃ upload ∈ uploaded, upload.docType = docType
  | .running _ uploaded _ => ∀ docType ∈ requiredDocTypes, ∃ upload ∈ uploaded,
    upload.docType = docType
  | _ => True

/-- What calls have written depends on the writes alone. -/
theorem Phase.Writes.congr (h : phase.Writes hashPlaintext s n)
    (husers : s'.users.writes n = s.users.writes n)
    (hsubmissions : s'.submissions.writes n = s.submissions.writes n)
    (hdocuments : s'.documents.writes n = s.documents.writes n) :
  phase.Writes hashPlaintext s' n
  := by
  cases phase with
  | running sub uploaded stage =>
    have h : Kyc.Writes hashPlaintext s n sub uploaded stage := h
    constructor
    · rw [husers]
      exact h.user
    · rw [hsubmissions]
      exact h.submission
    · rw [hdocuments]
      exact h.document
    · exact h.remaining
    · rw [hsubmissions]
      exact h.saved
    · rw [hdocuments]
      exact h.inserted
  | _ => exact ⟨husers.trans h.users, hsubmissions.trans h.submissions,
    hdocuments.trans h.documents⟩

/-- A transaction that begins. -/
theorem Clean.writes (h : Clean s n) :
  Writes hashPlaintext s n sub uploaded .claiming
  := by
  constructor
  · intro userId status hwrites
    rw [h.users] at hwrites
    cases hwrites
  · intro id row hwrites
    rw [h.submissions] at hwrites
    cases hwrites
  · intro id row hwrites
    rw [h.documents] at hwrites
    cases hwrites
  · exact fun _ hstage => by cases hstage
  · exact fun _ hstage => by cases hstage
  · exact fun _ hstage => by cases hstage

/-- The status of the user is moved. -/
theorem Writes.claim (h : Writes hashPlaintext s n sub uploaded .claiming) :
  Writes hashPlaintext
    (State.enter { s with users := s.users.write n sub.userId .pendingReview } n phase) n sub uploaded
    .saving
  := by
  have hstage : ∀ rest, Stage.saving ≠ .inserting rest := fun _ h => by cases h
  refine ⟨?_, h.submission, h.document, fun rest h => absurd h (hstage rest),
    fun rest h => absurd h (hstage rest), fun rest h => absurd h (hstage rest)⟩
  intro userId status hwrites
  rcases of_write_writes hwrites with ⟨_, rfl, _⟩ | ⟨_, hbefore⟩
  · rfl
  · exact h.user userId status hbefore

/-- The submission is saved. -/
theorem Writes.save {row : KycSubmission} (h : Writes hashPlaintext s n sub uploaded .saving)
    (hrow : row.PendingOf sub.userId) :
  Writes hashPlaintext
    (State.enter { s with submissions := s.submissions.write n sub.submissionId row } n phase) n sub
    uploaded (.inserting uploaded)
  := by
  refine ⟨h.user, ?_, h.document, ?_, fun _ _ => ⟨row, write_writes_self⟩, ?_⟩
  · intro id row' hwrites
    rcases of_write_writes hwrites with ⟨_, rfl, rfl⟩ | ⟨_, hbefore⟩
    · exact ⟨rfl, hrow⟩
    · exact h.submission id row' hbefore
  · intro rest hstage
    cases hstage
    exact List.Subset.refl uploaded
  · intro rest hstage upload hmem
    cases hstage
    exact .inl hmem

/-- A document is inserted. -/
theorem Writes.insert {upload : Upload} {rest : List Upload} {id : JsString × KycDocType}
    (h : Writes hashPlaintext s n sub uploaded (.inserting (upload :: rest)))
    (hid : id = (sub.submissionId, upload.docType)) :
  Writes hashPlaintext
    (State.enter
      { s with documents := s.documents.write n id (sub.document hashPlaintext upload) } n phase) n sub
    uploaded (.inserting rest)
  := by
  obtain ⟨hmem, hrest⟩ := List.cons_subset.mp (h.remaining _ rfl)
  refine ⟨h.user, h.submission, ?_, ?_, fun _ _ => h.saved _ rfl, ?_⟩
  · intro id' row hwrites
    rcases of_write_writes hwrites with ⟨_, rfl, rfl⟩ | ⟨_, hbefore⟩
    · exact ⟨upload, hmem, hid, rfl⟩
    · exact h.document id' row hbefore
  · intro rest' hstage
    cases hstage
    exact hrest
  · intro rest' hstage upload' hmem'
    cases hstage
    by_cases heq : (sub.submissionId, upload'.docType) = id
    · right
      rw [heq]
      exact ⟨_, write_writes_self⟩
    · rcases h.inserted _ rfl upload' hmem' with hrest | ⟨row, hwrites⟩
      · rcases List.mem_cons.mp hrest with rfl | hrest
        · exact absurd hid.symm heq
        · exact .inl hrest
      · right
        refine ⟨row, ?_⟩
        exact (write_writes_of_ne_key heq).trans hwrites

/-- The calls write what they are to write, and the tables are respected. -/
structure Progress (hashPlaintext : JsString → JsString) (s : State) : Prop where
  submissions : ∀ userId, Consistent (KycSubmission.PendingOf userId) s.submissions
  documents : Consistent (fun _ => False) s.documents
  writes : ∀ n, (s.calls n).Writes hashPlaintext s n
  covers : ∀ n, (s.calls n).Covers
  fresh : ∀ n id row, s.documents.writes n id = some row → s.documents.committed id = none

/-- A call does one statement. -/
theorem Progress.acts (hs : Progress hashPlaintext s)
    (hcalls : s'.calls = Function.update s.calls n phase)
    (husers : ∀ m, m ≠ n → s'.users.writes m = s.users.writes m)
    (hsubmissions : ∀ userId, Acts (KycSubmission.PendingOf userId) n s.submissions s'.submissions)
    (hdocuments : Acts (fun _ => False) n s.documents s'.documents)
    (hwrites : phase.Writes hashPlaintext s' n) (hcovers : phase.Covers)
    (hfresh : ∀ id row, s'.documents.writes n id = some row → s'.documents.committed id = none) :
  Progress hashPlaintext s'
  := by
  refine ⟨fun userId => (hsubmissions userId).consistent (hs.submissions userId),
    hdocuments.consistent hs.documents, ?_, ?_, ?_⟩
  · rw [hcalls]
    apply (Function.forall_update_iff s.calls fun m phase => phase.Writes hashPlaintext s' m).mpr
    refine ⟨hwrites, fun m hm => ?_⟩
    exact (hs.writes m).congr (husers m hm) ((hsubmissions 0).writes hm) (hdocuments.writes hm)
  · rw [hcalls]
    apply (Function.forall_update_iff s.calls fun _ phase => phase.Covers).mpr
    exact ⟨hcovers, fun m _ => hs.covers m⟩
  · intro m id row hwritten
    by_cases hm : m = n
    · subst hm
      exact hfresh id row hwritten
    · rw [hdocuments.writes hm] at hwritten
      rw [hdocuments.committed hs.documents hm hwritten]
      exact hs.fresh m id row hwritten

/-- A call enters a phase, and the tables are as they were. -/
theorem Progress.enter (hs : Progress hashPlaintext s) (husers : s'.users = s.users)
    (hsubmissions : s'.submissions = s.submissions) (hdocuments : s'.documents = s.documents)
    (hcalls : s'.calls = Function.update s.calls n phase)
    (hwrites : phase.Writes hashPlaintext s n) (hcovers : phase.Covers) :
  Progress hashPlaintext s'
  := by
  apply hs.acts hcalls
  · intro m _
    rw [husers]
  · intro userId
    rw [hsubmissions]
    exact .nothing
  · rw [hdocuments]
    exact .nothing
  · exact hwrites.congr (by rw [husers]) (by rw [hsubmissions]) (by rw [hdocuments])
  · exact hcovers
  · rw [hdocuments]
    exact hs.fresh n

/-- A transaction is over, and its call has no other. -/
theorem Progress.commit (hs : Progress hashPlaintext s)
    (hphase : ∀ s, Clean s n → phase.Writes hashPlaintext s n) (hcovers : phase.Covers) :
  Progress hashPlaintext (s.commit n phase)
  := by
  apply hs.acts rfl
  · exact fun m hm => commit_writes_of_ne hm
  · exact fun _ => .commit
  · exact .commit
  · exact hphase _ ⟨commit_writes, commit_writes, commit_writes⟩
  · exact hcovers
  · intro id row h
    have h : (s.documents.commit n).writes n id = some row := h
    rw [commit_writes] at h
    cases h

theorem Progress.abort (hs : Progress hashPlaintext s)
    (hphase : ∀ s, Clean s n → phase.Writes hashPlaintext s n) (hcovers : phase.Covers) :
  Progress hashPlaintext (s.abort n phase)
  := by
  apply hs.acts rfl
  · exact fun m hm => abort_writes_of_ne hm
  · exact fun _ => .abort
  · exact .abort
  · exact hphase _ ⟨abort_writes, abort_writes, abort_writes⟩
  · exact hcovers
  · intro id row h
    have h : (s.documents.abort n).writes n id = some row := h
    rw [abort_writes] at h
    cases h

/-- An upload is over, and the rest is covered as it was. -/
theorem Phase.Covers.erase {docType : KycDocType} {rest : List KycDocType} {failed : Bool} {dek : ℕ}
    (h : (Phase.uploading sub rest uploaded failed).Covers) :
  (Phase.uploading sub (rest.erase docType) (⟨docType, dek⟩ :: uploaded) failed).Covers
  := by
  intro hfailed docType' hmem
  by_cases heq : docType' = docType
  · exact .inr ⟨⟨docType, dek⟩, List.mem_cons_self, heq.symm⟩
  · rcases h hfailed docType' hmem with hrest | ⟨upload, hupload, htype⟩
    · exact .inl ((List.mem_erase_of_ne heq).mpr hrest)
    · exact .inr ⟨upload, List.mem_cons_of_mem _ hupload, htype⟩

theorem Progress.calls (hs : Progress hashPlaintext s) (hphase : s.calls n = phase) :
  phase.Writes hashPlaintext s n ∧ phase.Covers
  := by
  subst hphase
  exact ⟨hs.writes n, hs.covers n⟩

/-- Each statement is one that a call may do. -/
theorem Step.progress (hs : Progress hashPlaintext s) (h : Step hashPlaintext orphanGrace s l s') :
  Progress hashPlaintext s'
  := by
  cases h with
  | start hphase | list hphase | known hphase | uploadedSome hphase | clean hphase | sweep hphase =>
    exact hs.enter rfl rfl rfl rfl (hs.calls hphase).1 trivial
  | check hphase =>
    exact hs.enter rfl rfl rfl rfl (hs.calls hphase).1 fun _ docType hmem => .inl hmem
  | upload hphase =>
    obtain ⟨hwrites, hcovers⟩ := hs.calls hphase
    exact hs.enter rfl rfl rfl rfl hwrites hcovers.erase
  | uploadFail hphase | uploadLost hphase =>
    exact hs.enter rfl rfl rfl rfl (hs.calls hphase).1 fun hfailed => by cases hfailed
  | uploaded hphase =>
    obtain ⟨hwrites, hcovers⟩ := hs.calls hphase
    refine hs.enter rfl rfl rfl rfl (Clean.writes hwrites) ?_
    intro docType hmem
    rcases hcovers rfl docType hmem with hrest | hupload
    · cases hrest
    · exact hupload
  | claim hphase _ hfree =>
    obtain ⟨hwrites, hcovers⟩ := hs.calls hphase
    apply hs.acts rfl
    · exact fun m hm => write_writes_of_ne hm
    · exact fun _ => .nothing
    · exact .nothing
    · exact Writes.claim hwrites
    · exact hcovers
    · exact hs.fresh _
  | @save n sub uploaded prior row hphase _ hrow hfree hadmits =>
    obtain ⟨hwrites, hcovers⟩ := hs.calls hphase
    have hpending : row.PendingOf sub.userId := by
      rw [hrow]
      exact ⟨rfl, rfl⟩
    apply hs.acts rfl
    · exact fun _ _ => rfl
    · intro userId
      refine .write hfree fun hp => ?_
      rw [← hp.1, hpending.1]
      exact hadmits
    · exact .nothing
    · exact Writes.save hwrites hpending
    · exact hcovers
    · exact hs.fresh _
  | @insert n sub uploaded rest upload id hphase hid hnone hfresh =>
    obtain ⟨hwrites, hcovers⟩ := hs.calls hphase
    apply hs.acts rfl
    · exact fun _ _ => rfl
    · exact fun _ => .nothing
    · exact .write (fun m _ => hfresh m) fun hp => hp.elim
    · exact Writes.insert hwrites hid
    · exact hcovers
    · intro id' row hwritten
      rcases of_write_writes hwritten with ⟨_, rfl, _⟩ | ⟨_, hbefore⟩
      · exact hnone
      · exact hs.fresh n id' row hbefore
  | commit | commitLost => exact hs.commit (fun _ => id) trivial
  | fail | crash => exact hs.abort (fun _ => id) trivial
  | review hcommitted _ _ hstatus houtcome =>
    refine ⟨?_, hs.documents, ?_, hs.covers, hs.fresh⟩
    · exact fun userId => (hs.submissions userId).replace fun hp => houtcome hp.2
    · exact fun m => (hs.writes m).congr rfl rfl rfl
  | tick =>
    exact ⟨hs.submissions, hs.documents, fun m => (hs.writes m).congr rfl rfl rfl,
      hs.covers, hs.fresh⟩

/-! ### What is committed -/

/-- The rows that are committed belong together. -/
structure Complete (s : State) : Prop where
  documents : ∀ id row, s.submissions.committed id = some row → ∀ docType ∈ requiredDocTypes,
    ∃ row', s.documents.committed (id, docType) = some row'
  owner : ∀ id row, s.documents.committed id = some row → ∃ sub,
    s.submissions.committed id.1 = some sub ∧ row.storageKey = ⟨sub.userId, id.1, id.2⟩
      ∧ row.encryptedDek.aad = row.storageKey
  pending : ∀ userId, s.users.committed userId = some .pendingReview →
    ∃ id row, s.submissions.committed id = some row ∧ row.PendingOf userId

theorem Complete.congr (h : Complete s) (husers : s'.users.committed = s.users.committed)
    (hsubmissions : s'.submissions.committed = s.submissions.committed)
    (hdocuments : s'.documents.committed = s.documents.committed) :
  Complete s'
  := by
  constructor
  · rw [hsubmissions, hdocuments]
    exact h.documents
  · rw [hsubmissions, hdocuments]
    exact h.owner
  · rw [husers, hsubmissions]
    exact h.pending

/-- A submission whose documents are inserted was not committed before: the rows of its
documents would be there. -/
theorem Progress.new (hs : Progress hashPlaintext s) (hc : Complete s)
    (hphase : s.calls n = .running sub uploaded (.inserting [])) :
  s.submissions.committed sub.submissionId = none
  := by
  obtain ⟨hwrites, hcovers⟩ := hs.calls hphase
  by_contra hsome
  obtain ⟨row, hrow⟩ := Option.ne_none_iff_exists'.mp hsome
  have hmem : KycDocType.govIdFront ∈ requiredDocTypes := List.mem_cons_self
  obtain ⟨upload, hupload, htype⟩ := hcovers .govIdFront hmem
  obtain ⟨document, hdocument⟩ := hc.documents _ row hrow .govIdFront hmem
  rcases Writes.inserted hwrites [] rfl upload hupload with hrest | ⟨row', hwritten⟩
  · cases hrest
  · rw [htype] at hwritten
    cases hdocument.symm.trans (hs.fresh n _ row' hwritten)

/-- A submission is committed with its documents. -/
theorem Complete.commit (hs : Progress hashPlaintext s) (hc : Complete s)
    (hphase : s.calls n = .running sub uploaded (.inserting [])) :
  Complete (s.commit n phase)
  := by
  obtain ⟨hwrites, hcovers⟩ := hs.calls hphase
  have hwrites : Writes hashPlaintext s n sub uploaded (.inserting []) := hwrites
  have hnew := hs.new hc hphase
  obtain ⟨saved, hsaved⟩ := hwrites.saved [] rfl
  have hkept : ∀ id row, s.submissions.committed id = some row →
    s.submissions.view n id = some row := by
    intro id row hrow
    rw [← hrow]
    apply view_of_none
    by_contra hsome
    obtain ⟨row', hrow'⟩ := Option.ne_none_iff_exists'.mp hsome
    rw [(hwrites.submission id row' hrow').1, hnew] at hrow
    cases hrow
  have hpending := (hwrites.submission _ saved hsaved).2
  constructor
  · intro id row hview docType hmem
    rcases of_view hview with hwritten | ⟨_, hcommitted⟩
    · obtain ⟨rfl, _⟩ := hwrites.submission id row hwritten
      obtain ⟨upload, hupload, rfl⟩ := hcovers docType hmem
      rcases hwrites.inserted [] rfl upload hupload with hrest | ⟨row', hinserted⟩
      · cases hrest
      · exact ⟨row', view_of_writes hinserted⟩
    · obtain ⟨row', hrow'⟩ := hc.documents id row hcommitted docType hmem
      exact view_of_committed hrow'
  · intro id row hview
    rcases of_view hview with hwritten | ⟨_, hcommitted⟩
    · obtain ⟨upload, _, rfl, rfl⟩ := hwrites.document id row hwritten
      refine ⟨saved, view_of_writes hsaved, ?_, rfl⟩
      rw [hpending.1]
      rfl
    · obtain ⟨row', hrow', hkey⟩ := hc.owner id row hcommitted
      exact ⟨row', hkept id.1 row' hrow', hkey⟩
  · intro userId hview
    rcases of_view hview with hwritten | ⟨_, hcommitted⟩
    · obtain rfl := hwrites.user userId _ hwritten
      exact ⟨_, saved, view_of_writes hsaved, hpending⟩
    · obtain ⟨id, row, hrow, hp⟩ := hc.pending userId hcommitted
      exact ⟨id, row, hkept id row hrow, hp⟩

/-- A submission is reviewed. -/
theorem Complete.review {id : JsString} {row row' : KycSubmission} {status : KycStatus}
    (hc : Complete s)
    (hrow : s.submissions.committed id = some row) (huser : row'.userId = row.userId)
    (hstatus : status ≠ .pendingReview)
    (husers : s'.users.committed = Function.update s.users.committed row.userId (some status))
    (hsubmissions :
      s'.submissions.committed = Function.update s.submissions.committed id (some row'))
    (hdocuments : s'.documents.committed = s.documents.committed) :
  Complete s'
  := by
  have hbefore : ∀ id' row₁, s'.submissions.committed id' = some row₁ →
      ∃ row₂, s.submissions.committed id' = some row₂ := by
    intro id' row₁ h
    rw [hsubmissions, Function.update_apply] at h
    split at h
    · rename_i heq
      rw [heq]
      exact ⟨row, hrow⟩
    · exact ⟨row₁, h⟩
  constructor
  · intro id' row₁ h docType hmem
    obtain ⟨row₂, hrow₂⟩ := hbefore id' row₁ h
    rw [hdocuments]
    exact hc.documents id' row₂ hrow₂ docType hmem
  · intro id' row₁ h
    rw [hdocuments] at h
    obtain ⟨sub, hsub, hkey⟩ := hc.owner id' row₁ h
    rw [hsubmissions]
    by_cases heq : id'.1 = id
    · rw [heq] at hsub hkey ⊢
      obtain rfl := Option.some.inj (hrow.symm.trans hsub)
      rw [← huser] at hkey
      exact ⟨row', Function.update_self .., hkey⟩
    · exact ⟨sub, (Function.update_of_ne heq ..).trans hsub, hkey⟩
  · intro userId h
    rw [husers, Function.update_apply] at h
    split at h
    · exact absurd (Option.some.inj h) hstatus
    · rename_i hne
      obtain ⟨id', row₁, hrow₁, hp⟩ := hc.pending userId h
      refine ⟨id', row₁, ?_, hp⟩
      rw [hsubmissions]
      apply (Function.update_of_ne _ ..).trans hrow₁
      rintro rfl
      obtain rfl := Option.some.inj (hrow.symm.trans hrow₁)
      exact hne hp.1.symm

theorem Step.complete (hs : Progress hashPlaintext s) (hc : Complete s)
    (h : Step hashPlaintext orphanGrace s l s') :
  Complete s'
  := by
  cases h with
  | commit hphase | commitLost hphase => exact hc.commit hs hphase
  | review hrow _ _ hstatus =>
    refine hc.review hrow ?_ hstatus rfl rfl rfl
    rfl
  | _ => exact hc.congr rfl rfl rfl

/-! ### The keys -/

/-- The keys of the documents that a call has uploaded, unless they were committed. -/
def Phase.deks : Phase → List ℕ
  | .uploading _ _ uploaded _ | .running _ uploaded _ | .cleaning _ uploaded false =>
    uploaded.map (·.dek)
  | _ => []

/-- Each key was made for one upload, which one call has or one row. -/
structure Keyed (s : State) : Prop where
  made : ∀ n, ∀ dek ∈ (s.calls n).deks, dek < s.deks
  used : ∀ id row, s.documents.committed id = some row → row.encryptedDek.dek < s.deks
  exclusive : ∀ m n dek, dek ∈ (s.calls m).deks → dek ∈ (s.calls n).deks → m = n
  unused : ∀ id row n, s.documents.committed id = some row → row.encryptedDek.dek ∉ (s.calls n).deks

theorem Keyed.congr (hs : Keyed s) (hdocuments : s'.documents.committed = s.documents.committed)
    (hdeks : s'.deks = s.deks) (hcalls : s'.calls = s.calls) :
  Keyed s'
  := by
  constructor
  · rw [hcalls, hdeks]
    exact hs.made
  · rw [hdocuments, hdeks]
    exact hs.used
  · rw [hcalls]
    exact hs.exclusive
  · rw [hdocuments, hcalls]
    exact hs.unused

/-- A call enters a phase, with keys that it had or that are new. -/
theorem Keyed.enter (hs : Keyed s) (hdocuments : s'.documents.committed = s.documents.committed)
    (hcalls : s'.calls = Function.update s.calls n phase) (hle : s.deks ≤ s'.deks)
    (hphase : ∀ dek ∈ phase.deks, dek ∈ (s.calls n).deks ∨ s.deks ≤ dek ∧ dek < s'.deks) :
  Keyed s'
  := by
  have hother : ∀ m dek, dek ∈ phase.deks → dek ∈ (s.calls m).deks → m = n := by
    intro m dek hnew hdek
    rcases hphase dek hnew with hold | ⟨hge, _⟩
    · exact hs.exclusive m n dek hdek hold
    · exact absurd (hs.made m dek hdek) (Nat.not_lt.mpr hge)
  constructor
  · rw [hcalls]
    apply (Function.forall_update_iff s.calls fun _ phase => ∀ dek ∈ phase.deks, dek < s'.deks).mpr
    constructor
    · intro dek hdek
      rcases hphase dek hdek with hold | ⟨_, hlt⟩
      · exact Nat.lt_of_lt_of_le (hs.made n dek hold) hle
      · exact hlt
    · exact fun m _ dek hdek => Nat.lt_of_lt_of_le (hs.made m dek hdek) hle
  · rw [hdocuments]
    exact fun id row hrow => Nat.lt_of_lt_of_le (hs.used id row hrow) hle
  · intro m m' dek hdek hdek'
    rw [hcalls, Function.update_apply] at hdek hdek'
    split at hdek
    · rename_i hm
      split at hdek'
      · rename_i hm'
        rw [hm, hm']
      · rw [hm, hother m' dek hdek hdek']
    · split at hdek'
      · rename_i hm'
        rw [hm', hother m dek hdek' hdek]
      · exact hs.exclusive m m' dek hdek hdek'
  · rw [hdocuments, hcalls]
    intro id row m hrow
    apply (Function.forall_update_iff s.calls fun _ phase => row.encryptedDek.dek ∉ phase.deks).mpr _ m
    refine ⟨fun hdek => ?_, fun m _ => hs.unused id row m hrow⟩
    rcases hphase _ hdek with hold | ⟨hge, _⟩
    · exact hs.unused id row n hrow hold
    · exact absurd (hs.used id row hrow) (Nat.not_lt.mpr hge)

/-- The keys of a submission are those of its rows when it is committed. -/
theorem Keyed.commit (hp : Progress hashPlaintext s) (hs : Keyed s)
    (hphase : s.calls n = .running sub uploaded (.inserting [])) (hdeks : phase.deks = []) :
  Keyed (s.commit n phase)
  := by
  have hentered : Keyed (s.enter n phase) := by
    refine hs.enter rfl rfl (Nat.le_refl _) ?_
    rw [hdeks]
    exact fun _ hdek => by cases hdek
  have hrow : ∀ id row, s.documents.view n id = some row → row.encryptedDek.dek ∈ (s.calls n).deks
      ∨ s.documents.committed id = some row := by
    intro id row hview
    rcases of_view hview with hwritten | ⟨_, hcommitted⟩
    · obtain ⟨upload, hupload, _, rfl⟩ := Writes.document (hp.calls hphase).1 id row hwritten
      left
      rw [hphase]
      exact List.mem_map_of_mem hupload
    · exact .inr hcommitted
  refine ⟨hentered.made, ?_, hentered.exclusive, ?_⟩
  · intro id row hview
    rcases hrow id row hview with hdek | hcommitted
    · exact hs.made n _ hdek
    · exact hs.used id row hcommitted
  · intro id row m hview
    rcases hrow id row hview with hdek | hcommitted
    · apply (Function.forall_update_iff s.calls fun _ phase => row.encryptedDek.dek ∉ phase.deks).mpr _ m
      refine ⟨?_, fun m hm hdek' => hm (hs.exclusive m n _ hdek' hdek)⟩
      rw [hdeks]
      exact List.not_mem_nil
    · exact hentered.unused id row m hcommitted

theorem Step.keyed (hp : Progress hashPlaintext s) (hs : Keyed s)
    (h : Step hashPlaintext orphanGrace s l s') :
  Keyed s'
  := by
  have hnone : ∀ n, ∀ dek ∈ ([] : List ℕ), dek ∈ (s.calls n).deks ∨ s.deks ≤ dek ∧ dek < s.deks :=
    fun _ _ hdek => by cases hdek
  cases h with
  | start | check | list | known | sweep | crash =>
    exact hs.enter rfl rfl (Nat.le_refl _) (hnone _)
  | upload hphase =>
    refine hs.enter rfl rfl (Nat.le_succ _) ?_
    rw [hphase]
    intro dek hdek
    rcases List.mem_cons.mp hdek with rfl | hold
    · exact .inr ⟨Nat.le_refl _, Nat.lt_succ_self _⟩
    · exact .inl hold
  | uploadFail hphase | uploaded hphase | uploadedSome hphase | claim hphase | save hphase
    | insert hphase | fail hphase =>
    refine hs.enter rfl rfl (Nat.le_refl _) ?_
    rw [hphase]
    exact fun dek hdek => .inl hdek
  | uploadLost hphase =>
    refine hs.enter rfl rfl (Nat.le_succ _) ?_
    rw [hphase]
    exact fun dek hdek => .inl hdek
  | commit hphase | commitLost hphase => exact hs.commit hp hphase rfl
  | @clean n sub uploaded upload committed hphase =>
    refine hs.enter rfl rfl (Nat.le_refl _) ?_
    rw [hphase]
    intro dek hdek
    cases committed with
    | true => cases hdek
    | false =>
      obtain ⟨upload', hmem, rfl⟩ := List.mem_map.mp hdek
      exact .inl (List.mem_map_of_mem (List.mem_of_mem_erase hmem))
  | review => exact hs.congr rfl rfl rfl
  | tick => exact hs.congr rfl rfl rfl

/-! ### The objects -/

/-- What a submission in progress has uploaded is stored, and what a sweep is to delete had no
row. -/
def Phase.Stored (storage : ObjectKey → Option Object) : Phase → Prop
  | .uploading sub _ uploaded _ | .running sub uploaded _ => ∀ upload ∈ uploaded,
    ∃ object, storage (sub.storageKey upload.docType) = some object ∧ object.blob = sub.blob upload
  | .sweeping orphans known => ∀ key ∈ orphans, key ∉ known
  | _ => True

theorem Phase.Stored.uploads {storage : ObjectKey → Option Object} {upload : Upload}
    (h : phase.Stored storage) (huploads : phase.uploads = some (sub, uploaded))
    (hmem : upload ∈ uploaded) :
  ∃ object, storage (sub.storageKey upload.docType) = some object ∧ object.blob = sub.blob upload
  := by
  cases phase with
  | uploading | running =>
    cases huploads
    exact h upload hmem
  | _ => cases huploads

/-- What stays stored is enough. -/
theorem Phase.Stored.mono {storage storage' : ObjectKey → Option Object} (h : phase.Stored storage)
    (hstorage : ∀ sub uploaded, phase.uploads = some (sub, uploaded) → ∀ upload ∈ uploaded, ∀ object,
      storage (sub.storageKey upload.docType) = some object →
        storage' (sub.storageKey upload.docType) = some object) :
  phase.Stored storage'
  := by
  cases phase with
  | uploading | running =>
    intro upload hmem
    obtain ⟨object, hobject, hblob⟩ := h upload hmem
    exact ⟨object, hstorage _ _ rfl upload hmem object hobject, hblob⟩
  | _ => exact h

/-- The keys of a submission in progress are those of its uploads. -/
theorem Phase.dek_of_uploads {upload : Upload} (huploads : phase.uploads = some (sub, uploaded))
    (hmem : upload ∈ uploaded) :
  upload.dek ∈ phase.deks
  := by
  cases phase with
  | uploading | running =>
    cases huploads
    exact List.mem_map_of_mem hmem
  | _ => cases huploads

/-- Submissions in progress have what they have uploaded, and rows have their objects. -/
structure Stored (s : State) : Prop where
  calls : ∀ n, (s.calls n).Stored s.storage
  documents : ∀ id row, s.documents.committed id = some row → ∃ object,
    s.storage row.storageKey = some object ∧ object.blob.aad = row.storageKey
      ∧ row.encryptedDek.dek = object.blob.dek

/-- A call enters a phase, and what the others need is still stored. -/
theorem Stored.enter (hs : Stored s) (hcalls : s'.calls = Function.update s.calls n phase)
    (hdocuments : s'.documents.committed = s.documents.committed)
    (huploads : ∀ m sub uploaded, m ≠ n → (s.calls m).uploads = some (sub, uploaded) →
      ∀ upload ∈ uploaded, ∀ object, s.storage (sub.storageKey upload.docType) = some object →
        s'.storage (sub.storageKey upload.docType) = some object)
    (hrows : ∀ id row, s.documents.committed id = some row →
      s'.storage row.storageKey = s.storage row.storageKey)
    (hphase : phase.Stored s'.storage) :
  Stored s'
  := by
  constructor
  · rw [hcalls]
    apply (Function.forall_update_iff s.calls fun _ phase => phase.Stored s'.storage).mpr
    exact ⟨hphase, fun m hm => (hs.calls m).mono fun sub uploaded => huploads m sub uploaded hm⟩
  · rw [hdocuments]
    intro id row hrow
    rw [hrows id row hrow]
    exact hs.documents id row hrow

/-- The bucket is as it was. -/
theorem Stored.step (hs : Stored s) (hcalls : s'.calls = Function.update s.calls n phase)
    (hdocuments : s'.documents.committed = s.documents.committed) (hstorage : s'.storage = s.storage)
    (hphase : phase.Stored s.storage) :
  Stored s'
  := by
  apply hs.enter hcalls hdocuments
  · rw [hstorage]
    exact fun _ _ _ _ _ _ _ _ => id
  · rw [hstorage]
    exact fun _ _ _ => rfl
  · rw [hstorage]
    exact hphase

/-- What is there is not overwritten. -/
theorem upload_storage {docType : KycDocType} {key : ObjectKey} {object : Object}
    (hnone : s.storage (sub.storageKey docType) = none) (hobject : s.storage key = some object) :
  (s.upload n sub docType phase).storage key = some object
  := by
  apply (Function.update_of_ne _ ..).trans hobject
  rintro rfl
  cases hnone.symm.trans hobject

theorem Stored.upload {docType : KycDocType} (hs : Stored s)
    (hnone : s.storage (sub.storageKey docType) = none)
    (hphase : phase.Stored (s.upload n sub docType phase).storage) :
  Stored (s.upload n sub docType phase)
  := by
  refine hs.enter rfl rfl ?_ ?_ hphase
  · exact fun m sub' uploaded _ _ upload _ object => upload_storage hnone
  · intro id row hrow
    obtain ⟨object, hobject, _⟩ := hs.documents id row hrow
    rw [upload_storage hnone hobject, hobject]

/-- An object is deleted that no other submission in progress has uploaded, and that has no row. -/
theorem Stored.delete {key : ObjectKey} (hs : Stored s)
    (huploads : ∀ m sub uploaded, m ≠ n → (s.calls m).uploads = some (sub, uploaded) →
      ∀ upload ∈ uploaded, sub.storageKey upload.docType ≠ key)
    (hrows : ∀ id row, s.documents.committed id = some row → row.storageKey ≠ key)
    (hphase : phase.Stored (s.delete n key phase).storage) :
  Stored (s.delete n key phase)
  := by
  refine hs.enter rfl rfl ?_ ?_ hphase
  · intro m sub uploaded hm hcall upload hmem object hobject
    exact (Function.update_of_ne (huploads m sub uploaded hm hcall upload hmem) ..).trans hobject
  · exact fun id row hrow => Function.update_of_ne (hrows id row hrow) ..

/-- A submission deletes its own upload. -/
theorem Stored.clean {upload : Upload} (hk : Keyed s) (hs : Stored s)
    (hphase : s.calls n = .cleaning sub uploaded false) (hmem : upload ∈ uploaded)
    (hown : ∀ object, s.storage (sub.storageKey upload.docType) = some object →
      object.blob = sub.blob upload) :
  Stored (s.delete n (sub.storageKey upload.docType) (.cleaning sub (uploaded.erase upload) false))
  := by
  have hdek : upload.dek ∈ (s.calls n).deks := by
    rw [hphase]
    exact List.mem_map_of_mem hmem
  refine hs.delete ?_ ?_ trivial
  · intro m sub' uploaded' hm hcall upload' hmem' hkey
    obtain ⟨object, hobject, hblob⟩ := (hs.calls m).uploads hcall hmem'
    rw [hkey] at hobject
    have hsame : upload'.dek = upload.dek :=
      congrArg Blob.dek (hblob.symm.trans (hown object hobject))
    have hdek' := Phase.dek_of_uploads hcall hmem'
    rw [hsame] at hdek'
    exact hm (hk.exclusive m n upload.dek hdek' hdek)
  · intro id row hrow hkey
    obtain ⟨object, hobject, _, hdocument⟩ := hs.documents id row hrow
    rw [hkey] at hobject
    rw [hown object hobject] at hdocument
    apply hk.unused id row n hrow
    rw [hdocument]
    exact hdek

/-- The documents of a submission are committed. -/
theorem Stored.commit (hp : Progress hashPlaintext s) (hs : Stored s)
    (hphase : s.calls n = .running sub uploaded (.inserting []))
    (hstored : phase.Stored s.storage) :
  Stored (s.commit n phase)
  := by
  have hentered : Stored (s.enter n phase) := hs.step rfl rfl rfl hstored
  refine ⟨hentered.calls, ?_⟩
  intro id row hview
  rcases of_view hview with hwritten | ⟨_, hcommitted⟩
  · obtain ⟨upload, hupload, _, rfl⟩ := Writes.document (hp.calls hphase).1 id row hwritten
    obtain ⟨object, hobject, hblob⟩ := (hs.calls n).uploads (by rw [hphase]; rfl) hupload
    refine ⟨object, hobject, ?_, ?_⟩
    · rw [hblob]
      rfl
    · rw [hblob]
      rfl
  · exact hs.documents id row hcommitted

theorem Stored.call (hs : Stored s) (hphase : s.calls n = phase) :
  phase.Stored s.storage
  := by
  subst hphase
  exact hs.calls n

theorem Step.stored (hp : Progress hashPlaintext s) (hk : Keyed s) (hs : Stored s)
    (h : Step hashPlaintext orphanGrace s l s') (hcareful : Careful s l s') :
  Stored s'
  := by
  cases h with
  | start | list | uploadedSome | fail | crash => exact hs.step rfl rfl rfl trivial
  | check => exact hs.step rfl rfl rfl fun _ hmem => by cases hmem
  | known =>
    refine hs.step rfl rfl rfl fun key hmem => ?_
    exact of_decide_eq_true (List.mem_filter.mp hmem).2
  | upload hphase _ hnone =>
    apply hs.upload hnone
    intro upload hmem
    rcases List.mem_cons.mp hmem with rfl | hold
    · exact ⟨_, Function.update_self .., rfl⟩
    · obtain ⟨object, hobject, hblob⟩ := (hs.call hphase).uploads rfl hold
      exact ⟨object, upload_storage hnone hobject, hblob⟩
  | uploadLost hphase _ hnone =>
    apply hs.upload hnone
    intro upload hmem
    obtain ⟨object, hobject, hblob⟩ := (hs.call hphase).uploads rfl hmem
    exact ⟨object, upload_storage hnone hobject, hblob⟩
  | uploadFail hphase | uploaded hphase | claim hphase | save hphase | insert hphase =>
    have hbefore := hs.call hphase
    exact hs.step rfl rfl rfl hbefore
  | commit hphase | commitLost hphase => exact hs.commit hp hphase trivial
  | clean hphase hmem =>
    obtain ⟨rfl, hown⟩ := hcareful
    exact hs.clean hk hphase hmem hown
  | @sweep n key orphans known hphase =>
    obtain ⟨hrows, huploads⟩ := hcareful
    have hunknown := hs.call hphase
    apply hs.delete
    · exact fun m sub uploaded _ hcall upload hmem => huploads m sub uploaded hcall upload hmem
    · exact fun id row hrow hkey => hunknown key List.mem_cons_self (hrows id row hrow hkey)
    · exact fun key' hmem => hunknown key' (List.mem_cons_of_mem key hmem)
  | review => exact ⟨hs.calls, hs.documents⟩
  | tick => exact ⟨hs.calls, hs.documents⟩

/-! ### The runs -/

theorem kept_init (h : (system hashPlaintext orphanGrace).init s) :
  Progress hashPlaintext s ∧ Complete s ∧ Keyed s ∧ Stored s
  := by
  obtain ⟨husers, hsubmissions, hdocuments, huserWrites, hsubmissionWrites, hdocumentWrites,
    hidle⟩ := h
  refine ⟨⟨fun userId => ?_, ?_, ?_, ?_, ?_⟩, ⟨?_, ?_, ?_⟩, ⟨?_, ?_, ?_, ?_⟩, ⟨?_, ?_⟩⟩
  · apply consistent_of_clean hsubmissionWrites
    intro id id' row row' h
    cases (hsubmissions id).symm.trans h
  · exact consistent_of_clean hdocumentWrites fun _ _ _ _ _ _ hp => hp.elim
  · intro n
    rw [hidle]
    exact ⟨huserWrites n, hsubmissionWrites n, hdocumentWrites n⟩
  · intro n
    rw [hidle]
    trivial
  · exact fun n id row _ => hdocuments id
  · intro id row h
    cases (hsubmissions id).symm.trans h
  · intro id row h
    cases (hdocuments id).symm.trans h
  · exact fun userId h => absurd h (husers userId)
  · intro n dek h
    rw [hidle] at h
    cases h
  · intro id row h
    cases (hdocuments id).symm.trans h
  · intro m n dek h
    rw [hidle] at h
    cases h
  · intro id row n h
    cases (hdocuments id).symm.trans h
  · intro n
    rw [hidle]
    trivial
  · intro id row h
    cases (hdocuments id).symm.trans h

theorem Step.atomic (h : Step hashPlaintext orphanGrace s l s') :
  Atomic s l s'
  := by
  intro hcommit hreview
  cases h with
  | commit | commitLost => exact absurd rfl hcommit
  | review => exact absurd rfl hreview
  | _ => exact ⟨rfl, rfl, rfl⟩

theorem Reachable.kept (h : ((system hashPlaintext orphanGrace).restrict Careful).Reachable s) :
  Kept s
  := by
  obtain ⟨hp, hc, _, hs⟩ : Progress hashPlaintext s ∧ Complete s ∧ Keyed s ∧ Stored s := by
    apply h.invariant
    · intro s₀ hinit
      have hinit : (system hashPlaintext orphanGrace).init s₀ := hinit
      exact kept_init hinit
    · rintro s₁ l s₂ ⟨hp, hc, hk, hs⟩ ⟨hstep, hcareful⟩
      exact ⟨hstep.progress hp, hstep.complete hp hc, hstep.keyed hp hk,
        hstep.stored hp hk hs hcareful⟩
  refine ⟨?_, ?_, hc.pending⟩
  · intro id row hrow
    obtain ⟨sub, hsub, hkey, haad⟩ := hc.owner id row hrow
    obtain ⟨object, hobject, hblob, hdek⟩ := hs.documents id row hrow
    refine ⟨sub, object, hsub, hkey, hobject, hblob, ?_⟩
    rw [← hdek, ← haad]
  · intro userId id id' row row' hrow hrow' hpending hpending'
    exact (hp.submissions userId).unique id id' row row' hrow hrow' hpending hpending'

/-- The evidence is kept in every run whose steps are careful, and what is not committed changes no
row. -/
theorem kept_of_careful :
  (∀ s, ((system hashPlaintext orphanGrace).restrict Careful).Reachable s → Kept s)
    ∧ ((system hashPlaintext orphanGrace).restrict Careful).EveryStep Atomic
  := by
  constructor
  · exact fun s h => Reachable.kept h
  · exact fun s l s' _ hstep => Step.atomic hstep.1

/-- A submission of the user `0`. -/
def sampleSubmission : Submission := ⟨0, [7], [8], fun _ => ⟨[1, 2], [3]⟩⟩

/-- What is uploaded for it, when the given number of keys has been made. -/
def sampleUploads (deks : ℕ) : List Upload :=
  [⟨.selfie, deks + 3⟩, ⟨.proofOfAddress, deks + 2⟩, ⟨.govIdBack, deks + 1⟩, ⟨.govIdFront, deks⟩]

/-- Nothing was submitted. -/
def sampleState : State where
  users := { committed := fun _ => some .notSubmitted, writes := fun _ _ => none }
  submissions := { committed := fun _ => none, writes := fun _ _ => none }
  documents := { committed := fun _ => none, writes := fun _ _ => none }
  storage := fun _ => none
  deks := 0
  now := 0
  calls := fun _ => .idle

theorem sampleState_reachable (hashPlaintext : JsString → JsString) (orphanGrace : ℕ) :
  ((system hashPlaintext orphanGrace).restrict Careful).Reachable sampleState
  := .init ⟨(fun _ h => by cases h), fun _ => rfl, fun _ => rfl, fun _ => rfl, fun _ => rfl,
    fun _ => rfl, fun _ => rfl⟩

/-- The tables and the bucket are as they were when nothing was submitted, and no call of the
user has been made. -/
structure Fresh (s : State) : Prop where
  users : s.users = sampleState.users
  submissions : s.submissions = sampleState.submissions
  documents : s.documents = sampleState.documents
  storage : s.storage = sampleState.storage
  idle : s.calls 0 = .idle

section Sample

variable {deks : ℕ}

/-- The documents are uploaded. -/
theorem sampleUploaded (h : ((system hashPlaintext orphanGrace).restrict Careful).Reachable s)
    (hfresh : Fresh s) (hdeks : s.deks = deks) :
  ∃ s', ((system hashPlaintext orphanGrace).restrict Careful).Reachable s'
    ∧ s'.users = sampleState.users ∧ s'.submissions = sampleState.submissions
    ∧ s'.documents = sampleState.documents
    ∧ s'.calls = Function.update s.calls 0
      (.running sampleSubmission (sampleUploads deks) .claiming)
  := by
  obtain ⟨users, submissions, documents, storage, _, now, calls⟩ := s
  obtain ⟨rfl, rfl, rfl, rfl, hidle⟩ := hfresh
  obtain rfl := hdeks
  have hstart := h.step ⟨@Step.start _ _ _ 0 sampleSubmission hidle, trivial⟩
  have hcheck := hstart.step ⟨@Step.check _ _ _ 0 sampleSubmission .notSubmitted
    rfl rfl (by decide) (by decide), trivial⟩
  have hfront := hcheck.step ⟨@Step.upload _ _ _ 0 sampleSubmission .govIdFront _ _ _
    rfl (by decide) rfl, trivial⟩
  have hback := hfront.step ⟨@Step.upload _ _ _ 0 sampleSubmission .govIdBack _ _ _
    rfl (by decide) rfl, trivial⟩
  have haddress := hback.step ⟨@Step.upload _ _ _ 0 sampleSubmission .proofOfAddress _ _ _
    rfl (by decide) rfl, trivial⟩
  have hselfie := haddress.step ⟨@Step.upload _ _ _ 0 sampleSubmission .selfie _ _ _
    rfl (by decide) rfl, trivial⟩
  have huploaded := hselfie.step ⟨@Step.uploaded _ _ _ 0 sampleSubmission _
    rfl, trivial⟩
  refine ⟨_, huploaded, rfl, rfl, rfl, ?_⟩
  simp [State.enter, State.upload, sampleUploads]

/-- The rows are written. -/
theorem sampleInserted (h : ((system hashPlaintext orphanGrace).restrict Careful).Reachable s)
    (hfresh : Fresh s) (hdeks : s.deks = deks) :
  ∃ s', ((system hashPlaintext orphanGrace).restrict Careful).Reachable s'
    ∧ s'.calls = Function.update s.calls 0
      (.running sampleSubmission (sampleUploads deks) (.inserting []))
    ∧ s'.documents.view 0 ([7], .selfie)
      = some (sampleSubmission.document hashPlaintext ⟨.selfie, deks + 3⟩)
  := by
  obtain ⟨s', hs', husers, hsubmissions, hdocuments, hcalls⟩ := sampleUploaded h hfresh hdeks
  obtain ⟨users, submissions, documents, storage, _, now, calls⟩ := s'
  obtain rfl : users = sampleState.users := husers
  obtain rfl : submissions = sampleState.submissions := hsubmissions
  obtain rfl : documents = sampleState.documents := hdocuments
  obtain rfl := hcalls
  have hclaim := hs'.step ⟨@Step.claim _ _ _ 0 sampleSubmission (sampleUploads deks) rfl rfl
    (fun _ _ => rfl), trivial⟩
  have hsave := hclaim.step ⟨@Step.save _ _ _ 0 sampleSubmission (sampleUploads deks) none _ rfl
    (fun _ _ h => by cases h) rfl (fun _ _ => rfl)
    ⟨(fun _ _ _ h => by cases h), (fun _ _ _ _ h => by cases h)⟩, trivial⟩
  have hselfie := hsave.step ⟨@Step.insert _ _ _ 0 sampleSubmission _ _ _ _ rfl rfl rfl
    (fun _ => rfl), trivial⟩
  have haddress := hselfie.step ⟨@Step.insert _ _ _ 0 sampleSubmission _ _ _ _ rfl rfl rfl
    (fun m => write_writes_of_ne_key (by simp)), trivial⟩
  have hback := haddress.step ⟨@Step.insert _ _ _ 0 sampleSubmission _ _ _ _ rfl rfl rfl
    (fun m => (write_writes_of_ne_key (by simp)).trans (write_writes_of_ne_key (by simp))),
    trivial⟩
  have hfront := hback.step ⟨@Step.insert _ _ _ 0 sampleSubmission _ _ _ _ rfl rfl rfl
    (fun m => (write_writes_of_ne_key (by simp)).trans
      ((write_writes_of_ne_key (by simp)).trans (write_writes_of_ne_key (by simp)))), trivial⟩
  refine ⟨_, hfront, ?_, rfl⟩
  simp [State.enter]

end Sample

/-- A submission of the user `1`. -/
def failedSubmission : Submission := ⟨1, [9], [8], fun _ => ⟨[1], [3]⟩⟩

/-- Of two uploads of the submission one is reported to have failed. The submission deletes the
other, and a sweep deletes what is left. -/
theorem sampleSwept :
  ∃ s, ((system id 0).restrict Careful).Reachable s ∧ Fresh s ∧ s.deks = 2
    ∧ s.calls 1 = .cleaning failedSubmission [] false ∧ s.calls 2 = .sweeping [] []
  := by
  have hstart := (sampleState_reachable id 0).step
    ⟨@Step.start _ _ _ 1 failedSubmission rfl, trivial⟩
  have hcheck := hstart.step ⟨@Step.check _ _ _ 1 failedSubmission .notSubmitted rfl rfl
    (by decide) (by decide), trivial⟩
  have hselfie := hcheck.step ⟨@Step.upload _ _ _ 1 failedSubmission .selfie _ _ _ rfl
    (by decide) rfl, trivial⟩
  have haddress := hselfie.step ⟨@Step.uploadLost _ _ _ 1 failedSubmission .proofOfAddress _ _ _ rfl
    (by decide) rfl, trivial⟩
  have hback := haddress.step ⟨@Step.uploadFail _ _ _ 1 failedSubmission .govIdBack _ _ _ rfl
    (by decide), trivial⟩
  have hfront := hback.step ⟨@Step.uploadFail _ _ _ 1 failedSubmission .govIdFront _ _ _ rfl
    (by decide), trivial⟩
  have hsome := hfront.step ⟨@Step.uploadedSome _ _ _ 1 failedSubmission _ rfl, trivial⟩
  have hclean := hsome.step ⟨@Step.clean _ _ _ 1 failedSubmission _ ⟨.selfie, 0⟩ false rfl
    (by decide), rfl, fun object hobject => by cases hobject; rfl⟩
  have htick := hclean.step ⟨@Step.tick _ _ _, trivial⟩
  have hlist := htick.step ⟨@Step.list _ _ _ 2 [failedSubmission.storageKey .proofOfAddress] rfl
    (by
      intro key hkey
      obtain rfl := List.mem_singleton.mp hkey
      exact ⟨_, rfl, Nat.zero_lt_one⟩), trivial⟩
  have hknown := hlist.step ⟨@Step.known _ _ _ 2 _ [] rfl (by
    intro key
    constructor
    · intro hkey
      cases hkey
    · rintro ⟨_, _, hrow, _⟩
      cases hrow), trivial⟩
  have hsweep := hknown.step ⟨@Step.sweep _ _ _ 2 _ _ _ rfl, by
    constructor
    · intro _ _ hrow
      cases hrow
    · intro n _ _ huploads
      match n with
      | 0 | 1 | 2 | _ + 3 => cases huploads⟩
  refine ⟨_, hsweep, ⟨rfl, rfl, rfl, ?_, rfl⟩, rfl, rfl, rfl⟩
  funext key
  by_cases haddress : key = failedSubmission.storageKey .proofOfAddress
  · subst haddress
    rfl
  · by_cases hselfie : key = failedSubmission.storageKey .selfie
    · subst hselfie
      rfl
    · simp [State.delete, State.enter, State.upload, haddress, hselfie]

theorem kept_of_careful_sample :
  ∃ s, s.calls 1 = .cleaning failedSubmission [] false ∧ s.calls 2 = .sweeping [] []
    ∧ s.documents.committed ([7], .selfie) ≠ none ∧ Kept s
  := by
  obtain ⟨s₀, hs₀, hfresh, hdeks, hclean, hsweep⟩ := sampleSwept
  obtain ⟨s, hs, hcalls, hview⟩ := sampleInserted hs₀ hfresh hdeks
  have hcommit := hs.step ⟨@Step.commit _ _ _ 0 _ _ (by rw [hcalls, Function.update_self]), trivial⟩
  refine ⟨_, ?_, ?_, ?_, kept_of_careful.1 _ hcommit⟩
  · simp [State.commit, hcalls, hclean]
  · simp [State.commit, hcalls, hsweep]
  · exact Option.ne_none_iff_exists'.mpr ⟨_, hview⟩

/-- That a submission is committed is not acknowledged, and it deletes its documents. -/
theorem not_forall_kept :
  ¬ ∀ hashPlaintext orphanGrace s, (system hashPlaintext orphanGrace).Reachable s → Kept s
  := by
  intro h
  obtain ⟨s, hs, hcalls, hview⟩ := sampleInserted (sampleState_reachable id 24)
    ⟨rfl, rfl, rfl, rfl, rfl⟩ rfl
  have hs := System.Reachable.of_restrict (system id 24) hs
  have hcommit := hs.step (@Step.commitLost _ _ _ 0 _ _ (by rw [hcalls, Function.update_self]))
  have hclean := hcommit.step (@Step.clean _ _ _ 0 sampleSubmission (sampleUploads 0) ⟨.selfie, 3⟩
    true rfl (by decide))
  obtain ⟨_, object, _, _, hobject, _⟩ := (h id 24 _ hclean).evidence _ _ hview
  have hdeleted : Function.update s.storage (sampleSubmission.storageKey .selfie) none
      (sampleSubmission.storageKey .selfie) = some object := hobject
  rw [Function.update_self] at hdeleted
  cases hdeleted

end Kyc
