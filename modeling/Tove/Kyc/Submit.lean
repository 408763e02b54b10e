import Tove.Base.ReadCommitted
import Tove.Base.Transition
import Tove.Js

/-!
# The submission of KYC documents

A submission encrypts its four documents, each with a key of its own, and uploads them; then it
moves the status of the user, and inserts the rows of the submission and of its documents, in
one transaction at READ COMMITTED. Where the documents are stored is determined by the user and
the idempotency key, and what is stored there is not overwritten. When anything fails, what was
uploaded is deleted. A sweep deletes what is old and has no row.

A submission may be made with an idempotency key with which others are in progress: the sentinel
of the key may have expired. What is encrypted is kept as what it was made from.
-/

namespace Kyc

open Js ReadCommitted

/-! ### The rows and the objects -/

/-- `KycStatus`. -/
inductive KycStatus where
  | notSubmitted
  | pendingReview
  | whitelisted
  | frozen
  | removed
  deriving DecidableEq, Repr

/-- `KycSubmissionStatus`. -/
inductive KycSubmissionStatus where
  | pendingReview
  | approved
  | rejected
  deriving DecidableEq, Repr

/-- `KycDocType`. -/
inductive KycDocType where
  | govIdFront
  | govIdBack
  | proofOfAddress
  | selfie
  deriving DecidableEq, Repr

/-- `KYC_REQUIRED_DOC_TYPES`. -/
def requiredDocTypes : List KycDocType := [.govIdFront, .govIdBack, .proofOfAddress, .selfie]

/-- `kycObjectKey`, which is also what a document is bound to when it is encrypted. -/
structure ObjectKey where
  userId : ℕ
  submissionId : JsString
  docType : KycDocType
  deriving DecidableEq, Repr

/-- A row of `kyc_submissions`. -/
structure KycSubmission where
  userId : ℕ
  status : KycSubmissionStatus
  claimedJurisdiction : JsString
  supersedesSubmissionId : Option JsString
  createdAt : ℕ
  deriving DecidableEq, Repr

/-- `UQ_kyc_submissions_one_pending_per_user`. -/
def KycSubmission.PendingOf (userId : ℕ) (row : KycSubmission) : Prop :=
  row.userId = userId ∧ row.status = .pendingReview

/-- The key of a document, wrapped for what the document is bound to. -/
structure WrappedDek where
  dek : ℕ
  aad : ObjectKey
  deriving DecidableEq, Repr

/-- A document that is encrypted. -/
structure Blob where
  dek : ℕ
  aad : ObjectKey
  plaintext : JsString
  deriving DecidableEq, Repr

/-- A row of `kyc_documents`; its key are the submission and the type. -/
structure KycDocument where
  storageKey : ObjectKey
  encryptedDek : WrappedDek
  blobHash : JsString
  contentType : JsString
  byteSize : ℕ
  deriving DecidableEq, Repr

/-- What is stored in the bucket. -/
structure Object where
  blob : Blob
  createdAt : ℕ
  deriving DecidableEq, Repr

/-! ### The calls -/

/-- A file that is submitted. -/
structure KycFile where
  buffer : JsString
  contentType : JsString
  deriving DecidableEq, Repr

/-- What is submitted, under the id that is made of the user and the idempotency key. -/
structure Submission where
  userId : ℕ
  submissionId : JsString
  claimedJurisdiction : JsString
  files : KycDocType → KycFile

/-- A document that has been uploaded, with its key. -/
structure Upload where
  docType : KycDocType
  dek : ℕ
  deriving DecidableEq, Repr

def Submission.storageKey (sub : Submission) (docType : KycDocType) : ObjectKey where
  userId := sub.userId
  submissionId := sub.submissionId
  docType

/-- `encryptDocument`, of a file. -/
def Submission.blob (sub : Submission) (upload : Upload) : Blob where
  dek := upload.dek
  aad := sub.storageKey upload.docType
  plaintext := (sub.files upload.docType).buffer

/-- The row of a document. -/
def Submission.document (hashPlaintext : JsString → JsString) (sub : Submission) (upload : Upload) :
    KycDocument where
  storageKey := sub.storageKey upload.docType
  encryptedDek := ⟨upload.dek, sub.storageKey upload.docType⟩
  blobHash := hashPlaintext (sub.files upload.docType).buffer
  contentType := (sub.files upload.docType).contentType
  byteSize := (sub.files upload.docType).buffer.length

/-- How far a transaction is: the status of the user is about to be moved, the submission to be
saved, or the rest of the documents to be inserted. -/
inductive Stage where
  | claiming
  | saving
  | inserting (rest : List Upload)
  deriving DecidableEq, Repr

/-- A call is idle. A submission is about to read the status of the user, to upload the rest of
its documents, knowing what it has uploaded and whether an upload has failed; or it has a
transaction. When it has failed, what it has uploaded is to be deleted; `committed` says that
its transaction was committed all the same. A sweep has listed objects, and then it knows the
keys of the rows. -/
inductive Phase where
  | idle
  | checking (sub : Submission)
  | uploading (sub : Submission) (rest : List KycDocType) (uploaded : List Upload) (failed : Bool)
  | running (sub : Submission) (uploaded : List Upload) (stage : Stage)
  | cleaning (sub : Submission) (uploaded : List Upload) (committed : Bool)
  | listed (candidates : List ObjectKey)
  | sweeping (orphans known : List ObjectKey)

/-- The tables, the bucket, the number of keys that were made, the time, and the calls. -/
structure State where
  users : Store ℕ KycStatus
  submissions : Store JsString KycSubmission
  documents : Store (JsString × KycDocType) KycDocument
  storage : ObjectKey → Option Object
  deks : ℕ
  now : ℕ
  calls : ℕ → Phase

def State.enter (s : State) (n : ℕ) (phase : Phase) : State :=
  { s with calls := Function.update s.calls n phase }

/-- A document is encrypted with a new key, and its upload is stored. -/
def State.upload (s : State) (n : ℕ) (sub : Submission) (docType : KycDocType) (phase : Phase) :
    State :=
  { s with
    storage := Function.update s.storage (sub.storageKey docType)
      (some ⟨sub.blob ⟨docType, s.deks⟩, s.now⟩)
    deks := s.deks + 1
    calls := Function.update s.calls n phase }

/-- An object is deleted. -/
def State.delete (s : State) (n : ℕ) (key : ObjectKey) (phase : Phase) : State :=
  { s with
    storage := Function.update s.storage key none
    calls := Function.update s.calls n phase }

def State.commit (s : State) (n : ℕ) (phase : Phase) : State :=
  { s with
    users := s.users.commit n
    submissions := s.submissions.commit n
    documents := s.documents.commit n
    calls := Function.update s.calls n phase }

def State.abort (s : State) (n : ℕ) (phase : Phase) : State :=
  { s with
    users := s.users.abort n
    submissions := s.submissions.abort n
    documents := s.documents.abort n
    calls := Function.update s.calls n phase }

/-- The latest submission of a user that a transaction sees. -/
def Latest (db : Store JsString KycSubmission) (n userId : ℕ) :
    Option (JsString × KycSubmission) → Prop
  | none => ∀ id row, db.view n id = some row → row.userId ≠ userId
  | some prior => db.view n prior.1 = some prior.2 ∧ prior.2.userId = userId
    ∧ ∀ id row, db.view n id = some row → row.userId = userId → row.createdAt ≤ prior.2.createdAt

/-- The submission that is superseded. -/
def supersedes (prior : Option (JsString × KycSubmission)) : Option JsString :=
  prior.bind fun prior => if prior.2.status = .rejected then some prior.1 else none

/-- The row of a submission. `save` overwrites a row with its id, if there is one. -/
def Submission.row (sub : Submission) (prior : Option (JsString × KycSubmission))
    (existing : Option KycSubmission) (now : ℕ) : KycSubmission where
  userId := sub.userId
  status := .pendingReview
  claimedJurisdiction := sub.claimedJurisdiction
  supersedesSubmissionId := supersedes prior
  createdAt := existing.elim now (·.createdAt)

/-- What is seen of a step: a transaction is committed; a submission is reviewed; an upload is
deleted by the submission that made it, or an object is deleted by a sweep that knows the keys
of the rows; or something else happens. -/
inductive Label where
  | commit
  | review
  | clean (sub : Submission) (upload : Upload) (committed : Bool)
  | sweep (key : ObjectKey) (known : List ObjectKey)
  | other

section Steps

variable (hashPlaintext : JsString → JsString) (orphanGrace : ℕ)

/-- The statements of the calls, and the requests to the bucket. -/
inductive Step : State → Label → State → Prop where
  | start {s : State} {n : ℕ} {sub : Submission} : s.calls n = .idle →
      Step s .other (s.enter n (.checking sub))
  /-- `assertResubmitAllowed`. -/
  | check {s : State} {n : ℕ} {sub : Submission} {status : KycStatus} :
      s.calls n = .checking sub → s.users.committed sub.userId = some status →
      status ≠ .pendingReview → status ≠ .whitelisted →
      Step s .other (s.enter n (.uploading sub requiredDocTypes [] false))
  | upload {s : State} {n : ℕ} {sub : Submission} {docType : KycDocType} {rest : List KycDocType}
      {uploaded : List Upload} {failed : Bool} :
      s.calls n = .uploading sub rest uploaded failed → docType ∈ rest →
      s.storage (sub.storageKey docType) = none →
      Step s .other (s.upload n sub docType
        (.uploading sub (rest.erase docType) (⟨docType, s.deks⟩ :: uploaded) failed))
  /-- An upload fails, since there is an object already, or otherwise. -/
  | uploadFail {s : State} {n : ℕ} {sub : Submission} {docType : KycDocType}
      {rest : List KycDocType}
      {uploaded : List Upload} {failed : Bool} :
      s.calls n = .uploading sub rest uploaded failed → docType ∈ rest →
      Step s .other (s.enter n (.uploading sub (rest.erase docType) uploaded true))
  /-- An upload is reported to have failed, and is stored all the same. -/
  | uploadLost {s : State} {n : ℕ} {sub : Submission} {docType : KycDocType}
      {rest : List KycDocType}
      {uploaded : List Upload} {failed : Bool} :
      s.calls n = .uploading sub rest uploaded failed → docType ∈ rest →
      s.storage (sub.storageKey docType) = none →
      Step s .other
        (s.upload n sub docType (.uploading sub (rest.erase docType) uploaded true))
  | uploaded {s : State} {n : ℕ} {sub : Submission} {uploaded : List Upload} :
      s.calls n = .uploading sub [] uploaded false →
      Step s .other (s.enter n (.running sub uploaded .claiming))
  | uploadedSome {s : State} {n : ℕ} {sub : Submission} {uploaded : List Upload} :
      s.calls n = .uploading sub [] uploaded true →
      Step s .other (s.enter n (.cleaning sub uploaded false))
  /-- The status of the user is moved. -/
  | claim {s : State} {n : ℕ} {sub : Submission} {uploaded : List Upload} :
      s.calls n = .running sub uploaded .claiming →
      s.users.view n sub.userId = some .notSubmitted → s.users.Free n sub.userId →
      Step s .other (State.enter { s with users := s.users.write n sub.userId .pendingReview } n
        (.running sub uploaded .saving))
  /-- The submission is saved. -/
  | save {s : State} {n : ℕ} {sub : Submission} {uploaded : List Upload}
      {prior : Option (JsString × KycSubmission)} {row : KycSubmission} :
      s.calls n = .running sub uploaded .saving → Latest s.submissions n sub.userId prior →
      row = sub.row prior (s.submissions.view n sub.submissionId) s.now →
      s.submissions.Free n sub.submissionId →
      s.submissions.Admits (KycSubmission.PendingOf sub.userId) n sub.submissionId →
      Step s .other
        (State.enter { s with submissions := s.submissions.write n sub.submissionId row } n
          (.running sub uploaded (.inserting uploaded)))
  /-- A document is inserted; `UQ_kyc_documents_submission_doctype` refuses a second one. -/
  | insert {s : State} {n : ℕ} {sub : Submission} {uploaded rest : List Upload} {upload : Upload}
      {id : JsString × KycDocType} : s.calls n = .running sub uploaded (.inserting (upload :: rest)) →
      id = (sub.submissionId, upload.docType) → s.documents.committed id = none →
      (∀ m, s.documents.writes m id = none) →
      Step s .other
        (State.enter
          { s with documents := s.documents.write n id (sub.document hashPlaintext upload) } n
          (.running sub uploaded (.inserting rest)))
  | commit {s : State} {n : ℕ} {sub : Submission} {uploaded : List Upload} :
      s.calls n = .running sub uploaded (.inserting []) →
      Step s .commit (s.commit n .idle)
  /-- The transaction is committed, and this is not acknowledged. -/
  | commitLost {s : State} {n : ℕ} {sub : Submission} {uploaded : List Upload} :
      s.calls n = .running sub uploaded (.inserting []) →
      Step s .commit (s.commit n (.cleaning sub uploaded true))
  /-- A statement fails, and the transaction is rolled back. -/
  | fail {s : State} {n : ℕ} {sub : Submission} {uploaded : List Upload} {stage : Stage} :
      s.calls n = .running sub uploaded stage →
      Step s .other (s.abort n (.cleaning sub uploaded false))
  /-- `cleanup`. -/
  | clean {s : State} {n : ℕ} {sub : Submission} {uploaded : List Upload} {upload : Upload}
      {committed : Bool} : s.calls n = .cleaning sub uploaded committed → upload ∈ uploaded →
      Step s (.clean sub upload committed) (s.delete n (sub.storageKey upload.docType)
        (.cleaning sub (uploaded.erase upload) committed))
  /-- `listObjectsOlderThan`. -/
  | list {s : State} {n : ℕ} {candidates : List ObjectKey} : s.calls n = .idle →
      (∀ key ∈ candidates, ∃ object, s.storage key = some object
        ∧ object.createdAt + orphanGrace < s.now) →
      Step s .other (s.enter n (.listed candidates))
  /-- The rows are read. -/
  | known {s : State} {n : ℕ} {candidates known : List ObjectKey} :
      s.calls n = .listed candidates →
      (∀ key, key ∈ known ↔ ∃ id row, s.documents.committed id = some row ∧ row.storageKey = key) →
      Step s .other (s.enter n (.sweeping (candidates.filter (· ∉ known)) known))
  | sweep {s : State} {n : ℕ} {key : ObjectKey} {orphans known : List ObjectKey} :
      s.calls n = .sweeping (key :: orphans) known →
      Step s (.sweep key known) (s.delete n key (.sweeping orphans known))
  /-- A submission is reviewed, which is not modelled here. -/
  | review {s : State} {id : JsString} {row : KycSubmission} {status : KycStatus}
      {outcome : KycSubmissionStatus} : s.submissions.committed id = some row →
      (∀ m, s.submissions.writes m id = none) → (∀ m, s.users.writes m row.userId = none) →
      status ≠ .pendingReview → outcome ≠ .pendingReview →
      Step s .review
        { s with
          users :=
            { s.users with committed := Function.update s.users.committed row.userId (some status) }
          submissions :=
            { s.submissions with
              committed :=
                Function.update s.submissions.committed id (some { row with status := outcome }) } }
  | tick {s : State} : Step s .other { s with now := s.now + 1 }
  /-- A request is refused, a deletion fails, or the process crashes. -/
  | crash {s : State} {n : ℕ} : Step s .other (s.abort n .idle)

/-- The submissions and the sweeps as a transition system. At first nothing was submitted. -/
def system : Transition.System State Label where
  init s := (∀ userId, s.users.committed userId ≠ some .pendingReview)
    ∧ (∀ id, s.submissions.committed id = none) ∧ (∀ id, s.documents.committed id = none)
    ∧ (∀ n, s.users.writes n = fun _ => none) ∧ (∀ n, s.submissions.writes n = fun _ => none)
    ∧ (∀ n, s.documents.writes n = fun _ => none) ∧ ∀ n, s.calls n = .idle
  step := Step hashPlaintext orphanGrace

end Steps

/-! ### What is to hold -/

/-- Each document has its object, which was made with the key of the document, for the user, the
submission and the type. A user has at most one submission that is pending, and has one when the
status says so. -/
structure Kept (s : State) : Prop where
  evidence : ∀ id row, s.documents.committed id = some row → ∃ sub object,
    s.submissions.committed id.1 = some sub ∧ row.storageKey = ⟨sub.userId, id.1, id.2⟩
      ∧ s.storage row.storageKey = some object ∧ object.blob.aad = row.storageKey
      ∧ row.encryptedDek = ⟨object.blob.dek, row.storageKey⟩
  atMostOne : ∀ userId id id' row row', s.submissions.committed id = some row →
    s.submissions.committed id' = some row' → row.PendingOf userId →
      row'.PendingOf userId → id = id'
  pending : ∀ userId, s.users.committed userId = some .pendingReview →
    ∃ id row, s.submissions.committed id = some row ∧ row.PendingOf userId

/-- What is not committed, or reviewed, leaves the tables as they are. -/
def Atomic (s : State) (l : Label) (s' : State) : Prop :=
  l ≠ .commit → l ≠ .review → s'.users.committed = s.users.committed
    ∧ s'.submissions.committed = s.submissions.committed
    ∧ s'.documents.committed = s.documents.committed

/-- The documents that a submission in progress has uploaded. -/
def Phase.uploads : Phase → Option (Submission × List Upload)
  | .uploading sub _ uploaded _ | .running sub uploaded _ => some (sub, uploaded)
  | _ => none

/-- A submission that deletes an upload was not committed, and the object is still the one that
it has uploaded. When a sweep deletes an object, no row of its key was committed since the sweep
read the rows, and it was not uploaded by a submission that is still in progress. -/
def Careful (s : State) (l : Label) (_ : State) : Prop :=
  match l with
  | .clean sub upload committed => committed = false
    ∧ ∀ object, s.storage (sub.storageKey upload.docType) = some object →
      object.blob = sub.blob upload
  | .sweep key known =>
    (∀ id row, s.documents.committed id = some row → row.storageKey = key → key ∈ known)
      ∧ ∀ n sub uploaded, (s.calls n).uploads = some (sub, uploaded) →
        ∀ upload ∈ uploaded, sub.storageKey upload.docType ≠ key
  | .commit | .review | .other => True

end Kyc
