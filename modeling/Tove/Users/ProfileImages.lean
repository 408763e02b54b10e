import Mathlib.Data.List.Basic
import Tove.Base.Calls
import Tove.Base.ReadCommitted
import Tove.Base.Transition

/-!
# Profile images

An image is uploaded, and a worker makes its derivatives, which are private. When the image
becomes the avatar of its user, the derivatives are published, and the row of the user refers to
it. An image that is no longer the avatar, or is deleted, is deleted softly, and its objects are
deleted. A reaper deletes the objects and the rows of images that were abandoned or deleted,
when no user refers to them.

Each statement is a step, and so is each request to the storage. A statement that has to wait
for the row of a user has seen the other rows as they were when it began.
-/

namespace ProfileImages

open ReadCommitted

/-! ### The rows and the objects -/

/-- `ProfileImageStatus`. -/
inductive ProfileImageStatus where
  | pending
  | processing
  | ready
  | failed
  deriving DecidableEq, Repr

/-- `PROFILE_DERIVATIVE_SPECS`: 64, 256 and 512 pixels. -/
inductive Size where
  | thumb
  | card
  | hero
  deriving DecidableEq, Repr

def derivativeSpecs : List Size := [.thumb, .card, .hero]

/-- `profileSourcePath`. -/
structure SourcePath where
  userId : ℕ
  imageId : ℕ
  deriving DecidableEq, Repr

/-- The paths in the private and in the public bucket. -/
inductive Path where
  | source (path : SourcePath)
  | privateDerivative (imageId : ℕ) (size : Size)
  | publicDerivative (imageId : ℕ) (size : Size)
  deriving DecidableEq, Repr

/-- A row of `profile_images`. -/
structure ProfileImage where
  userId : ℕ
  status : ProfileImageStatus
  sourcePath : SourcePath
  createdAt : ℕ
  updatedAt : ℕ
  deletedAt : Option ℕ
  deriving DecidableEq, Repr

/-- A row of `users`. -/
structure User where
  profileImageId : Option ℕ
  deriving DecidableEq, Repr

/-- `PROFILE_ORPHAN_GRACE_HOURS`, in minutes. -/
def orphanGrace : ℕ := 24 * 60

/-- `PROFILE_PROCESSING_STUCK_MINUTES`. -/
def stuckMinutes : ℕ := 10

/-- `PROFILE_PROCESSING_FAIL_MINUTES`. -/
def failMinutes : ℕ := 60

/-- `DELETE_CHUNK`. -/
def deleteChunk : ℕ := 100

/-! ### The calls -/

/-- What a call is about to do. An upload that is committed has found its image pending. A
worker is to store the rest of the derivatives. A reconcile pass has read the rows that are
stuck, with the times of their updates, after it has taken the time. An update knows the image
that is to be the avatar, if any, and the avatar before; it is to download and to upload
derivatives, waits for the row of the user, or is to retire the avatar before. A deletion has a
transaction, in which it is to clear the avatar, or which is to be committed. A reaper pass has
read the rows that are stale. At last objects are removed, each list in one request, and then
rows are deleted. -/
inductive Phase where
  | idle
  | committing (userId imageId : ℕ)
  | deriving (imageId : ℕ) (rest : List Size)
  | reconciling (start : ℕ) (rows : List (ℕ × ℕ))
  | updating (userId : ℕ) (newId priorId : Option ℕ)
  | publishing (userId imageId : ℕ) (priorId : Option ℕ) (rest buffered : List Size)
  | waiting (userId imageId : ℕ) (priorId : Option ℕ)
  | retiring (userId : ℕ) (newId priorId : Option ℕ)
  | clearing (userId imageId : ℕ)
  | deleting (userId imageId : ℕ)
  | reaping (stale : List (ℕ × ProfileImage))
  | purging (removals : List (List Path)) (rows : List ℕ)
  deriving DecidableEq

/-- The tables, the objects that are stored, the next id of an image, the time in minutes, and the
calls. -/
structure State where
  users : Store ℕ User
  images : Store ℕ ProfileImage
  stored : Path → Bool
  nextImage : ℕ
  now : ℕ
  calls : ℕ → Phase

def State.enter (s : State) (n : ℕ) (phase : Phase) : State :=
  { s with calls := Function.update s.calls n phase }

/-- An object is stored. -/
def State.store (s : State) (path : Path) : State :=
  { s with stored := Function.update s.stored path true }

/-- Objects are removed. -/
def State.remove (s : State) (paths : List Path) : State :=
  { s with stored := fun path => s.stored path && path ∉ paths }

def State.putImage (s : State) (imageId : ℕ) (row : Option ProfileImage) : State :=
  { s with images := s.images.put imageId row }

def State.putUser (s : State) (userId : ℕ) (user : User) : State :=
  { s with users := s.users.put userId (some user) }

/-- A row of an image is deleted, and with it the references to it: `FK_users_profile_image` is
`ON DELETE SET NULL`. -/
def State.hardDelete (s : State) (imageId : ℕ) : State :=
  { s with
    images := s.images.put imageId none
    users :=
      { s.users with
        committed := fun userId => (s.users.committed userId).map fun user =>
          if user.profileImageId = some imageId then ⟨none⟩ else user } }

def State.commit (s : State) (n : ℕ) : State :=
  { s with users := s.users.commit n, images := s.images.commit n }

def State.abort (s : State) (n : ℕ) : State :=
  { s with users := s.users.abort n, images := s.images.abort n }

/-- No transaction holds the row of an image. -/
def State.ImageFree (s : State) (imageId : ℕ) : Prop := ∀ m, s.images.writes m imageId = none

/-- No transaction holds the row of a user. -/
def State.UserFree (s : State) (userId : ℕ) : Prop := ∀ m, s.users.writes m userId = none

/-- A user refers to an image. -/
def State.Refers (s : State) (userId imageId : ℕ) : Prop :=
  ∃ user, s.users.committed userId = some user ∧ user.profileImageId = some imageId

/-- An image is ready, not deleted, and one of the user. -/
def ProfileImage.ReadyOf (userId : ℕ) (row : ProfileImage) : Prop :=
  row.userId = userId ∧ row.status = .ready ∧ row.deletedAt = none

/-- `softDelete`. -/
def ProfileImage.softDelete (row : ProfileImage) (now : ℕ) : ProfileImage :=
  { row with deletedAt := some now, updatedAt := now }

def ProfileImage.withStatus (row : ProfileImage) (status : ProfileImageStatus) (now : ℕ) :
    ProfileImage :=
  { row with status, updatedAt := now }

/-- `unpublishImage` and `purgePrivate`. -/
def removals (userId imageId : ℕ) : List (List Path) :=
  derivativeSpecs.map (fun size => [.publicDerivative imageId size])
    ++ [.source ⟨userId, imageId⟩] :: derivativeSpecs.map (fun size => [.privateDerivative imageId size])

/-- The requests of `deleteMany`. -/
def slices (paths : List Path) : List (List Path) :=
  (List.range ((paths.length + deleteChunk - 1) / deleteChunk)).map fun k =>
    (paths.drop (k * deleteChunk)).take deleteChunk

/-- What a reaper pass removes. -/
def reapRemovals (rows : List (ℕ × ProfileImage)) : List (List Path) :=
  slices (rows.flatMap fun img => derivativeSpecs.map fun size => .publicDerivative img.1 size)
    ++ slices (rows.flatMap fun img =>
      derivativeSpecs.map (fun size => .privateDerivative img.1 size) ++ [.source img.2.sourcePath])

/-- What is seen of a step: an update retires an image; the deletion of an image is committed; a
call stops before it is done; or something else happens. -/
inductive Label where
  | retire (userId imageId : ℕ)
  | delete (n userId imageId : ℕ)
  | stop (n : ℕ)
  | other

/-- The statements of the calls, and the requests to the storage. -/
inductive Step : State → Label → State → Prop where
  /-- `createPending`. -/
  | requestUpload {s : State} {userId : ℕ} :
      Step s .other { s.putImage s.nextImage
        (some ⟨userId, .pending, ⟨userId, s.nextImage⟩, s.now, s.now, none⟩) with
        nextImage := s.nextImage + 1 }
  /-- The client stores the source. -/
  | put {s : State} {path : SourcePath} : Step s .other (s.store (.source path))
  | commitUpload {s : State} {n userId imageId : ℕ} {row : ProfileImage} : s.calls n = .idle →
      s.images.committed imageId = some row → row.userId = userId → row.deletedAt = none →
      row.status = .pending → Step s .other (s.enter n (.committing userId imageId))
  /-- `claimForProcessing`. -/
  | claimForProcessing {s : State} {n userId imageId : ℕ} {row : ProfileImage} :
      s.calls n = .committing userId imageId → s.ImageFree imageId →
      s.images.committed imageId = some row → row.userId = userId → row.status = .pending →
      row.deletedAt = none →
      Step s .other ((s.putImage imageId (some (row.withStatus .processing s.now))).enter n .idle)
  /-- `markFailed`, when what was uploaded is refused, or cannot be read by the worker. -/
  | markFailed {s : State} {n imageId : ℕ} {row : ProfileImage} :
      (∃ userId, s.calls n = .committing userId imageId)
        ∨ s.calls n = .deriving imageId derivativeSpecs →
      s.ImageFree imageId → s.images.committed imageId = some row →
      row.status = .pending ∨ row.status = .processing → row.deletedAt = none →
      Step s .other ((s.putImage imageId (some (row.withStatus .failed s.now))).enter n .idle)
  /-- The worker finds the row, and downloads the source. -/
  | generate {s : State} {n imageId : ℕ} {row : ProfileImage} : s.calls n = .idle →
      s.images.committed imageId = some row → row.deletedAt = none → row.status = .processing →
      s.stored (.source row.sourcePath) →
        Step s .other (s.enter n (.deriving imageId derivativeSpecs))
  | derive {s : State} {n imageId : ℕ} {size : Size} {rest : List Size} :
      s.calls n = .deriving imageId (size :: rest) →
      Step s .other ((s.store (.privateDerivative imageId size)).enter n (.deriving imageId rest))
  /-- `markReady`. -/
  | markReady {s : State} {n imageId : ℕ} {row : ProfileImage} : s.calls n = .deriving imageId [] →
      s.ImageFree imageId → s.images.committed imageId = some row → row.status = .processing →
      row.deletedAt = none →
      Step s .other ((s.putImage imageId (some (row.withStatus .ready s.now))).enter n .idle)
  /-- `findStuckProcessing`. -/
  | reconcile {s : State} {n : ℕ} {rows : List (ℕ × ℕ)} : s.calls n = .idle → rows.length ≤ 100 →
      (∀ img ∈ rows, ∃ row, s.images.committed img.1 = some row ∧ row.deletedAt = none
        ∧ row.status = .processing ∧ row.updatedAt = img.2 ∧ img.2 + stuckMinutes < s.now) →
      Step s .other (s.enter n (.reconciling s.now rows))
  | reconcileFailed {s : State} {n start imageId updatedAt : ℕ} {rows : List (ℕ × ℕ)}
      {row : ProfileImage} : s.calls n = .reconciling start ((imageId, updatedAt) :: rows) →
      updatedAt + failMinutes < start → s.ImageFree imageId →
      s.images.committed imageId = some row → row.status = .pending ∨ row.status = .processing →
      row.deletedAt = none →
      Step s .other ((s.putImage imageId (some (row.withStatus .failed s.now))).enter n
        (.reconciling start rows))
  /-- The job is added again, and a worker may run; or there is nothing to be marked. -/
  | reconciled {s : State} {n start : ℕ} {img : ℕ × ℕ} {rows : List (ℕ × ℕ)} :
      s.calls n = .reconciling start (img :: rows) →
      Step s .other (s.enter n (.reconciling start rows))
  | updateProfile {s : State} {n userId : ℕ} {newId : Option ℕ} {user : User} : s.calls n = .idle →
      s.users.committed userId = some user →
      Step s .other (s.enter n (.updating userId newId user.profileImageId))
  /-- `updateProfileFields`, with no image. -/
  | clear {s : State} {n userId : ℕ} {priorId : Option ℕ} : s.calls n = .updating userId none priorId →
      s.UserFree userId →
      Step s .other ((s.putUser userId ⟨none⟩).enter n (.retiring userId none priorId))
  /-- `findOwned`. -/
  | find {s : State} {n userId imageId : ℕ} {priorId : Option ℕ} {row : ProfileImage} :
      s.calls n = .updating userId (some imageId) priorId →
      s.images.committed imageId = some row → row.ReadyOf userId →
      Step s .other (s.enter n (.publishing userId imageId priorId derivativeSpecs []))
  | download {s : State} {n userId imageId : ℕ} {priorId : Option ℕ} {rest buffered : List Size}
      {size : Size} : s.calls n = .publishing userId imageId priorId rest buffered → size ∈ rest →
      s.stored (.privateDerivative imageId size) →
      Step s .other (s.enter n
        (.publishing userId imageId priorId (rest.erase size) (size :: buffered)))
  | upload {s : State} {n userId imageId : ℕ} {priorId : Option ℕ} {rest buffered : List Size}
      {size : Size} : s.calls n = .publishing userId imageId priorId rest buffered →
      size ∈ buffered →
      Step s .other ((s.store (.publicDerivative imageId size)).enter n
        (.publishing userId imageId priorId rest (buffered.erase size)))
  /-- `activateAvatar`. -/
  | activate {s : State} {n userId imageId : ℕ} {priorId : Option ℕ} {row : ProfileImage}
      {user : User} :
      s.calls n = .publishing userId imageId priorId [] [] → s.UserFree userId →
      s.users.committed userId = some user → s.images.committed imageId = some row →
      row.ReadyOf userId → Step s .other ((s.putUser userId ⟨some imageId⟩).enter n
        (.retiring userId (some imageId) priorId))
  /-- The statement begins while a transaction holds the row of the user. -/
  | wait {s : State} {n m userId imageId : ℕ} {priorId : Option ℕ} {row : ProfileImage}
      {user : User} :
      s.calls n = .publishing userId imageId priorId [] [] → s.users.writes m userId = some user →
      s.images.committed imageId = some row → row.ReadyOf userId →
      Step s .other (s.enter n (.waiting userId imageId priorId))
  /-- The row is free, and the image is still there. -/
  | resume {s : State} {n userId imageId : ℕ} {priorId : Option ℕ} {row : ProfileImage}
      {user : User} :
      s.calls n = .waiting userId imageId priorId → s.UserFree userId →
      s.users.committed userId = some user → s.images.committed imageId = some row →
      Step s .other ((s.putUser userId ⟨some imageId⟩).enter n
        (.retiring userId (some imageId) priorId))
  /-- `softDeleteOwned`. -/
  | retire {s : State} {n userId imageId : ℕ} {newId : Option ℕ} {row : ProfileImage} :
      s.calls n = .retiring userId newId (some imageId) → newId ≠ some imageId →
      s.ImageFree imageId → s.images.committed imageId = some row → row.userId = userId →
      Step s (.retire userId imageId) ((s.putImage imageId (some (row.softDelete s.now))).enter n
        (.purging (removals userId imageId) []))
  /-- There is no row to be retired. -/
  | retireNone {s : State} {n userId imageId : ℕ} {newId : Option ℕ} :
      s.calls n = .retiring userId newId (some imageId) → newId ≠ some imageId →
      (∀ row, s.images.committed imageId = some row → row.userId ≠ userId) →
      Step s .other (s.enter n (.purging (removals userId imageId) []))
  | keep {s : State} {n userId : ℕ} {newId priorId : Option ℕ} :
      s.calls n = .retiring userId newId priorId → priorId = none ∨ priorId = newId →
      Step s .other (s.enter n .idle)
  /-- `softDeleteAndClearAvatar` begins. -/
  | deleteImage {s : State} {n userId imageId : ℕ} {row : ProfileImage} : s.calls n = .idle →
      s.ImageFree imageId → s.images.committed imageId = some row → row.userId = userId →
      Step s .other
        (State.enter { s with images := s.images.write n imageId (row.softDelete s.now) } n
          (.clearing userId imageId))
  | clearAvatar {s : State} {n userId imageId : ℕ} : s.calls n = .clearing userId imageId →
      s.Refers userId imageId → s.UserFree userId →
      Step s .other (State.enter { s with users := s.users.write n userId ⟨none⟩ } n
        (.deleting userId imageId))
  | clearNone {s : State} {n userId imageId : ℕ} : s.calls n = .clearing userId imageId →
      ¬ s.Refers userId imageId → Step s .other (s.enter n (.deleting userId imageId))
  | commit {s : State} {n userId imageId : ℕ} : s.calls n = .deleting userId imageId →
      Step s (.delete n userId imageId)
        ((s.commit n).enter n (.purging (removals userId imageId) []))
  /-- The first query of `findReapable`. -/
  | findStale {s : State} {n : ℕ} {stale : List (ℕ × ProfileImage)} : s.calls n = .idle →
      stale.length ≤ 200 →
      (∀ img ∈ stale, s.images.committed img.1 = some img.2 ∧ img.2.deletedAt = none
        ∧ img.2.status ≠ .processing ∧ img.2.createdAt + orphanGrace < s.now
        ∧ ∀ userId, ¬ s.Refers userId img.1) →
      Step s .other (s.enter n (.reaping stale))
  /-- The second query. -/
  | findDeleted {s : State} {n : ℕ} {stale deleted : List (ℕ × ProfileImage)} :
      s.calls n = .reaping stale → stale.length + deleted.length ≤ 200 →
      (∀ img ∈ deleted, s.images.committed img.1 = some img.2 ∧ img.2.deletedAt ≠ none
        ∧ ∀ userId, ¬ s.Refers userId img.1) →
      Step s .other (s.enter n (.purging (reapRemovals (stale ++ deleted))
        ((stale ++ deleted).map (·.1))))
  | purge {s : State} {n : ℕ} {paths : List Path} {removals : List (List Path)} {rows : List ℕ} :
      s.calls n = .purging (paths :: removals) rows →
      Step s .other ((s.remove paths).enter n (.purging removals rows))
  /-- A request fails, which is logged. -/
  | purgeFail {s : State} {n : ℕ} {paths : List Path} {removals : List (List Path)}
      {rows : List ℕ} :
      s.calls n = .purging (paths :: removals) rows →
      Step s .other (s.enter n (.purging removals rows))
  | hardDelete {s : State} {n imageId : ℕ} {rows : List ℕ} :
      s.calls n = .purging [] (imageId :: rows) → s.ImageFree imageId →
      (∀ userId, s.Refers userId imageId → s.UserFree userId) →
      Step s .other ((s.hardDelete imageId).enter n (.purging [] rows))
  | purged {s : State} {n : ℕ} : s.calls n = .purging [] [] → Step s .other (s.enter n .idle)
  | tick {s : State} : Step s .other { s with now := s.now + 1 }
  /-- A request is refused, a statement fails, or the process crashes. -/
  | stop {s : State} {n : ℕ} : Step s (.stop n) ((s.abort n).enter n .idle)

/-! ### What is to hold -/

/-- The avatar of a user is an image of the user that is ready, with its public derivatives. -/
def Intact (s : State) : Prop :=
  ∀ userId imageId, s.Refers userId imageId → ∃ row, s.images.committed imageId = some row
    ∧ row.ReadyOf userId ∧ ∀ size, s.stored (.publicDerivative imageId size)

/-- No call is in progress. -/
def Quiet (s : State) : Prop := ∀ n, s.calls n = .idle

/-- The requests and the passes as a transition system. At first the avatars are intact. -/
def system : Transition.System State Label where
  init s := Quiet s ∧ Intact s ∧ (∀ imageId row, s.images.committed imageId = some row →
      imageId < s.nextImage)
    ∧ (∀ n, s.users.writes n = fun _ => none) ∧ ∀ n, s.images.writes n = fun _ => none
  step := Step

/-- A derivative that a call has published, of the image that is to be the avatar. -/
def Phase.Published (imageId : ℕ) (size : Size) : Phase → Prop
  | .publishing _ imageId' _ rest buffered => imageId' = imageId ∧ size ∉ rest ∧ size ∉ buffered
  | .waiting _ imageId' _ => imageId' = imageId
  | _ => False

/-- A public derivative is one of an avatar, or is published for one. -/
def State.Needs (s : State) (imageId : ℕ) (size : Size) : Prop :=
  (∃ userId, s.Refers userId imageId) ∨ ∃ m, (s.calls m).Published imageId size

/-- The row of an image is deleted. -/
def State.Gone (s : State) (imageId : ℕ) : Prop :=
  imageId < s.nextImage ∧ ∀ row, s.images.committed imageId = some row → row.deletedAt ≠ none

/-- The rows that a call is to delete. -/
def Phase.rows : Phase → List ℕ
  | .purging _ rows => rows
  | _ => []

/-- An image is retired, or its deletion is committed, when it is not the avatar, and no
statement waits that is to make it the avatar. A call stops when no public derivative is missing
of the images whose rows it was to delete, unless it is not needed or the image is gone. -/
def Careful (s : State) (l : Label) (_ : State) : Prop :=
  match l with
  | .retire userId imageId => ¬ s.Refers userId imageId
    ∧ ∀ m priorId, s.calls m ≠ .waiting userId imageId priorId
  | .delete n userId imageId => s.users.view n userId ≠ some ⟨some imageId⟩
    ∧ ∀ m priorId, s.calls m ≠ .waiting userId imageId priorId
  | .stop n => ∀ imageId ∈ (s.calls n).rows, ∀ size, s.Needs imageId size →
    s.stored (.publicDerivative imageId size) ∨ s.Gone imageId
  | .other => True

end ProfileImages
