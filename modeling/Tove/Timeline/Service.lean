import Mathlib.Data.Prod.Lex
import Tove.Base.Keyset
import Tove.Fractions.DeployWorker
import Tove.Timeline.Cursor

/-!
# The timeline of an artwork

`TimelineService.getTimeline` returns a page of the events of an artwork, the newest first, and a
cursor for the next page when there is one.  The repository compares the events with the cursor
in SQL; `Postgres` reads the time and the id of the cursor from the texts that are bound to the
query.
-/

namespace Timeline

open Checks Js Fractionalization

/-! ### Events -/

/-- `TIMELINE_EVENT_TYPES`. -/
inductive TimelineEventType where
  | artwork_verification
  | fractionalization
  | exhibition
  | loan
  | condition_report
  | secondary_trade
  | admin_note
  | technical
  | attestation
  deriving DecidableEq

/-- `VISIBILITY_TIERS`. -/
inductive VisibilityTier where
  | default
  | expanded
  deriving DecidableEq

def DEFAULT_TIER_EVENT_TYPES : List TimelineEventType :=
  [.artwork_verification, .fractionalization, .exhibition, .loan, .condition_report,
    .secondary_trade]

/-- The tier of an event, a generated column. -/
def tierForEventType (eventType : TimelineEventType) : VisibilityTier :=
  if eventType ∈ DEFAULT_TIER_EVENT_TYPES then .default else .expanded

/-- A row of `artwork_timeline_events`. -/
structure ArtworkTimelineEvent where
  id : Uuid
  artworkId : Uuid
  eventType : TimelineEventType
  isPublished : Bool
  occurredAt : Date
  summary : Option JsString
  eventData : Json.Value Json.Number
  isDeleted : Bool

/-- The columns of `artworks` that decide whether it is visible. -/
structure Artwork where
  status : ArtworkStatus
  isDeleted : Bool

structure Database where
  artworks : Uuid → Option Artwork
  events : List ArtworkTimelineEvent

/-- The order of the timeline: by time, and then by id. -/
def ArtworkTimelineEvent.position (e : ArtworkTimelineEvent) : ℤ ×ₗ Uuid :=
  toLex (e.occurredAt.ms, e.id)

/-! ### Postgres -/

/-- How Postgres reads texts as `timestamptz`, in milliseconds, and as `uuid`. -/
structure Postgres where
  timestamptz : JsString → Option ℤ
  uuid : JsString → Option Uuid

/-- Postgres reads the canonical text of a UUID, and an ISO 8601 text with a year of four digits
exactly. A text that begins with a sign is not read as a date: the sign begins a time zone. -/
structure Postgres.Documented (pg : Postgres) : Prop where
  uuid_text : ∀ u : Uuid, pg.uuid u.text = some u
  timestamptz_iso : ∀ d : Date, 1 ≤ d.year → d.year ≤ 9999 →
    pg.timestamptz d.toISOString = some d.ms
  timestamptz_signed : ∀ d : Date, 9999 < d.year → pg.timestamptz d.toISOString = none

/-- What a request fails with: an exception with a response of its own, or an error that becomes
a response with the status 500. -/
inductive Failure where
  | http (e : HttpException)
  | queryFailed
  | rangeError
  deriving DecidableEq

/-! ### The repository -/

def PUBLIC_VISIBLE_STATUSES : List ArtworkStatus := [.verified, .fractionalized]

structure TimelineEventRecord where
  id : JsString
  eventType : TimelineEventType
  visibilityTier : VisibilityTier
  occurredAt : Date
  summary : Option JsString
  eventData : Json.Value Json.Number

def toRecord (e : ArtworkTimelineEvent) : TimelineEventRecord where
  id := e.id.text
  eventType := e.eventType
  visibilityTier := tierForEventType e.eventType
  occurredAt := e.occurredAt
  summary := e.summary
  eventData := e.eventData

structure TimelinePageArgs where
  artworkId : JsString
  expand : Bool
  limit : ℕ
  cursor : Option CursorPosition

structure TimelinePage where
  events : List TimelineEventRecord
  hasMore : Bool

/-- The published events of an artwork; only those of the default tier, unless `expand` is set. -/
def Database.published (db : Database) (artworkId : Uuid) (expand : Bool) :
    List ArtworkTimelineEvent :=
  db.events.filter fun e => e.artworkId = artworkId ∧ !e.isDeleted ∧ e.isPublished
    ∧ (expand ∨ tierForEventType e.eventType = .default)

section Repository

variable (pg : Postgres) (db : Database)

def existsVisibleArtwork (id : JsString) : Except Failure Bool := do
  let id ← orReject (pg.uuid id) .queryFailed
  return (db.artworks id).any fun a => a.status ∈ PUBLIC_VISIBLE_STATUSES ∧ !a.isDeleted

/-- The time and the id that are bound to the query, as Postgres reads them. -/
def boundCursor (cursor : CursorPosition) : Except Failure (ℤ ×ₗ Uuid) := do
  let date ← orReject (Date.ofMs cursor.occurredAtMs) .rangeError
  let occurredAt ← orReject (pg.timestamptz date.toISOString) .queryFailed
  let id ← orReject (pg.uuid cursor.id) .queryFailed
  return toLex (occurredAt, id)

/-- The rows of the query: below the cursor, the newest first, one more than the page holds. -/
def queryPage (args : TimelinePageArgs) : Except Failure (List ArtworkTimelineEvent) := do
  let artworkId ← orReject (pg.uuid args.artworkId) .queryFailed
  let cursor ← args.cursor.mapM (boundCursor pg)
  let rows := Keyset.after ArtworkTimelineEvent.position cursor (db.published artworkId args.expand)
  return (Keyset.descending ArtworkTimelineEvent.position rows).take (args.limit + 1)

def page (args : TimelinePageArgs) : Except Failure TimelinePage := do
  let rows ← queryPage pg db args
  let hasMore := rows.length > args.limit
  let events := (if hasMore then rows.take args.limit else rows).map toRecord
  return { events, hasMore }

/-- How many published events of the other tier there are. -/
def countExpanded (artworkId : JsString) : Except Failure ℕ := do
  let artworkId ← orReject (pg.uuid artworkId) .queryFailed
  return db.events.countP fun e => e.artworkId = artworkId ∧ !e.isDeleted ∧ e.isPublished
    ∧ tierForEventType e.eventType = .expanded

end Repository

/-! ### The response -/

def METADATA_ALLOWLIST : TimelineEventType → List JsString
  | .fractionalization => ["tokenAddress", "deployLedger", "txHash"].map Utf8.text
  | .secondary_trade => ["fractionCount", "pricePerFractionStroops", "settledAt"].map Utf8.text
  | _ => []

/-- The properties that may be shown, unless they are `null`. -/
def projectMetadata (eventType : TimelineEventType) (eventData : Json.Value Json.Number) :
    List (JsString × Json.Value Json.Number) :=
  (METADATA_ALLOWLIST eventType).filterMap fun key =>
    ((eventData.property key).filter (!·.isNull)).map (key, ·)

structure TimelineEventResponseDto where
  id : JsString
  eventType : TimelineEventType
  visibilityTier : VisibilityTier
  occurredAt : JsString
  summary : Option JsString
  metadata : List (JsString × Json.Value Json.Number)

def TimelineEventResponseDto.ofRecord (record : TimelineEventRecord) : TimelineEventResponseDto where
  id := record.id
  eventType := record.eventType
  visibilityTier := record.visibilityTier
  occurredAt := record.occurredAt.toISOString
  summary := record.summary
  metadata := projectMetadata record.eventType record.eventData

structure TimelineResponseDto where
  events : List TimelineEventResponseDto
  additionalEventsCount : ℕ
  nextCursor : Option JsString

/-! ### The service -/

structure TimelineQueryDto where
  expand : Bool
  limit : ℕ
  cursor : Option JsString

def artworkNotFound : HttpException where
  statusCode := 404
  error := "Not Found"
  message := "Artwork not found"
  errorCode := "ARTWORK_NOT_FOUND"

section Service

variable (pg : Postgres) (isUUID : JsString → Bool) (db : Database)

def getTimeline (id : JsString) (query : TimelineQueryDto) :
    Except Failure TimelineResponseDto := do
  rejectIf (¬ isUUID id) (.http artworkNotFound)
  let visible ← existsVisibleArtwork pg db id
  rejectIf (¬ visible) (.http artworkNotFound)
  -- an empty cursor is none
  let raw := query.cursor.filter (· ≠ [])
  let cursor ← raw.mapM fun raw => (decodeCursor isUUID raw).mapError .http
  let page ← page pg db { artworkId := id, expand := query.expand, limit := query.limit, cursor }
  let additionalEventsCount ← if query.expand ∨ raw.isSome then pure 0 else countExpanded pg db id
  let nextCursor := if page.hasMore then
      page.events.getLast?.map fun last => encodeCursor ⟨last.occurredAt.ms, last.id⟩
    else none
  return { events := page.events.map .ofRecord, additionalEventsCount, nextCursor }

/-- The requests of a client that follows the cursors, each at the state of the database at its
time. -/
def followCursors (id : JsString) (expand : Bool) (limit : ℕ) :
    Option JsString → List Database → Except Failure (List TimelineResponseDto)
  | _, [] => return []
  | cursor, db :: later => do
    let response ← getTimeline pg isUUID db id { expand, limit, cursor }
    match response.nextCursor with
    | none => return [response]
    | some cursor => return response :: (← followCursors id expand limit (some cursor) later)

end Service

end Timeline
