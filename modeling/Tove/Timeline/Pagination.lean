import Tove.Timeline.Service

/-!
# The timeline is read page by page

The pages that a client gets by following the cursors are those of keyset pagination over the
published events, with one exception: Postgres does not read the time of a cursor from the year
10000 on.
-/

namespace Timeline

open Checks Js

/-- The event of a response for a row. -/
def respond (e : ArtworkTimelineEvent) : TimelineEventResponseDto := .ofRecord (toRecord e)

/-- The cursor that points to an event. -/
def cursorOf (e : ArtworkTimelineEvent) : JsString :=
  encodeCursor ⟨e.occurredAt.ms, e.id.text⟩

/-- The time of an event is not before 1970, and its id is a UUID of the standard. -/
structure ArtworkTimelineEvent.WellFormed (e : ArtworkTimelineEvent) : Prop where
  epoch : 0 ≤ e.occurredAt.ms
  standard : e.id.Standard

/-- The artwork is visible, ids are unique, and its published events are well formed. -/
structure Database.Ready (db : Database) (id : Uuid) (expand : Bool) : Prop where
  visible : ∃ a, db.artworks id = some a ∧ a.status ∈ PUBLIC_VISIBLE_STATUSES ∧ a.isDeleted = false
  nodup : (db.events.map ArtworkTimelineEvent.id).Nodup
  wellFormed : ∀ e ∈ db.published id expand, e.WellFormed

/-- New events have been inserted. -/
def Database.Inserts (db db' : Database) : Prop := ∀ e ∈ db.events, e ∈ db'.events

/-- The last response has no cursor. -/
def Ended (rs : List TimelineResponseDto) : Prop := ∃ r ∈ rs.getLast?, r.nextCursor = none

/-- Responses with the given pages of events deliver the timeline from a state of the database on:
the events are in strictly descending order across the pages, no event is there twice, a cursor is
accepted and decodes to the position of the last event of its page, and when the responses have
come to an end, every event that was there at the start is among them. -/
structure Delivers (isUUID : JsString → Bool) (db : Database) (id : Uuid) (expand : Bool)
    (rs : List TimelineResponseDto) (pages : List (List ArtworkTimelineEvent)) : Prop where
  events : rs.map (·.events) = pages.map (·.map respond)
  descending : pages.flatten.Pairwise fun e e' => e'.position < e.position
  nodup : (pages.flatten.map ArtworkTimelineEvent.id).Nodup
  cursors : List.Forall₂ (fun r page => ∀ cursor ∈ r.nextCursor, ∃ e ∈ page.getLast?,
    decodeCursor isUUID cursor = .ok ⟨e.occurredAt.ms, e.id.text⟩) rs pages
  complete : Ended rs → ∀ e ∈ db.published id expand, e ∈ pages.flatten

/-- Pagination from a state of the database on loses and repeats nothing: the requests succeed and
deliver the timeline, whatever is inserted between them, and when nothing is inserted, they come to
an end after as many pages as the events fill. -/
structure Paginates (pg : Postgres) (isUUID : JsString → Bool) (id : Uuid) (expand : Bool)
    (limit : ℕ) (db : Database) : Prop where
  delivers : ∀ later : List Database, (db :: later).IsChain Database.Inserts →
    (∀ db' ∈ later, db'.Ready id expand) →
    ∃ rs pages, followCursors pg isUUID id.text expand limit none (db :: later) = .ok rs
      ∧ Delivers isUUID db id expand rs pages
  ends : ∀ k, Keyset.pageCount limit (db.published id expand).length ≤ k →
    ∃ rs, followCursors pg isUUID id.text expand limit none (List.replicate k db) = .ok rs
      ∧ rs.length = Keyset.pageCount limit (db.published id expand).length ∧ Ended rs

section Requests

variable {pg : Postgres} {isUUID : JsString → Bool} {db : Database} {id : Uuid} {expand : Bool}
  {limit : ℕ} {e : ArtworkTimelineEvent}

theorem nodup_position (h : (db.events.map ArtworkTimelineEvent.id).Nodup) (id : Uuid)
    (expand : Bool) :
  ((db.published id expand).map ArtworkTimelineEvent.position).Nodup
  := by
  have hids : ((db.published id expand).map ArtworkTimelineEvent.id).Nodup :=
    h.sublist (List.filter_sublist.map _)
  apply List.Nodup.of_map fun p => (ofLex p).2
  rw [List.map_map]
  exact hids

/-- The cursor of an event is accepted, and gives its position. -/
theorem decode_cursorOf (hUUID : ∀ u : Uuid, u.Standard → isUUID u.text = true)
    (he : e.WellFormed) :
  decodeCursor isUUID (cursorOf e) = .ok ⟨e.occurredAt.ms, e.id.text⟩
  := by
  apply decodeCursor_encodeCursor he.epoch _ (hUUID e.id he.standard) (Uuid.ascii_text e.id)
  have habs := e.occurredAt.abs_le
  rwa [abs_of_nonneg he.epoch] at habs

theorem cursorOf_ne_nil (hUUID : ∀ u : Uuid, u.Standard → isUUID u.text = true)
    (he : e.WellFormed) :
  cursorOf e ≠ []
  := by
  intro hnil
  have hdecode := decode_cursorOf hUUID he
  rw [hnil] at hdecode
  cases hdecode

theorem ofMs_ms (d : Date) :
  Date.ofMs d.ms = some d
  := dif_pos d.abs_le

theorem year_pos {d : Date} (h : 0 ≤ d.ms) :
  1 ≤ d.year
  := by
  have hle : (⟨0, by decide⟩ : Date).year ≤ d.year := Date.year_le h
  exact le_trans (by decide) hle

/-- Postgres reads the position of an event before the year 10000. -/
theorem boundCursor_eq (hpg : pg.Documented) (he : e.WellFormed)
    (hyear : e.occurredAt.year ≤ 9999) :
  boundCursor pg ⟨e.occurredAt.ms, e.id.text⟩ = .ok e.position
  := by
  rw [boundCursor, ofMs_ms, hpg.uuid_text]
  simp only [orReject, Option.elim_some, ok_bind,
    hpg.timestamptz_iso _ (year_pos he.epoch) hyear]
  rfl

/-- Postgres fails on the position of an event from the year 10000 on. -/
theorem boundCursor_failed (hpg : pg.Documented) (hyear : 9999 < e.occurredAt.year) :
  boundCursor pg ⟨e.occurredAt.ms, e.id.text⟩ = .error .queryFailed
  := by
  rw [boundCursor, ofMs_ms]
  simp only [orReject, Option.elim_some, ok_bind, hpg.timestamptz_signed _ hyear]
  rfl

/-- The page of a database after an event. -/
def Database.page (db : Database) (id : Uuid) (expand : Bool) (limit : ℕ)
    (last : Option ArtworkTimelineEvent) : List ArtworkTimelineEvent × Bool :=
  Keyset.page ArtworkTimelineEvent.position limit (last.map ArtworkTimelineEvent.position)
    (db.published id expand)

/-- What the service responds, in the terms of keyset pagination. -/
def responseOf (db : Database) (id : Uuid) (expand : Bool) (limit : ℕ)
    (last : Option ArtworkTimelineEvent) : TimelineResponseDto where
  events := (db.page id expand limit last).1.map respond
  additionalEventsCount := if expand ∨ last.isSome then 0 else
    db.events.countP fun e => e.artworkId = id ∧ !e.isDeleted ∧ e.isPublished
      ∧ tierForEventType e.eventType = .expanded
  nextCursor := if (db.page id expand limit last).2 then
      (db.page id expand limit last).1.getLast?.map cursorOf
    else none

theorem existsVisibleArtwork_eq (hpg : pg.Documented) (hdb : db.Ready id expand) :
  existsVisibleArtwork pg db id.text = .ok true
  := by
  obtain ⟨a, ha, hstatus, hdeleted⟩ := hdb.visible
  have hany : ((db.artworks id).any fun a => a.status ∈ PUBLIC_VISIBLE_STATUSES ∧ !a.isDeleted)
      = true := by
    rw [ha]
    simp [hstatus, hdeleted]
  rw [existsVisibleArtwork, hpg.uuid_text]
  simp only [orReject, Option.elim_some, ok_bind, hany]
  rfl

/-- The page of the repository is a page of keyset pagination. -/
theorem page_eq (hpg : pg.Documented) {cursor : Option CursorPosition} {bound : Option (ℤ ×ₗ Uuid)}
    (hbound : cursor.mapM (boundCursor pg) = .ok bound) :
  page pg db ⟨id.text, expand, limit, cursor⟩
    = .ok {
      events := (Keyset.page ArtworkTimelineEvent.position limit bound
        (db.published id expand)).1.map toRecord
      hasMore := (Keyset.page ArtworkTimelineEvent.position limit bound
        (db.published id expand)).2 }
  := by
  have htake : ∀ rows : List ArtworkTimelineEvent,
      (if limit < rows.length then rows.take limit else rows) = rows.take limit := by
    intro rows
    split
    · rfl
    · rw [List.take_of_length_le (by omega)]
  rw [page, queryPage, hpg.uuid_text]
  simp only [orReject, Option.elim_some, ok_bind, hbound, gt_iff_lt, pure, Except.pure, htake]
  rfl

/-- A request with a cursor of the service, for a visible artwork, is a read of a page. -/
theorem getTimeline_of_ready (hpg : pg.Documented)
    (hUUID : ∀ u : Uuid, u.Standard → isUUID u.text = true) (hid : id.Standard)
    (hdb : db.Ready id expand) {last : Option ArtworkTimelineEvent}
    (hlast : ∀ e ∈ last, e.WellFormed) :
  getTimeline pg isUUID db id.text ⟨expand, limit, last.map cursorOf⟩
    = do
      let page ← page pg db ⟨id.text, expand, limit,
        last.map fun e => ⟨e.occurredAt.ms, e.id.text⟩⟩
      return {
        events := page.events.map .ofRecord
        additionalEventsCount := if expand ∨ last.isSome then 0 else
          db.events.countP fun e => e.artworkId = id ∧ !e.isDeleted ∧ e.isPublished
            ∧ tierForEventType e.eventType = .expanded
        nextCursor := if page.hasMore then
            page.events.getLast?.map fun last => encodeCursor ⟨last.occurredAt.ms, last.id⟩
          else none }
  := by
  have hfound : ∀ e : Failure, rejectIf (¬ isUUID id.text = true) e = .ok () :=
    fun _ => if_neg (not_not.mpr (hUUID id hid))
  have hvisible : ∀ e : Failure, rejectIf (¬ true = true) e = .ok () :=
    fun _ => if_neg (not_not.mpr rfl)
  have hraw : (last.map cursorOf).filter (· ≠ []) = last.map cursorOf := by
    cases last with
    | none => rfl
    | some e => exact Option.filter_some_pos (decide_eq_true (cursorOf_ne_nil hUUID (hlast e rfl)))
  have hdecode : (last.map cursorOf).mapM (fun raw => (decodeCursor isUUID raw).mapError Failure.http)
      = .ok (last.map fun e => ⟨e.occurredAt.ms, e.id.text⟩) := by
    cases last with
    | none => rfl
    | some e => simp [decode_cursorOf hUUID (hlast e rfl), Except.mapError]
  rw [getTimeline, hfound, ok_bind, existsVisibleArtwork_eq hpg hdb, ok_bind, hvisible, ok_bind]
  simp only [hraw, hdecode, ok_bind, Option.isSome_map, countExpanded, hpg.uuid_text, orReject,
    Option.elim_some]
  apply bind_congr_ok
  intro page _
  split <;> rfl

/-- A request is answered when the cursor can be bound. -/
theorem getTimeline_eq (hpg : pg.Documented)
    (hUUID : ∀ u : Uuid, u.Standard → isUUID u.text = true) (hid : id.Standard)
    (hdb : db.Ready id expand) {last : Option ArtworkTimelineEvent}
    (hlast : ∀ e ∈ last, e.WellFormed ∧ e.occurredAt.year ≤ 9999) :
  getTimeline pg isUUID db id.text ⟨expand, limit, last.map cursorOf⟩
    = .ok (responseOf db id expand limit last)
  := by
  have hbound : (last.map fun e => (⟨e.occurredAt.ms, e.id.text⟩ : CursorPosition)).mapM
      (boundCursor pg) = .ok (last.map ArtworkTimelineEvent.position) := by
    cases last with
    | none => rfl
    | some e =>
      obtain ⟨he, hyear⟩ := hlast e rfl
      simp [boundCursor_eq hpg he hyear]
  rw [getTimeline_of_ready hpg hUUID hid hdb fun e he => (hlast e he).1, page_eq hpg hbound, ok_bind]
  simp only [responseOf, List.map_map, List.getLast?_map, Option.map_map]
  rfl

/-- A request fails when the cursor points to an event from the year 10000 on. -/
theorem getTimeline_failed (hpg : pg.Documented)
    (hUUID : ∀ u : Uuid, u.Standard → isUUID u.text = true) (hid : id.Standard)
    (hdb : db.Ready id expand) (he : e.WellFormed) (hyear : 9999 < e.occurredAt.year) :
  getTimeline pg isUUID db id.text ⟨expand, limit, some (cursorOf e)⟩ = .error .queryFailed
  := by
  have hlast : ∀ e' ∈ some e, e'.WellFormed := by
    rintro e' ⟨⟩
    exact he
  have hpage : page pg db ⟨id.text, expand, limit, some ⟨e.occurredAt.ms, e.id.text⟩⟩
      = .error .queryFailed := by
    rw [page, queryPage, hpg.uuid_text]
    simp only [orReject, Option.elim_some, ok_bind, Option.mapM_some, boundCursor_failed hpg hyear]
    rfl
  have hread : getTimeline pg isUUID db id.text ⟨expand, limit, (some e).map cursorOf⟩ = _ :=
    getTimeline_of_ready hpg hUUID hid hdb hlast
  simp only [Option.map_some, hpage] at hread
  exact hread

end Requests

section Following

variable {pg : Postgres} {isUUID : JsString → Bool} {db : Database} {dbs : List Database}
  {id : Uuid} {expand : Bool} {limit : ℕ} {last : Option ArtworkTimelineEvent}

/-- A response with a cursor is followed by the requests from the last event of its page on. -/
theorem followCursors_of_more (hpg : pg.Documented)
    (hUUID : ∀ u : Uuid, u.Standard → isUUID u.text = true) (hid : id.Standard)
    (hdb : db.Ready id expand) (hlast : ∀ e ∈ last, e.WellFormed ∧ e.occurredAt.year ≤ 9999)
    {e : ArtworkTimelineEvent} (hmore : (db.page id expand limit last).2 = true)
    (hgetLast : (db.page id expand limit last).1.getLast? = some e) (dbs : List Database) :
  followCursors pg isUUID id.text expand limit (last.map cursorOf) (db :: dbs)
    = (responseOf db id expand limit last :: ·)
      <$> followCursors pg isUUID id.text expand limit (some (cursorOf e)) dbs
  := by
  rw [followCursors, getTimeline_eq hpg hUUID hid hdb hlast, ok_bind]
  simp only [responseOf, hmore, hgetLast]
  rfl

/-- A response without a cursor is followed by none. -/
theorem followCursors_of_end (hpg : pg.Documented)
    (hUUID : ∀ u : Uuid, u.Standard → isUUID u.text = true) (hid : id.Standard)
    (hdb : db.Ready id expand) (hlast : ∀ e ∈ last, e.WellFormed ∧ e.occurredAt.year ≤ 9999)
    (hnext : (responseOf db id expand limit last).nextCursor = none) (dbs : List Database) :
  followCursors pg isUUID id.text expand limit (last.map cursorOf) (db :: dbs)
    = .ok [responseOf db id expand limit last]
  := by
  rw [followCursors, getTimeline_eq hpg hUUID hid hdb hlast, ok_bind]
  simp only [hnext]
  rfl

theorem not_mem_none {p : ArtworkTimelineEvent → Prop} :
  ∀ e ∈ (none : Option ArtworkTimelineEvent), p e
  := fun e he => absurd he (Option.not_mem_none e)

/-- What is before an event of a four-digit year has a four-digit year. -/
theorem year_le_of_position_le {e e' : ArtworkTimelineEvent} (h : e.position ≤ e'.position)
    (hyear : e'.occurredAt.year ≤ 9999) :
  e.occurredAt.year ≤ 9999
  := by
  have hms : e.occurredAt.ms ≤ e'.occurredAt.ms := by
    rcases Prod.Lex.le_iff.mp h with hlt | ⟨heq, _⟩
    · exact hlt.le
    · exact heq.le
  exact (Date.year_le hms).trans hyear

/-- A response shows a page: its events, and a cursor to the last of them. -/
def Shows (r : TimelineResponseDto) (page : List ArtworkTimelineEvent) : Prop :=
  r.events = page.map respond ∧ ∀ cursor ∈ r.nextCursor, ∃ e ∈ page.getLast?, cursor = cursorOf e

theorem shows_responseOf (db : Database) (id : Uuid) (expand : Bool) (limit : ℕ)
    (last : Option ArtworkTimelineEvent) :
  Shows (responseOf db id expand limit last) (db.page id expand limit last).1
  := by
  refine ⟨rfl, ?_⟩
  intro cursor hcursor
  simp only [responseOf] at hcursor
  split at hcursor
  · obtain ⟨e, he, rfl⟩ := Option.mem_map.mp hcursor
    exact ⟨e, he, rfl⟩
  · cases hcursor

theorem ended_cons {r : TimelineResponseDto} (h : r.nextCursor ≠ none)
    (rs : List TimelineResponseDto) :
  Ended (r :: rs) ↔ Ended rs
  := by
  cases rs with
  | nil => simp [Ended, h]
  | cons r' rs => rw [Ended, Ended, List.getLast?_cons_cons]

/-- When every page that is not the last ends in a year of four digits, the responses are the
pages of keyset pagination. -/
theorem followCursors_walk (hpg : pg.Documented)
    (hUUID : ∀ u : Uuid, u.Standard → isUUID u.text = true) (hid : id.Standard)
    (hdbs : ∀ db ∈ dbs, db.Ready id expand)
    (hlast : ∀ e ∈ last, e.WellFormed ∧ e.occurredAt.year ≤ 9999)
    (hfirst : ∀ db ∈ dbs.head?, (db.page id expand limit last).2 = true →
      ∀ e ∈ (db.page id expand limit last).1.getLast?, e.occurredAt.year ≤ 9999) :
  ∃ rs, followCursors pg isUUID id.text expand limit (last.map cursorOf) dbs = .ok rs
    ∧ List.Forall₂ Shows rs (Keyset.walk ArtworkTimelineEvent.position limit
      (last.map ArtworkTimelineEvent.position) (dbs.map (·.published id expand))).1
    ∧ (Ended rs ↔ (Keyset.walk ArtworkTimelineEvent.position limit
      (last.map ArtworkTimelineEvent.position) (dbs.map (·.published id expand))).2 = true)
  := by
  induction dbs generalizing last with
  | nil =>
    refine ⟨[], rfl, .nil, ?_⟩
    simp [Ended, Keyset.walk]
  | cons db dbs ih =>
    obtain ⟨hdb, hdbs⟩ := List.forall_mem_cons.mp hdbs
    have hshows := shows_responseOf db id expand limit last
    rw [List.map_cons]
    by_cases hmore : ∃ e, (db.page id expand limit last).2 = true
        ∧ (db.page id expand limit last).1.getLast? = some e
    · obtain ⟨e, hmore, hgetLast⟩ := hmore
      have hmem := (Keyset.of_mem_page (List.mem_of_getLast? hgetLast)).1
      have hyear : e.occurredAt.year ≤ 9999 := hfirst db rfl hmore e hgetLast
      have he : ∀ e' ∈ some e, e'.WellFormed ∧ e'.occurredAt.year ≤ 9999 := by
        rintro e' ⟨⟩
        exact ⟨hdb.wellFormed e hmem, hyear⟩
      have hbelow : ∀ db' ∈ dbs.head?, (db'.page id expand limit (some e)).2 = true →
          ∀ e' ∈ (db'.page id expand limit (some e)).1.getLast?, e'.occurredAt.year ≤ 9999 := by
        intro db' _ _ e' he'
        have hlt := (Keyset.of_mem_page (List.mem_of_getLast? he')).2 _ rfl
        exact year_le_of_position_le hlt.le hyear
      have hnext : (responseOf db id expand limit last).nextCursor ≠ none := by
        simp only [responseOf, hmore, hgetLast]
        nofun
      obtain ⟨rs, hrs, hpages, hended⟩ := ih hdbs he hbelow
      rw [Option.map_some] at hrs
      rw [followCursors_of_more hpg hUUID hid hdb hlast hmore hgetLast, hrs,
        Keyset.walk_of_more hmore hgetLast]
      refine ⟨responseOf db id expand limit last :: rs, rfl, .cons hshows hpages, ?_⟩
      rw [ended_cons hnext rs]
      exact hended
    · have hend : ∀ e, (db.page id expand limit last).2 = true →
          (db.page id expand limit last).1.getLast? ≠ some e := by
        intro e h hgetLast
        exact hmore ⟨e, h, hgetLast⟩
      have hnext : (responseOf db id expand limit last).nextCursor = none := by
        simp only [responseOf]
        split
        · rename_i h
          rw [Option.map_eq_none_iff, Option.eq_none_iff_forall_ne_some]
          exact fun e => hend e h
        · rfl
      rw [followCursors_of_end hpg hUUID hid hdb hlast hnext, Keyset.walk_of_end hend]
      refine ⟨[responseOf db id expand limit last], rfl, .cons hshows .nil, ?_⟩
      simp only [iff_true]
      exact ⟨_, rfl, hnext⟩

/-! ### Which timelines are read page by page -/

theorem published_of_inserts {db' : Database} {e : ArtworkTimelineEvent} (h : db.Inserts db')
    (he : e ∈ db.published id expand) :
  e ∈ db'.published id expand
  := by
  obtain ⟨hmem, hpublished⟩ := List.mem_filter.mp he
  exact List.mem_filter.mpr ⟨h e hmem, hpublished⟩

instance : Trans Database.Inserts Database.Inserts Database.Inserts where
  trans h h' e he := h' e (h e he)

instance : Std.Refl Database.Inserts where
  refl _ _ he := he

/-- The last event of the first page, when it is not the last page, is dated in the year 10000 or
later just when there are as many such events as the page holds. -/
theorem first_year_iff (hdb : db.Ready id expand) {e : ArtworkTimelineEvent}
    (hmore : (db.page id expand limit none).2 = true)
    (hgetLast : (db.page id expand limit none).1.getLast? = some e) :
  9999 < e.occurredAt.year
    ↔ limit ≤ (db.published id expand).countP fun e => 9999 < e.occurredAt.year
  := by
  have hiff := Keyset.last_iff (nodup_position hdb.nodup id expand)
    (p := fun e => 9999 < e.occurredAt.year) ?_ hmore hgetLast
  · rwa [decide_eq_true_eq] at hiff
  · intro e e' hle hyear
    rw [decide_eq_true_eq] at hyear ⊢
    by_contra hnot
    exact absurd (year_le_of_position_le hle (not_lt.mp hnot)) (not_le.mpr hyear)

/-- What keyset pagination delivers. -/
theorem delivers_walk (hUUID : ∀ u : Uuid, u.Standard → isUUID u.text = true) (hlimit : 1 ≤ limit)
    (hchain : (db :: dbs).IsChain Database.Inserts)
    (hdbs : ∀ db' ∈ db :: dbs, db'.Ready id expand) {rs : List TimelineResponseDto}
    (hshows : List.Forall₂ Shows rs (Keyset.walk ArtworkTimelineEvent.position limit none
      ((db :: dbs).map (·.published id expand))).1)
    (hended : Ended rs ↔ (Keyset.walk ArtworkTimelineEvent.position limit none
      ((db :: dbs).map (·.published id expand))).2 = true) :
  Delivers isUUID db id expand rs (Keyset.walk ArtworkTimelineEvent.position limit none
    ((db :: dbs).map (·.published id expand))).1
  := by
  have hnodup : ∀ rows ∈ (db :: dbs).map (·.published id expand),
      (rows.map ArtworkTimelineEvent.position).Nodup := by
    intro rows hrows
    obtain ⟨db', hdb', rfl⟩ := List.mem_map.mp hrows
    exact nodup_position (hdbs db' hdb').nodup id expand
  have hdescending : (Keyset.walk ArtworkTimelineEvent.position limit none
      ((db :: dbs).map (·.published id expand))).1.flatten.Pairwise
        fun e e' => e'.position < e.position := Keyset.pairwise_walk hnodup none
  have hfinal : ∀ e ∈ (Keyset.walk ArtworkTimelineEvent.position limit none
      ((db :: dbs).map (·.published id expand))).1.flatten,
      e ∈ ((db :: dbs).getLast (List.cons_ne_nil db dbs)).events := by
    intro e he
    obtain ⟨rows, hrows, hmem⟩ := (Keyset.of_mem_walk he).1
    obtain ⟨db', hdb', rfl⟩ := List.mem_map.mp hrows
    exact hchain.pairwise.rel_getLast hdb' e (List.mem_of_mem_filter hmem)
  have hready := hdbs _ (List.getLast_mem (List.cons_ne_nil db dbs))
  constructor
  · rw [← List.forall₂_eq_eq_eq, List.forall₂_map_left_iff, List.forall₂_map_right_iff]
    exact hshows.imp fun r page h => h.1
  · exact hdescending
  · rw [List.Nodup, List.pairwise_map]
    refine hdescending.imp_of_mem ?_
    intro e e' he he' hlt heq
    have hsame := List.inj_on_of_nodup_map hready.nodup (hfinal e he) (hfinal e' he') heq
    rw [hsame] at hlt
    exact lt_irrefl _ hlt
  · rw [List.forall₂_iff_zip]
    refine ⟨hshows.length_eq, ?_⟩
    intro r page hzip cursor hcursor
    obtain ⟨e, he, rfl⟩ := (List.forall₂_zip hshows hzip).2 cursor hcursor
    refine ⟨e, he, decode_cursorOf hUUID ?_⟩
    have hmem := List.mem_flatten_of_mem (List.of_mem_zip hzip).2 (List.mem_of_getLast? he)
    obtain ⟨rows, hrows, hpublished⟩ := (Keyset.of_mem_walk hmem).1
    obtain ⟨db', hdb', rfl⟩ := List.mem_map.mp hrows
    exact (hdbs db' hdb').wellFormed e hpublished
  · intro hlast e he
    apply Keyset.mem_walk hlimit hnodup (hended.mp hlast) _ nofun
    intro rows hrows
    obtain ⟨db', hdb', rfl⟩ := List.mem_map.mp hrows
    rcases List.mem_cons.mp hdb' with rfl | hlater
    · exact he
    · exact published_of_inserts (hchain.rel_cons hlater) he

/-- The second request fails when the first page is not the last one and ends in the year 10000 or
later. -/
theorem followCursors_failed (hlimit : 1 ≤ limit) (hpg : pg.Documented)
    (hUUID : ∀ u : Uuid, u.Standard → isUUID u.text = true) (hid : id.Standard)
    (hdb : db.Ready id expand) (hlength : limit < (db.published id expand).length)
    (hcount : limit ≤ (db.published id expand).countP fun e => 9999 < e.occurredAt.year) :
  followCursors pg isUUID id.text expand limit none [db, db] = .error .queryFailed
  := by
  have hmore : (db.page id expand limit none).2 = true :=
    (Keyset.page_snd ArtworkTimelineEvent.position).mpr hlength
  obtain ⟨e, hgetLast⟩ := Keyset.exists_getLast hlimit hmore
  have hyear := (first_year_iff hdb hmore hgetLast).mpr hcount
  have he := hdb.wellFormed e (Keyset.of_mem_page (List.mem_of_getLast? hgetLast)).1
  have hsecond : followCursors pg isUUID id.text expand limit (some (cursorOf e)) [db]
      = .error .queryFailed := by
    rw [followCursors, getTimeline_failed hpg hUUID hid hdb he hyear]
    rfl
  have hfirst : followCursors pg isUUID id.text expand limit none [db, db] = _ :=
    followCursors_of_more hpg hUUID hid hdb not_mem_none hmore hgetLast [db]
  rw [hfirst, hsecond]
  rfl

theorem not_paginates (hdb : db.Ready id expand)
    (h : followCursors pg isUUID id.text expand limit none [db, db] = .error .queryFailed) :
  ¬ Paginates pg isUUID id expand limit db
  := by
  intro hpaginates
  have hchain : [db, db].IsChain Database.Inserts := List.isChain_pair.mpr fun _ he => he
  have hready : ∀ db' ∈ [db], db'.Ready id expand := List.forall_mem_singleton.mpr hdb
  obtain ⟨rs, pages, hrs, _⟩ := hpaginates.delivers [db] hchain hready
  rw [h] at hrs
  cases hrs

/-- Pagination loses and repeats nothing just when the first page is the last one, or when fewer
events than a page holds are dated in the year 10000 or later. -/
theorem paginates_iff (hlimit : 1 ≤ limit) (hpg : pg.Documented)
    (hUUID : ∀ u : Uuid, u.Standard → isUUID u.text = true) (hid : id.Standard)
    (hdb : db.Ready id expand) :
  Paginates pg isUUID id expand limit db
    ↔ (db.published id expand).length ≤ limit
      ∨ (db.published id expand).countP (fun e => 9999 < e.occurredAt.year) < limit
  := by
  constructor
  · intro h
    by_contra hnot
    rw [not_or, not_le, not_lt] at hnot
    exact not_paginates hdb (followCursors_failed hlimit hpg hUUID hid hdb hnot.1 hnot.2) h
  · intro hcondition
    have hfirst : (db.page id expand limit none).2 = true →
        ∀ e ∈ (db.page id expand limit none).1.getLast?, e.occurredAt.year ≤ 9999 := by
      intro hmore e he
      have hlength := (Keyset.page_snd ArtworkTimelineEvent.position).mp hmore
      have hcount := hcondition.resolve_left (not_le.mpr hlength)
      rw [← not_lt, first_year_iff hdb hmore he]
      exact not_le.mpr hcount
    constructor
    · intro later hchain hlater
      have hready : ∀ db' ∈ db :: later, db'.Ready id expand :=
        List.forall_mem_cons.mpr ⟨hdb, hlater⟩
      obtain ⟨rs, hrs, hshows, hended⟩ := followCursors_walk hpg hUUID hid hready not_mem_none (by
        rintro db' ⟨⟩
        exact hfirst)
      exact ⟨rs, _, hrs, delivers_walk hUUID hlimit hchain hready hshows hended⟩
    · intro k hk
      have hready : ∀ db' ∈ List.replicate k db, db'.Ready id expand := by
        intro db' hdb'
        rwa [List.eq_of_mem_replicate hdb']
      obtain ⟨rs, hrs, hshows, hended⟩ := followCursors_walk hpg hUUID hid hready not_mem_none (by
        intro db' hdb'
        rw [List.eq_of_mem_replicate (List.mem_of_mem_head? hdb')]
        exact hfirst)
      rw [List.map_replicate] at hshows hended
      obtain ⟨hend, hlength⟩ :
          (Keyset.walk ArtworkTimelineEvent.position limit none
            (List.replicate k (db.published id expand))).2 = true
          ∧ (Keyset.walk ArtworkTimelineEvent.position limit none
            (List.replicate k (db.published id expand))).1.length
            = Keyset.pageCount limit (db.published id expand).length :=
        Keyset.walk_replicate hlimit (nodup_position hdb.nodup id expand) hk
      refine ⟨rs, hrs, ?_, hended.mpr hend⟩
      rw [hshows.length_eq]
      exact hlength

end Following

/-! ### Two events at one time -/

/-- The canonical texts of the UUIDs of the standard. -/
def isCanonical (s : JsString) : Bool :=
  (Uuid.read s).any fun u => u.Standard ∧ u.text = s

/-- Postgres, as far as it reads the texts of the service. -/
def documentedPostgres : Postgres where
  timestamptz := readISO
  uuid := Uuid.read

def sampleArtwork : Uuid := ⟨0x11111111111141118111111111111111, by norm_num⟩

def sampleIds : Uuid × Uuid :=
  (⟨0x22222222222242228222222222222222, by norm_num⟩,
    ⟨0x33333333333343338333333333333333, by norm_num⟩)

def sampleEvent (id : Uuid) (d : Date) : ArtworkTimelineEvent where
  id := id
  artworkId := sampleArtwork
  eventType := .artwork_verification
  isPublished := true
  occurredAt := d
  summary := none
  eventData := .obj []
  isDeleted := false

/-- A visible artwork with two published events at the same time. -/
def twoEventsAt (d : Date) : Database where
  artworks _ := some ⟨.verified, false⟩
  events := [sampleEvent sampleIds.1 d, sampleEvent sampleIds.2 d]

theorem documented_documentedPostgres :
  documentedPostgres.Documented
  := by
  constructor
  · intro u
    simp only [documentedPostgres, Uuid.read_text]
  · intro d hpos hle
    have hnonneg : 0 ≤ d.year := zero_le_one.trans hpos
    exact readISO_toISOString ⟨hnonneg, hle⟩
  · intro d hyear
    exact readISO_of_expanded hyear

theorem isCanonical_text {u : Uuid} (h : u.Standard) :
  isCanonical u.text = true
  := by
  rw [isCanonical, Uuid.read_text]
  simp [h]

theorem ready_twoEventsAt {d : Date} (h : 0 ≤ d.ms) :
  (twoEventsAt d).Ready sampleArtwork false
  where
  visible := ⟨_, rfl, by decide, rfl⟩
  nodup := by
    change [sampleIds.1, sampleIds.2].Nodup
    decide +kernel
  wellFormed := by
    intro e he
    have hmem : e ∈ (twoEventsAt d).events := List.mem_of_mem_filter he
    rcases List.mem_cons.mp hmem with rfl | hmem
    · have hstandard : sampleIds.1.Standard := by decide +kernel
      exact ⟨h, hstandard⟩
    · have hstandard : sampleIds.2.Standard := by decide +kernel
      rw [List.mem_singleton.mp hmem]
      exact ⟨h, hstandard⟩

/-- The two events are read page by page in 2023, one event on a page. -/
theorem paginates_twoEventsAt :
  Paginates documentedPostgres isCanonical sampleArtwork false 1
    (twoEventsAt ⟨1700000000000, by decide⟩)
  := by
  have hid : sampleArtwork.Standard := by decide +kernel
  apply (paginates_iff le_rfl documented_documentedPostgres (fun _ => isCanonical_text) hid
    (ready_twoEventsAt (by decide))).mpr
  right
  decide +kernel

/-- At the beginning of the year 10000 they are not: the second request fails. -/
theorem not_paginates_twoEventsAt :
  documentedPostgres.Documented ∧ (∀ u : Uuid, u.Standard → isCanonical u.text = true)
    ∧ sampleArtwork.Standard
    ∧ (twoEventsAt ⟨253402300800000, by decide⟩).Ready sampleArtwork false
    ∧ followCursors documentedPostgres isCanonical sampleArtwork.text false 1 none
      [twoEventsAt ⟨253402300800000, by decide⟩, twoEventsAt ⟨253402300800000, by decide⟩]
      = .error .queryFailed
    ∧ ¬ Paginates documentedPostgres isCanonical sampleArtwork false 1
      (twoEventsAt ⟨253402300800000, by decide⟩)
  := by
  have hid : sampleArtwork.Standard := by decide +kernel
  have hready : (twoEventsAt ⟨253402300800000, by decide⟩).Ready sampleArtwork false :=
    ready_twoEventsAt (by decide)
  have hfailed : followCursors documentedPostgres isCanonical sampleArtwork.text false 1 none
      [twoEventsAt ⟨253402300800000, by decide⟩, twoEventsAt ⟨253402300800000, by decide⟩]
      = .error .queryFailed := by
    apply followCursors_failed le_rfl documented_documentedPostgres (fun _ => isCanonical_text) hid
      hready
    · decide +kernel
    · decide +kernel
  exact ⟨documented_documentedPostgres, fun _ => isCanonical_text, hid, hready, hfailed,
    not_paginates hready hfailed⟩

end Timeline
