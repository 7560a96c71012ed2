import RelayLifeline.Incidents.Store
import RelayLifeline.Lib.Base64
import RelayLifeline.Lib.Json.Fields
import RelayLifeline.Lib.Strconv
import RelayLifeline.Text
import RelayLifeline.Time
import RelayLifeline.Timeline.Record
import Mathlib.Data.String.Basic
import Mathlib.Logic.Function.Basic

/-!
# The lists of the management API

The history of requests and the incidents are listed a page at a time. A request
for a page says with its cursor which item was the last of the page before, by
the time and the ID the list is sorted by, and the page is made of the list as
it is when the request comes.

The two lists are made alike. What is left out of a record of the history is
its zone and the reading of the monotonic clock at its completion, which the
process that completed it still has; an incident is timed in UTC, which has no
reading. Lower case and the texts that `time.Parse` is slow to read are
parameters.
-/

namespace RelayLifeline.Admin

open Journal Lib

/-- A record of the history, as the process has it. -/
structure HistoryRecord (D E : Type) extends TimelineStore.Record D E where
  /-- The offset of the zone that `CompletedAt` is shown in. -/
  zone : Int := 0
  /-- The reading of the monotonic clock in `CompletedAt`. A record that is
  replayed from the journal has none. -/
  reading : Option Int := none

/-- `CompletedAt`. -/
def HistoryRecord.completedTime {D E : Type} (record : HistoryRecord D E) : Time :=
  { instant := record.completedAt, offset := record.zone, monotonic := record.reading }

structure ListCursor where
  time : Time
  id : String
  deriving DecidableEq

structure ListQuery where
  limit : Nat := 100
  cursor : Option ListCursor := none
  fromTime : Time := { instant := 0 }
  toTime : Time := { instant := 0 }
  state : String := ""
  search : String := ""

structure ListPage (α : Type) where
  items : List α
  nextCursor : String := ""
  hasMore : Bool

/-! ## The cursor -/

/-- `json.Marshal(listCursor{Time: itemTime, ID: itemID})`. -/
def marshalCursor (itemTime : Time) (itemID : String) : Option String :=
  itemTime.marshalJSON.map fun text =>
    "\x7b\"time\":" ++ (text ++ (",\"id\":" ++ (jsonString itemID ++ "\x7d")))

def encodeCursor (itemTime : Time) (itemID : String) : String :=
  String.ofList (Base64.encode (utf8 ((marshalCursor itemTime itemID).getD "")))

/-- A JSON string that is written so, which for null leaves the field as it
is. -/
def unmarshalString (data : Json.Text) : Option (Option String) :=
  if data = Json.nullWord then some none
  else if data.head? = some Json.quoteMark then
    some (some ((String.fromUTF8? ⟨(Json.unquote data.tail.dropLast).toArray⟩).getD ""))
  else none

section

variable (elsewhere : Json.Text → Option (Int × Int))

/-- What a member of the object does to the cursor. -/
def ListCursor.set (cursor : ListCursor) (field : Json.Text × Json.Text) : Option ListCursor :=
  if Json.namesField (utf8 "time") field.1 then
    (Time.unmarshalJSON elsewhere field.2).map fun time =>
      { cursor with time := time.getD cursor.time }
  else if Json.namesField (utf8 "id") field.1 then
    (unmarshalString field.2).map fun id => { cursor with id := id.getD cursor.id }
  else some cursor

/-- `json.Unmarshal(decoded, &cursor)`. -/
def unmarshalCursor (decoded : Json.Text) : Option ListCursor :=
  (Json.unmarshalFields decoded).bind fun fields =>
    fields.foldlM (ListCursor.set elsewhere) { time := { instant := 0 }, id := "" }

def parseCursor (raw : String) : Option (Option ListCursor) :=
  if raw = "" then some none
  else
    (Base64.decode raw.toList).bind fun decoded =>
      (unmarshalCursor elsewhere decoded).bind fun cursor =>
        if cursor.time.isZero || cursor.id = "" then none else some (some cursor)

/-! ## The query -/

def parseLimit (raw : String) (maximum : Int) : Option Nat :=
  if raw = "" then some 100
  else
    (Strconv.parseInt raw.toList).bind fun limit =>
      if limit < 1 ∨ maximum < limit then none else some limit.toNat

def parseBound (raw : String) : Option Time :=
  if raw = "" then some { instant := 0 } else Time.parse elsewhere (utf8 raw)

/-- The values are what `values.Get` gives for a name. -/
def parseListQuery (toLower : String → String) (values : String → String) (maximum : Int) :
    Option ListQuery :=
  let state := trimSpace (values "state")
  let search := toLower (trimSpace (values "q"))
  (parseLimit (values "limit") maximum).bind fun limit =>
    if 128 < search.utf8ByteSize ∨ 32 < state.utf8ByteSize then none
    else
      (parseBound elsewhere (values "from")).bind fun fromTime =>
        (parseBound elsewhere (values "to")).bind fun toTime =>
          if !fromTime.isZero && !toTime.isZero && fromTime.after toTime then none
          else
            (parseCursor elsewhere (values "cursor")).map fun cursor =>
              { limit, cursor, fromTime, toTime, state, search }

end

def matchesCursor (itemTime : Time) (itemID : String) : Option ListCursor → Bool
  | none => true
  | some cursor => itemTime.before cursor.time || itemTime.equal cursor.time && itemID < cursor.id

def matchesRange (itemTime : Time) (query : ListQuery) : Bool :=
  (query.fromTime.isZero || !itemTime.before query.fromTime) &&
    (query.toTime.isZero || !itemTime.after query.toTime)

def containsFold (toLower : String → String) (search : String) (values : List String) : Bool :=
  values.any fun value => contains (toLower value) search

/-! ## The lists -/

/-- What a list goes by: the time and the ID it is sorted by, and what its
filters keep. -/
structure Listing (α : Type) where
  time : α → Time
  id : α → String
  keeps : ListQuery → α → Bool

namespace Listing

variable {α : Type} (listing : Listing α)

/-- The order that `sort.Slice` is given. -/
def less (left right : α) : Bool :=
  if (listing.time left).equal (listing.time right) then listing.id right < listing.id left
  else (listing.time left).after (listing.time right)

def sorted (items : List α) : List α :=
  items.insertionSort fun left right => listing.less right left = false

/-- The loop over the items: those that are wanted, up to one more than the
limit. -/
def gather (wanted : α → Bool) (limit : Nat) : List α → List α → List α
  | filtered, [] => filtered
  | filtered, item :: items =>
      if !wanted item then gather wanted limit filtered items
      else
        let filtered := filtered ++ [item]
        if limit < filtered.length then filtered else gather wanted limit filtered items

/-- What the loop does not continue past. -/
def wanted (query : ListQuery) (item : α) : Bool :=
  matchesCursor (listing.time item) (listing.id item) query.cursor && listing.keeps query item

def query (items : List α) (query : ListQuery) : ListPage α :=
  let filtered := gather (listing.wanted query) query.limit [] (listing.sorted items)
  let hasMore := decide (query.limit < filtered.length)
  let items := if hasMore then filtered.take query.limit else filtered
  let nextCursor :=
    if hasMore then
      items.getLast?.elim "" fun last => encodeCursor (listing.time last) (listing.id last)
    else ""
  { items, nextCursor, hasMore }

end Listing

section

variable (toLower : String → String) {D E : Type}

/-- What `queryHistory` goes by. The readings of `StartedAt` are left out, since
the bounds it is compared with have none. -/
def history : Listing (HistoryRecord D E) where
  time := HistoryRecord.completedTime
  id record := record.id
  keeps query record :=
    matchesRange { instant := record.startedAt } query &&
      (query.state = "" || record.state = query.state) &&
      (query.search = "" ||
        containsFold toLower query.search
          [record.id, record.clientID, record.taskID, record.method, record.path, record.lastError])

def queryHistory (records : List (HistoryRecord D E)) (query : ListQuery) :
    ListPage (HistoryRecord D E) :=
  (history toLower).query records query

end

/-- The text of a state. -/
def stateText : Incidents.State → String
  | .opened => "open"
  | .recovering => "recovering"
  | .resolved => "resolved"

section

variable (toLower : String → String)

def incidentContains (item : Incidents.Incident) (search : String) : Bool :=
  containsFold toLower search [item.id, " ".intercalate item.affectedRequests] ||
    (item.categories.items.any fun category => containsFold toLower search [category.value]) ||
    (item.statusCodes.items.any fun status => contains (toString status.value) search)

/-- What `queryIncidents` goes by. -/
def incidents : Listing Incidents.Incident where
  time item := { instant := item.startedAt }
  id item := item.id
  keeps query item :=
    matchesRange { instant := item.startedAt } query &&
      (query.state = "" || stateText item.state = query.state) &&
      (query.search = "" || incidentContains toLower item query.search)

def queryIncidents (items : List Incidents.Incident) (query : ListQuery) :
    ListPage Incidents.Incident :=
  (incidents toLower).query items query

end

/-! ## Page after page -/

/-- The pages a client is shown that asks for the next with the cursor of the
last, and otherwise as before, until one says that there are no more. The list
is another one for each request. None where a request is refused. -/
def follow {α : Type} (elsewhere : Json.Text → Option (Int × Int)) (toLower : String → String)
    (listing : Listing α) (maximum : Int) (values : String → String) :
    List (List α) → Option (List (ListPage α))
  | [] => some []
  | items :: later =>
      (parseListQuery elsewhere toLower values maximum).bind fun query =>
        let page := listing.query items query
        if page.hasMore then
          (follow elsewhere toLower listing maximum
            (Function.update values "cursor" page.nextCursor) later).map (page :: ·)
        else some [page]

/-- The items of the pages. -/
def shown {α : Type} (pages : List (ListPage α)) : List α := pages.flatMap fun page => page.items

/-- The last page has been shown. -/
def finished {α : Type} (pages : List (ListPage α)) : Bool :=
  pages.getLast?.any fun page => !page.hasMore

end RelayLifeline.Admin
