import RelayLifeline.Lib.Keyset
import RelayLifeline.Proofs.Cursor
import Mathlib.Data.Prod.Lex

/-!
# Lists page by page

A client that follows the cursors reads the list by the position of its items,
whatever becomes of the list in between: each page is made of the items below
the position the cursor stands for, and the cursor of a page is read back as
the position of its last item.

That takes a list that is sorted by that position. The sort compares two
records by the readings of the monotonic clock where both have one, and the
cursor has none. So where the wall clock was set back between them, the sort has
them in one order and the cursors go by the other.
-/

namespace RelayLifeline.Admin

open Lib Keyset

theorem toLex_lt {t t' : Int} {id id' : String} :
    toLex (t, id) < toLex (t', id') ↔ t < t' ∨ t = t' ∧ id < id' :=
  Prod.Lex.toLex_lt_toLex

/-- The position a cursor stands for. -/
def ListCursor.position (cursor : ListCursor) : Int ×ₗ String :=
  toLex (cursor.time.instant, cursor.id)

namespace Listing

variable {α : Type} (listing : Listing α)

/-- What the pages go down by: the time, and the ID where the times are the
same. -/
def position (item : α) : Int ×ₗ String := toLex ((listing.time item).instant, listing.id item)

/-- What a list has to be for its pages to go down by position. -/
structure Ordered (items : List α) : Prop where
  /-- The sort orders two items as their instants and IDs do. -/
  steady : ∀ a ∈ items, ∀ b ∈ items, listing.less a b = true ↔
    listing.position b < listing.position a
  /-- RFC 3339 has all of the time, and it is not the zero time. -/
  timed : ∀ a ∈ items, (listing.time a).Writable ∧ (listing.time a).offset % 60 = 0 ∧
    (listing.time a).instant ≠ 0
  named : ∀ a ∈ items, listing.id a ≠ ""

/-- What a list may become: an ID is one item's, and the item keeps its time. A
restart drops the monotonic reading. -/
structure UniqueIDs (lists : List (List α)) : Prop where
  nodup : ∀ items ∈ lists, (items.map listing.id).Nodup
  time : ∀ items ∈ lists, ∀ items' ∈ lists, ∀ a ∈ items, ∀ b ∈ items',
    listing.id a = listing.id b → (listing.time a).instant = (listing.time b).instant

/-- What is shown to a client that follows the cursors. -/
structure Stable (query : ListQuery) (lists : List (List α)) (pages : List (ListPage α)) :
    Prop where
  kept : ∀ a ∈ shown pages, ∃ items ∈ lists, a ∈ items ∧ listing.keeps query a = true
  sorted : (shown pages).Pairwise fun a b => listing.position b < listing.position a
  once : ((shown pages).map listing.id).Nodup
  complete : finished pages = true → ∀ id,
    (∀ items ∈ lists.take pages.length, ∃ a ∈ items, listing.id a = id ∧
      listing.keeps query a = true) →
    ((shown pages).map listing.id).count id = 1

/-! ## One page -/

variable {listing}

theorem gather_eq (wanted : α → Bool) {limit : Nat} (items : List α) {filtered : List α}
    (h : filtered.length ≤ limit) :
    gather wanted limit filtered items = (filtered ++ items.filter wanted).take (limit + 1) := by
  induction items generalizing filtered with
  | nil =>
      rw [gather, List.filter_nil, List.append_nil, List.take_of_length_le (by omega)]
  | cons item items ih =>
      rw [gather]
      split
      · next hskip =>
          rw [ih h, List.filter_cons_of_neg (by simpa using hskip)]
      · next htake =>
          rw [List.filter_cons_of_pos (by simpa using htake)]
          dsimp only
          split
          · next hfull =>
              have hlen : (filtered ++ [item]).length = limit + 1 := by
                rw [List.length_append, List.length_singleton] at hfull ⊢
                omega
              rw [List.append_cons filtered item (items.filter wanted),
                List.take_append_of_le_length (Nat.le_of_eq hlen.symm),
                List.take_of_length_le (Nat.le_of_eq hlen)]
          · next hroom => rw [ih (by omega), List.append_assoc, List.singleton_append]

theorem query_eq (items : List α) (query : ListQuery) :
    let kept := (listing.sorted items).filter (listing.wanted query)
    (listing.query items query).items = kept.take query.limit ∧
      (listing.query items query).hasMore = decide (query.limit < kept.length) := by
  dsimp only
  rw [Listing.query]
  dsimp only
  rw [gather_eq _ _ (Nat.zero_le _), List.nil_append]
  have hmore : query.limit < (((listing.sorted items).filter (listing.wanted query)).take
      (query.limit + 1)).length ↔
        query.limit < ((listing.sorted items).filter (listing.wanted query)).length := by
    rw [List.length_take]
    omega
  refine ⟨?_, decide_eq_decide.2 hmore⟩
  split
  · rw [List.take_take, Nat.min_eq_left (Nat.le_succ _)]
  · next hless =>
      rw [decide_eq_true_eq, hmore, Nat.not_lt] at hless
      rw [List.take_of_length_le (Nat.le_succ_of_le hless), List.take_of_length_le hless]

/-- The cursor of a page that is not the last is that of its last item. -/
theorem nextCursor_eq {items : List α} {query : ListQuery} {last : α}
    (hmore : (listing.query items query).hasMore = true)
    (hlast : (listing.query items query).items.getLast? = some last) :
    (listing.query items query).nextCursor =
      encodeCursor (listing.time last) (listing.id last) := by
  rw [Listing.query] at hmore hlast ⊢
  dsimp only at hmore hlast ⊢
  rw [hlast, if_pos hmore, Option.elim_some]

theorem matchesCursor_iff {item : α} {cursor : Option ListCursor}
    (h : ∀ c ∈ cursor, c.time.monotonic = none) :
    matchesCursor (listing.time item) (listing.id item) cursor = true ↔
      Below (cursor.map ListCursor.position) (listing.position item) := by
  cases cursor with
  | none => exact iff_of_true rfl (below_none _)
  | some cursor =>
      have hreading := h cursor rfl
      rw [Option.map_some, below_some, matchesCursor, Time.before_bare _ hreading,
        Time.equal_bare _ hreading, Bool.or_eq_true, Bool.and_eq_true, decide_eq_true_eq,
        decide_eq_true_eq, decide_eq_true_eq]
      exact toLex_lt.symm

/-- A page of a list that is ordered. -/
theorem isPage_query {items : List α} (hordered : listing.Ordered items)
    (hnodup : (items.map listing.id).Nodup) {query : ListQuery} (hlimit : 0 < query.limit)
    (hcursor : ∀ c ∈ query.cursor, c.time.monotonic = none) :
    IsPage listing.position (listing.keeps query) (query.cursor.map ListCursor.position) items
      (listing.query items query).items (listing.query items query).hasMore := by
  have hperm := List.perm_insertionSort
    (fun left right => listing.less right left = false) items
  have hinj : (items.map listing.position).Nodup := by
    refine List.Nodup.of_map (fun position => (ofLex position).2) ?_
    rwa [List.map_map]
  have hsorted : (listing.sorted items).Pairwise fun a b =>
      listing.position b < listing.position a :=
    pairwise_insertionSort (fun a ha b hb => by
      rw [← not_lt, ← hordered.steady b hb a ha, Bool.not_eq_true]) hinj
  have hwanted : ∀ a ∈ listing.sorted items, listing.wanted query a = true ↔
      listing.keeps query a = true ∧
        Below (query.cursor.map ListCursor.position) (listing.position a) := by
    intro a _
    rw [wanted, Bool.and_eq_true, matchesCursor_iff hcursor]
    exact and_comm
  have hpage := isPage_take hsorted hlimit hwanted
  obtain ⟨hitems, hmore⟩ := listing.query_eq items query
  rw [hitems, hmore]
  refine ⟨fun a ha => ?_, hpage.sorted, fun a ha => ?_, hpage.nonempty⟩
  · obtain ⟨hmem, hkeep⟩ := hpage.kept a ha
    exact ⟨hperm.mem_iff.1 hmem, hkeep⟩
  · exact hpage.rest a (hperm.mem_iff.2 ha)

end Listing

/-! ## The next request -/

section

variable {elsewhere : Json.Text → Option (Int × Int)} {toLower : String → String} {maximum : Int}
  {values : String → String} {query : ListQuery}

theorem parseLimit_pos {raw : String} {limit : Nat} (h : parseLimit raw maximum = some limit) :
    0 < limit := by
  rw [parseLimit] at h
  split at h
  · rw [← Option.some.inj h]
    decide
  · obtain ⟨n, -, hn⟩ := Option.bind_eq_some_iff.1 h
    split at hn
    · cases hn
    · rw [← Option.some.inj hn]
      omega

theorem limit_pos (h : parseListQuery elsewhere toLower values maximum = some query) :
    0 < query.limit := by
  obtain ⟨limit, hlimit, h⟩ := Option.bind_eq_some_iff.1 h
  split at h
  · cases h
  · obtain ⟨fromTime, -, h⟩ := Option.bind_eq_some_iff.1 h
    obtain ⟨toTime, -, h⟩ := Option.bind_eq_some_iff.1 h
    split at h
    · cases h
    · obtain ⟨cursor, -, rfl⟩ := Option.map_eq_some_iff.1 h
      exact parseLimit_pos hlimit

/-- The next request differs from the last in the cursor only. -/
theorem parseListQuery_update (h : parseListQuery elsewhere toLower values maximum = some query)
    {raw : String} {cursor : Option ListCursor}
    (hcursor : parseCursor elsewhere raw = some cursor) :
    parseListQuery elsewhere toLower (Function.update values "cursor" raw) maximum =
      some { query with cursor := cursor } := by
  have hother : ∀ name, name ≠ "cursor" → Function.update values "cursor" raw name = values name :=
    fun name hname => Function.update_of_ne hname _ _
  rw [parseListQuery, hother "limit" (by decide), hother "state" (by decide),
    hother "q" (by decide),
    hother "from" (by decide), hother "to" (by decide), Function.update_self, hcursor]
  obtain ⟨limit, hlimit, h⟩ := Option.bind_eq_some_iff.1 h
  rw [hlimit, Option.bind_some]
  split at h
  · cases h
  · next hlong =>
      rw [if_neg hlong]
      obtain ⟨fromTime, hfrom, h⟩ := Option.bind_eq_some_iff.1 h
      obtain ⟨toTime, hto, h⟩ := Option.bind_eq_some_iff.1 h
      rw [hfrom, Option.bind_some, hto, Option.bind_some]
      split at h
      · cases h
      · next hrange =>
          rw [if_neg hrange]
          obtain ⟨_, -, rfl⟩ := Option.map_eq_some_iff.1 h
          rfl

/-- The first request has no cursor. -/
theorem cursor_eq_none (h : parseListQuery elsewhere toLower values maximum = some query)
    (hfirst : values "cursor" = "") : query.cursor = none := by
  obtain ⟨limit, -, h⟩ := Option.bind_eq_some_iff.1 h
  split at h
  · cases h
  · obtain ⟨fromTime, -, h⟩ := Option.bind_eq_some_iff.1 h
    obtain ⟨toTime, -, h⟩ := Option.bind_eq_some_iff.1 h
    split at h
    · cases h
    · obtain ⟨cursor, hcursor, rfl⟩ := Option.map_eq_some_iff.1 h
      rw [hfirst, parseCursor, if_pos rfl] at hcursor
      exact (Option.some.inj hcursor).symm

end

/-! ## All the pages -/

section

variable {α : Type} {listing : Listing α}

theorem shown_cons (page : ListPage α) (pages : List (ListPage α)) :
    shown (page :: pages) = page.items ++ shown pages := List.flatMap_cons

theorem finished_cons {page : ListPage α} (hmore : page.hasMore = true)
    (pages : List (ListPage α)) : finished (page :: pages) = finished pages := by
  cases pages with
  | nil =>
      rw [finished, List.getLast?_singleton, Option.any_some, hmore]
      rfl
  | cons next pages => rw [finished, finished, List.getLast?_cons_cons]

/-- No request is refused, and the pages are read down from the cursor. -/
theorem follow_reads {elsewhere : Json.Text → Option (Int × Int)} {toLower : String → String}
    {maximum : Int}
    (hkeeps : ∀ query cursor a, listing.keeps { query with cursor := cursor } a =
      listing.keeps query a)
    (lists : List (List α)) (hnodup : ∀ items ∈ lists, (items.map listing.id).Nodup)
    (hordered : ∀ items ∈ lists, listing.Ordered items) {values : String → String}
    {query : ListQuery} (hquery : parseListQuery elsewhere toLower values maximum = some query)
    (hcursor : ∀ c ∈ query.cursor, c.time.monotonic = none) :
    ∃ pages, follow elsewhere toLower listing maximum values lists = some pages ∧
      Reads listing.position (listing.keeps query) (query.cursor.map ListCursor.position)
        (lists.take pages.length) (shown pages) (finished pages) := by
  induction lists generalizing values query with
  | nil => exact ⟨[], rfl, .cut⟩
  | cons items later ih =>
      have hitems := hordered items List.mem_cons_self
      have hpage := Listing.isPage_query hitems (hnodup items List.mem_cons_self)
        (limit_pos hquery) hcursor
      rw [follow, hquery, Option.bind_some]
      dsimp only
      by_cases hmore : (listing.query items query).hasMore = true
      · rw [if_pos hmore]
        obtain ⟨last, hlast⟩ : ∃ last, (listing.query items query).items.getLast? = some last :=
          Option.isSome_iff_exists.1 (List.getLast?_isSome.2 (hpage.nonempty hmore))
        have hmem := (hpage.kept last (List.mem_of_getLast? hlast)).1
        obtain ⟨hwritable, hminutes, hzero⟩ := hitems.timed last hmem
        have hcursor' := parseCursor_encodeCursor elsewhere hwritable hminutes hzero
          (hitems.named last hmem)
        rw [← Listing.nextCursor_eq hmore hlast] at hcursor'
        obtain ⟨pages, hpages, hreads⟩ := ih
          (fun items h => hnodup items (List.mem_cons_of_mem _ h))
          (fun items h => hordered items (List.mem_cons_of_mem _ h))
          (parseListQuery_update hquery hcursor') (fun c hc => by rw [← Option.some.inj hc])
        rw [hpages]
        refine ⟨_, rfl, ?_⟩
        rw [shown_cons, finished_cons hmore, List.length_cons, List.take_succ_cons]
        rw [hmore] at hpage
        refine .more hpage hlast ?_
        have hsame (cursor : Option ListCursor) :
            listing.keeps { query with cursor := cursor } = listing.keeps query :=
          funext fun a => hkeeps query cursor a
        rw [hsame] at hreads
        exact hreads
      · rw [if_neg hmore]
        rw [Bool.not_eq_true] at hmore
        refine ⟨_, rfl, ?_⟩
        rw [shown_cons, finished, List.getLast?_singleton, Option.any_some, hmore]
        rw [hmore] at hpage
        show Reads _ _ _ [items] (_ ++ []) true
        rw [List.append_nil]
        exact .last hpage

theorem Listing.UniqueIDs.position_eq {lists : List (List α)} (h : listing.UniqueIDs lists)
    {a b : α} (ha : ∃ items ∈ lists, a ∈ items) (hb : ∃ items ∈ lists, b ∈ items)
    (hid : listing.id a = listing.id b) : listing.position a = listing.position b := by
  obtain ⟨items, hitems, ha⟩ := ha
  obtain ⟨items', hitems', hb⟩ := hb
  rw [Listing.position, Listing.position, hid, h.time items hitems items' hitems' a ha b hb hid]

theorem stable_of_reads {lists : List (List α)} (hunique : listing.UniqueIDs lists)
    {query : ListQuery} {pages : List (ListPage α)}
    (h : Reads listing.position (listing.keeps query) none (lists.take pages.length) (shown pages)
      (finished pages)) : listing.Stable query lists pages := by
  have hkept : ∀ a ∈ shown pages, ∃ items ∈ lists, a ∈ items ∧ listing.keeps query a = true := by
    intro a ha
    obtain ⟨items, hitems, hmem⟩ := h.kept a ha
    exact ⟨items, List.mem_of_mem_take hitems, hmem⟩
  have hthere : ∀ a ∈ shown pages, ∃ items ∈ lists, a ∈ items := by
    intro a ha
    obtain ⟨items, hitems, hmem, -⟩ := hkept a ha
    exact ⟨items, hitems, hmem⟩
  have honce : ((shown pages).map listing.id).Nodup := by
    refine List.pairwise_map.2 (h.sorted.imp_of_mem fun ha hb hlt hid => ?_)
    rw [hunique.position_eq (hthere _ ha) (hthere _ hb) hid] at hlt
    exact lt_irrefl _ hlt
  refine ⟨hkept, h.sorted, honce, fun hfinished id hpresent => ?_⟩
  obtain ⟨first, hfirst⟩ := List.exists_mem_of_ne_nil _ (h.ne_nil hfinished)
  obtain ⟨a, ha, hid, -⟩ := hpresent first hfirst
  have hmem : listing.position a ∈ (shown pages).map listing.position := by
    refine h.complete hfinished (below_none _) fun items hitems => ?_
    obtain ⟨b, hb, hid', hkeep⟩ := hpresent items hitems
    exact ⟨b, hb, hkeep, hunique.position_eq ⟨items, List.mem_of_mem_take hitems, hb⟩
      ⟨first, List.mem_of_mem_take hfirst, ha⟩ (hid'.trans hid.symm)⟩
  obtain ⟨b, hb, hposition⟩ := List.mem_map.1 hmem
  have hid' : listing.id b = id := by
    rw [← hid]
    exact congrArg (fun position => (ofLex position).2) hposition
  exact List.count_eq_one_of_mem honce (List.mem_map.2 ⟨b, hb, hid'⟩)

/-- The pages that follow the cursors from the first. -/
theorem follow_stable {elsewhere : Json.Text → Option (Int × Int)} {toLower : String → String}
    {maximum : Int}
    (hkeeps : ∀ query cursor a, listing.keeps { query with cursor := cursor } a =
      listing.keeps query a)
    {lists : List (List α)} (hunique : listing.UniqueIDs lists)
    (hordered : ∀ items ∈ lists, listing.Ordered items) {values : String → String}
    {query : ListQuery} (hquery : parseListQuery elsewhere toLower values maximum = some query)
    (hfirst : values "cursor" = "") :
    ∃ pages, follow elsewhere toLower listing maximum values lists = some pages ∧
      listing.Stable query lists pages := by
  have hnone := cursor_eq_none hquery hfirst
  obtain ⟨pages, hpages, hreads⟩ := follow_reads hkeeps lists hunique.nodup hordered hquery
    fun c hc => by rw [hnone] at hc; cases hc
  rw [hnone] at hreads
  exact ⟨pages, hpages, stable_of_reads hunique hreads⟩

end

/-! ## The two lists -/

/-- The sort goes by instant and ID where the times compare by the instant. -/
theorem Listing.less_iff {α : Type} {listing : Listing α} {a b : α}
    (hequal : (listing.time a).equal (listing.time b) =
      decide ((listing.time a).instant = (listing.time b).instant))
    (hafter : (listing.time a).after (listing.time b) =
      decide ((listing.time b).instant < (listing.time a).instant)) :
    listing.less a b = true ↔ listing.position b < listing.position a := by
  rw [Listing.less, Listing.position, Listing.position, toLex_lt, hequal, hafter]
  split
  · next heq =>
      rw [decide_eq_true_eq] at heq ⊢
      rw [heq]
      exact ⟨fun hlt => .inr ⟨rfl, hlt⟩, fun hor => hor.elim (absurd · (Int.lt_irrefl _)) And.right⟩
  · next hne =>
      rw [decide_eq_true_eq] at hne ⊢
      exact ⟨.inl, fun hor => hor.elim (fun hlt => hlt) fun hid => absurd hid.1.symm hne⟩

/-- The readings of two records are in the order of the wall clock. -/
def Unchanged {D E : Type} (a b : HistoryRecord D E) : Prop :=
  ∀ reading ∈ a.reading, ∀ reading' ∈ b.reading,
    (reading < reading' ↔ a.completedAt < b.completedAt) ∧
      (reading = reading' ↔ a.completedAt = b.completedAt)

/-- A list is sorted for its cursors where the wall clock was not set back
between its records. -/
theorem ordered_history {D E : Type} {toLower : String → String}
    {records : List (HistoryRecord D E)}
    (hclock : ∀ a ∈ records, ∀ b ∈ records, Unchanged a b)
    (htimed : ∀ record ∈ records, record.completedTime.Writable ∧ record.zone % 60 = 0 ∧
      record.completedAt ≠ 0)
    (hnamed : ∀ record ∈ records, record.id ≠ "") : (history toLower).Ordered records := by
  refine ⟨fun a ha b hb => Listing.less_iff ?_ ?_, htimed, hnamed⟩
  · show Time.equal ⟨_, _, a.reading⟩ ⟨_, _, b.reading⟩ = _
    rw [Time.equal]
    split
    · next hreading hreading' =>
        exact decide_eq_decide.2 (hclock a ha b hb _ hreading _ hreading').2
    · rfl
  · show Time.before ⟨_, _, b.reading⟩ ⟨_, _, a.reading⟩ = _
    rw [Time.before]
    split
    · next hreading hreading' =>
        exact decide_eq_decide.2 (hclock b hb a ha _ hreading _ hreading').1
    · rfl

/-- Times in UTC have no reading. -/
theorem ordered_incidents {toLower : String → String} {items : List Incidents.Incident}
    (htimed : ∀ item ∈ items, Time.Writable { instant := item.startedAt } ∧ item.startedAt ≠ 0)
    (hnamed : ∀ item ∈ items, item.id ≠ "") : (incidents toLower).Ordered items :=
  ⟨fun _ _ _ _ => Listing.less_iff (Time.equal_bare _ rfl) (Time.before_bare _ rfl),
    fun item hitem => ⟨(htimed item hitem).1, rfl, (htimed item hitem).2⟩, hnamed⟩

/-- **Following the cursors shows every item of a list once, from the latest to
the earliest, whatever becomes of the list in between, where the sort has the
records of the history in the order of the wall clock. The incidents always
are. A cursor is read back as the time and the ID it was made from.** -/
theorem lists_stable (elsewhere : Json.Text → Option (Int × Int)) (toLower : String → String)
    (maximum : Int) (values : String → String) (hfirst : values "cursor" = "") (query : ListQuery)
    (hquery : parseListQuery elsewhere toLower values maximum = some query) :
    (∀ (D E : Type) (lists : List (List (HistoryRecord D E))),
      (history toLower).UniqueIDs lists →
      (∀ records ∈ lists, (history toLower).Ordered records) →
      ∃ pages, follow elsewhere toLower (history toLower) maximum values lists = some pages ∧
        (history toLower).Stable query lists pages) ∧
    (∀ lists : List (List Incidents.Incident),
      (incidents toLower).UniqueIDs lists →
      (∀ items ∈ lists, ∀ item ∈ items,
        Time.Writable { instant := item.startedAt } ∧ item.startedAt ≠ 0 ∧ item.id ≠ "") →
      ∃ pages, follow elsewhere toLower (incidents toLower) maximum values lists = some pages ∧
        (incidents toLower).Stable query lists pages) ∧
    (∀ (t : Time) (id : String), t.Writable → t.offset % 60 = 0 →
      (Base64.decode (encodeCursor t id).toList).bind (unmarshalCursor elsewhere) =
        some { time := { t with monotonic := none }, id }) := by
  refine ⟨fun D E lists hunique hordered => ?_, fun lists hunique hitems => ?_,
    fun t id hwritable hminutes => ?_⟩
  · exact follow_stable (fun _ _ _ => rfl) hunique hordered hquery hfirst
  · refine follow_stable (fun _ _ _ => rfl) hunique (fun items hlist => ?_) hquery hfirst
    exact ordered_incidents
      (fun item hitem => ⟨(hitems items hlist item hitem).1, (hitems items hlist item hitem).2.1⟩)
      fun item hitem => (hitems items hlist item hitem).2.2
  · rw [encodeCursor, String.toList_ofList, Base64.decode_encode, Option.bind_some]
    exact unmarshalCursor_marshalCursor elsewhere hwritable hminutes id

/-- The request of a client that wants one item at a time. -/
def oneByOne : String → String := Function.update (fun _ => "") "limit" "1"

theorem parse_oneByOne :
    parseListQuery (fun _ => none) id oneByOne 200 = some { limit := 1 } := by
  have hlimit : parseLimit "1" 200 = some 1 := by decide
  have htrim : trimSpace "" = "" := by decide
  have hother : ∀ name, name ≠ "limit" → oneByOne name = "" :=
    fun name hname => Function.update_of_ne hname _ _
  rw [parseListQuery, hother "state" (by decide), hother "q" (by decide), hother "from" (by decide),
    hother "to" (by decide), hother "cursor" (by decide), htrim,
    show oneByOne "limit" = "1" from Function.update_self .., hlimit]
  rfl

/-- A record that is replayed from the journal, like others of the same time. -/
def replayed (id : String) : HistoryRecord Unit Unit :=
  { id, method := "POST", path := "/v1", startedAt := 63871632000000000000,
    completedAt := 63871632900000000000, events := [] }

/-- One of three records goes after the first page, and the client is shown the
others. -/
theorem lists_stable_sameTime :
    ∃ pages, follow (fun _ => none) id (history id) 200 oneByOne
        [["a", "b", "c"].map replayed, ["a", "c"].map replayed] = some pages ∧
      (history id).Stable { limit := 1 }
        [["a", "b", "c"].map replayed, ["a", "c"].map replayed] pages := by
  have hreplayed : ∀ records ∈ [["a", "b", "c"].map replayed, ["a", "c"].map replayed],
      ∀ record ∈ records, ∃ id, id ≠ "" ∧ record = replayed id := by
    intro records hrecords record hrecord
    simp only [List.mem_cons, List.not_mem_nil, or_false] at hrecords
    rcases hrecords with rfl | rfl
    · obtain ⟨id, hid, rfl⟩ := List.mem_map.1 hrecord
      exact ⟨id, fun hempty => absurd (hempty ▸ hid) (by decide), rfl⟩
    · obtain ⟨id, hid, rfl⟩ := List.mem_map.1 hrecord
      exact ⟨id, fun hempty => absurd (hempty ▸ hid) (by decide), rfl⟩
  refine (lists_stable (fun _ => none) id 200 oneByOne rfl { limit := 1 } parse_oneByOne).1
    Unit Unit _ ⟨fun records hrecords => ?_,
      fun records hrecords records' hrecords' a ha b hb _ => ?_⟩
    fun records hrecords => ordered_history (fun a ha b hb => ?_) (fun a ha => ?_) fun a ha => ?_
  · simp only [List.mem_cons, List.not_mem_nil, or_false] at hrecords
    rcases hrecords with rfl | rfl
    · decide
    · decide
  · obtain ⟨_, -, rfl⟩ := hreplayed records hrecords a ha
    obtain ⟨_, -, rfl⟩ := hreplayed records' hrecords' b hb
    rfl
  · obtain ⟨_, -, rfl⟩ := hreplayed records hrecords a ha
    exact fun _ hreading => absurd hreading (Option.not_mem_none _)
  · obtain ⟨_, -, rfl⟩ := hreplayed records hrecords a ha
    have htimed : Time.Writable { instant := 63871632900000000000 } := by decide +kernel
    exact ⟨htimed, rfl, (by decide : (63871632900000000000 : Int) ≠ 0)⟩
  · obtain ⟨_, hid, rfl⟩ := hreplayed records hrecords a ha
    exact hid

/-- A record that is completed at a quarter past. -/
def completedFirst : HistoryRecord Unit Unit :=
  { id := "first", method := "POST", path := "/v1", startedAt := 63871632000000000000,
    completedAt := 63871632900000000000, events := [], reading := some 100 }

/-- The next, before which the clock is set back by some minutes. -/
def completedSecond : HistoryRecord Unit Unit :=
  { id := "second", method := "POST", path := "/v1", startedAt := 63871632000000000000,
    completedAt := 63871632600000000000, events := [], reading := some 200 }

/-- The first record is in the list both times, and on neither page. -/
theorem not_listed :
    (history id).UniqueIDs
        [[completedSecond, completedFirst], [completedSecond, completedFirst]] ∧
      (history id).keeps { limit := 1 } completedFirst = true ∧
      ∃ pages, follow (fun _ => none) id (history id) 200 oneByOne
          [[completedSecond, completedFirst], [completedSecond, completedFirst]] = some pages ∧
        finished pages = true ∧ (shown pages).map (fun record => record.id) = ["second"] := by
  have hunique : ∀ items ∈ [[completedSecond, completedFirst], [completedSecond, completedFirst]],
      items = [completedSecond, completedFirst] := by
    intro items hitems
    simpa using hitems
  refine ⟨⟨fun items hitems => ?_, fun items hitems items' hitems' a ha b hb hid => ?_⟩, rfl, ?_⟩
  · rw [hunique items hitems]
    decide
  · rw [hunique items hitems] at ha
    rw [hunique items' hitems'] at hb
    simp only [List.mem_cons, List.not_mem_nil, or_false] at ha hb
    rcases ha with rfl | rfl <;> rcases hb with rfl | rfl
    · rfl
    · exact absurd hid (by decide)
    · exact absurd hid (by decide)
    · rfl
  · have hmore : ((history id).query [completedSecond, completedFirst] { limit := 1 }).hasMore =
        true := by decide +kernel
    have hlast : ((history id).query [completedSecond, completedFirst]
        { limit := 1 }).items.getLast? = some completedSecond := rfl
    have hcursor := parseCursor_encodeCursor (fun _ => none)
      (show completedSecond.completedTime.Writable by decide +kernel) rfl (by decide)
      (show "second" ≠ "" by decide)
    have hnext := Listing.nextCursor_eq hmore hlast
    rw [← show (history id).id completedSecond = "second" from rfl,
      show encodeCursor completedSecond.completedTime ((history id).id completedSecond) = _
        from hnext.symm] at hcursor
    have hpages : follow (fun _ => none) id (history id) 200 oneByOne
        [[completedSecond, completedFirst], [completedSecond, completedFirst]] =
          some [(history id).query [completedSecond, completedFirst] { limit := 1 },
            (history id).query [completedSecond, completedFirst]
              { limit := 1,
                cursor := some
                  { time := { completedSecond.completedTime with monotonic := none },
                    id := "second" } }] := by
      rw [follow, parse_oneByOne, Option.bind_some]
      dsimp only
      rw [if_pos hmore, follow, parseListQuery_update parse_oneByOne hcursor, Option.bind_some]
      rfl
    exact ⟨_, hpages, by decide +kernel, rfl⟩

end RelayLifeline.Admin
