import Mathlib.Data.Int.Init
import Mathlib.Data.List.Basic
import Mathlib.Data.List.Forall2
import ProRLAgent.Basic
import ProRLAgent.Lib.Dict
import ProRLAgent.Lib.Except
import ProRLAgent.Lib.Machine

set_option relaxedAutoImplicit false
set_option autoImplicit false

/-!
# The event store and its cache pages

`EventStream.add_event` writes one file per event. It also collects the events since the stream was
opened in pages of `cache_size` and writes every full page under the name `start-end`, where
`start` is the id of its first event. `EventStore.search_events` reads the pages that start at a
multiple of `cache_size` and falls back to the files of single events.

Contents of files are what `json.loads` gives back: `dumps` turns the dictionary of an event into
such a content or raises, and the text of a page is read back as the list of the contents of its
events. The file names are injective in the ids, so the file store is a dictionary from ids and one
from pairs of ids. The shutdown flag (`should_continue`) is not modelled.

## Main definitions

* `EventStore.addEvent`, `EventStore.reopen`, `EventStore.searchEvents` — the operations.
* `EventStore.yieldAll` — a search without pages.
* `EventStore.SearchExact` — the property.
* `EventStore.Kept` — the condition on a call of `add_event`.
* `EventStore.Consistent` — the invariant.

## Main results

* `EventStore.step_consistent` — calls that meet the condition and re-openings keep the invariant.
* `EventStore.searchLoop_eq_yieldAll` — with exact pages the paged loop is the direct one.
* `EventStore.searchExact_of_kept` — the property along runs that meet the condition.
* `EventStore.not_searchExact_hole` — an event that cannot be converted shifts a page.
-/

namespace ProRLAgent.EventStore

/-- `cache_size`. -/
def cacheSize : ℕ := 25

/-- The serialization that the store uses: `json.dumps` of the dictionary of an event, up to the
content that is read back, and `event_from_dict` of such a content. -/
structure Serialization (ε δ τ : Type) where
  dumps : δ → Except PyError τ
  eventFromDict : τ → Except PyError ε

/-- An open stream with its file store: the files of the events, the cache pages, the next id and
the page that is being filled, whose dictionaries are kept with their ids. -/
structure State (δ τ : Type) where
  events : Dict ℤ τ
  pages : Dict (ℤ × ℤ) (List τ)
  curId : ℤ
  writePage : List (ℤ × δ)

/-- What the file store answers to the two writes of a call. -/
structure Writes where
  event : Except PyError Unit
  page : Except PyError Unit

section Operations

variable {ε δ τ : Type}

/-- `_store_cache_page`. -/
def storeCachePage (ser : Serialization ε δ τ) (write : Except PyError Unit)
    (currentWritePage : List (ℤ × δ)) (s : State δ τ) : Except PyError Unit × State δ τ :=
  if currentWritePage.length < cacheSize then (.ok (), s)
  else
    match currentWritePage.mapM fun x => ser.dumps x.2, write with
    | .error err, _ => (.error err, s)
    | .ok _, .error err => (.error err, s)
    | .ok contents, .ok () =>
      match currentWritePage.head? with
      | some x => (.ok (), { s with pages := s.pages.set (x.1, x.1 + cacheSize) contents })
      | none => (.error .indexError, s)

/-- `add_event` of an event with the id `existing`, if it has one. `convert` is what the section
with the lock makes of the event for the id that it gets: `event_to_dict`, `_replace_secrets` and
the check by `event_from_dict`. -/
def addEvent (ser : Serialization ε δ τ) (existing : Option ℤ) (convert : ℤ → Except PyError δ)
    (writes : Writes) (s : State δ τ) : Except PyError Unit × State δ τ :=
  match existing with
  | some id =>
    (.error (.valueError (s!"Event already has an ID:{id}. It was probably added back to the " ++
      "EventStream from inside a handler, triggering a loop.")), s)
  | none =>
    -- The id is used up before the conversion can raise.
    let s₁ := { s with curId := s.curId + 1 }
    match convert s.curId with
    | .error err => (.error err, s₁)
    | .ok data =>
      let page := s.writePage ++ [(s.curId, data)]
      let s₂ := { s₁ with writePage := if page.length = cacheSize then [] else page }
      match ser.dumps data, writes.event with
      | .error err, _ => (.error err, s₂)
      | .ok _, .error err => (.error err, s₂)
      | .ok content, .ok () =>
        storeCachePage ser writes.page page { s₂ with events := s₂.events.set s.curId content }

/-- The next id of a store with the files of these ids (`__post_init__`). -/
def nextId (ids : List ℤ) : ℤ :=
  if ids = [] then 0 else ids.foldl (fun curId id => if curId ≤ id then id + 1 else curId) (-1)

/-- The stream is opened again. -/
def reopen (s : State δ τ) : State δ τ := { s with curId := nextId s.events.keys, writePage := [] }

/-- A stream without files. -/
def empty : State δ τ := reopen ⟨Dict.empty, Dict.empty, 0, []⟩

/-! ## Searching -/

/-- `_CachePage`. -/
structure CachePage (τ : Type) where
  events : Option (List τ)
  start : ℤ
  stop : ℤ

def CachePage.covers (page : CachePage τ) (globalIndex : ℤ) : Bool :=
  if globalIndex < page.start then false
  else if page.stop ≤ globalIndex then false
  else true

/-- `_CachePage.get_event`, for an index that the page covers. -/
def CachePage.getEvent (ser : Serialization ε δ τ) (page : CachePage τ) (globalIndex : ℤ) :
    Except PyError (Option ε) :=
  match page.events with
  | none | some [] => .ok none
  | some contents =>
    match contents[(globalIndex - page.start).toNat]? with
    | some content => (ser.eventFromDict content).map some
    | none => .error .indexError

/-- `_DUMMY_PAGE`. -/
def dummyPage : CachePage τ := ⟨none, 1, -1⟩

/-- `_load_cache_page`. -/
def loadCachePage (s : State δ τ) (start stop : ℤ) : CachePage τ :=
  ⟨s.pages.get? (start, stop), start, stop⟩

/-- `_load_cache_page_for_index`. -/
def loadCachePageForIndex (s : State δ τ) (index : ℤ) : CachePage τ :=
  let offset := index % cacheSize
  loadCachePage s (index - offset) (index - offset + cacheSize)

/-- `get_event`, with a missing file as no event. -/
def getEvent (ser : Serialization ε δ τ) (s : State δ τ) (id : ℤ) : Except PyError (Option ε) :=
  match s.events.get? id with
  | some content => (ser.eventFromDict content).map some
  | none => .ok none

/-- The event of an index, from the page if it has one and else from the file. -/
def readEvent (ser : Serialization ε δ τ) (s : State δ τ) (cachePage : CachePage τ) (index : ℤ) :
    Except PyError (Option ε) :=
  match cachePage.getEvent ser index with
  | .ok none => getEvent ser s index
  | found => found

/-- What a generator has yielded, and the exception that ended it, if there was one. -/
structure Yielded (ε : Type) where
  events : List ε
  error : Option PyError
  deriving DecidableEq

/-- The generator yields `e` first. -/
def Yielded.cons (e : ε) (y : Yielded ε) : Yielded ε := ⟨e :: y.events, y.error⟩

/-- `range(start, stop)` and `range(start, stop, -1)`. -/
def pyRange (start stop : ℤ) (down : Bool) : List ℤ :=
  if down then (List.range (start - stop).toNat).map fun (k : ℕ) => start - k
  else (List.range (stop - start).toNat).map fun (k : ℕ) => start + k

/-- The event passes the filter, if there is one. -/
def passes (filter : Option (ε → Bool)) (e : ε) : Bool :=
  match filter with
  | none => true
  | some p => p e

/-- The limit is reached (`limit and limit <= num_results`). -/
def limitReached (limit : Option ℕ) (numResults : ℕ) : Bool :=
  match limit with
  | none => false
  | some n => n ≠ 0 ∧ n ≤ numResults

/-- The loop of `search_events` over the indices that are left. -/
def searchLoop (ser : Serialization ε δ τ) (s : State δ τ) (filter : Option (ε → Bool))
    (limit : Option ℕ) : List ℤ → CachePage τ → ℕ → Yielded ε
  | [], _, _ => ⟨[], none⟩
  | index :: indices, cachePage, numResults =>
    let cachePage := if cachePage.covers index then cachePage else loadCachePageForIndex s index
    match readEvent ser s cachePage index with
    | .error err => ⟨[], some err⟩
    | .ok none => searchLoop ser s filter limit indices cachePage numResults
    | .ok (some e) =>
      if passes filter e then
        if limitReached limit (numResults + 1) then ⟨[e], none⟩
        else (searchLoop ser s filter limit indices cachePage (numResults + 1)).cons e
      else searchLoop ser s filter limit indices cachePage numResults

/-- **`search_events`.** -/
def searchEvents (ser : Serialization ε δ τ) (s : State δ τ) (startId : ℤ) (endId : Option ℤ)
    (reverse : Bool) (filter : Option (ε → Bool)) (limit : Option ℕ) : Yielded ε :=
  let stop := match endId with
    | none => s.curId
    | some id => id + 1
  let indices :=
    if reverse then pyRange (stop - 1) (startId - 1) true else pyRange startId stop false
  searchLoop ser s filter limit indices dummyPage 0

/-! ## The property -/

/-- The events among the results of reading files one after the other that pass the filter, up to
the limit and up to the first file that cannot be read. -/
def yieldAll (filter : Option (ε → Bool)) : List (Except PyError ε) → Option ℕ → Yielded ε
  | [], _ => ⟨[], none⟩
  | r :: rs, limit =>
    if limit = some 0 then ⟨[], none⟩
    else
      match r with
      | .error err => ⟨[], some err⟩
      | .ok e =>
        if passes filter e then (yieldAll filter rs (limit.map (· - 1))).cons e
        else yieldAll filter rs limit

section

attribute [local simp] yieldAll searchLoop

end

/-- The ids from `first` to `last`, both included. -/
def idsBetween (first last : ℤ) : List ℤ :=
  (List.range (last + 1 - first).toNat).map fun (k : ℕ) => first + k

/-- The last id of a search. -/
def lastId (s : State δ τ) (endId : Option ℤ) : ℤ :=
  match endId with
  | none => s.curId - 1
  | some id => id

/-- The contents of the event files in the range of a search, in its order. -/
def contentsBetween (s : State δ τ) (startId : ℤ) (endId : Option ℤ) (reverse : Bool) : List τ :=
  let contents := (idsBetween startId (lastId s endId)).filterMap s.events.get?
  if reverse then contents.reverse else contents

/-- **Paged search is direct search**: a search yields the events of the single files in its range
that pass its filter, in its order and up to its limit; and the pages that a search can read hold
exactly the contents of the files of their ids. -/
structure SearchExact (ser : Serialization ε δ τ) (s : State δ τ) : Prop where
  search : ∀ startId endId reverse filter limit, (∀ n, limit = some n → 0 < n) →
    searchEvents ser s startId endId reverse filter limit =
      yieldAll filter ((contentsBetween s startId endId reverse).map ser.eventFromDict) limit
  readable : ∀ startId endId reverse filter limit (f : τ → ε), (∀ n, limit = some n → 0 < n) →
    (∀ c ∈ contentsBetween s startId endId reverse, ser.eventFromDict c = .ok (f c)) →
    searchEvents ser s startId endId reverse filter limit =
      ⟨(((contentsBetween s startId endId reverse).map f).filter (passes filter)).take
        (limit.getD (contentsBetween s startId endId reverse).length), none⟩
  pages : ∀ index contents, (loadCachePageForIndex s index).events = some contents →
    contents.map some = (idsBetween (loadCachePageForIndex s index).start
      ((loadCachePageForIndex s index).stop - 1)).map s.events.get?

/-! ## Runs -/

/-- What can be done with a stream. -/
inductive Label (δ : Type) where
  | add (existing : Option ℤ) (convert : ℤ → Except PyError δ) (writes : Writes)
  | reopen

/-- One call. -/
def step (ser : Serialization ε δ τ) (s : State δ τ) : Label δ → Option (State δ τ)
  | .add existing convert writes => some (addEvent ser existing convert writes s).2
  | .reopen => some (reopen s)

/-- **The condition on a call of `add_event`**: the event can be converted, and the file store does
not refuse its file. -/
def Kept (s : State δ τ) : Label δ → Prop
  | .add none convert writes => (convert s.curId).isOk = true ∧ writes.event.isOk = true
  | _ => True

instance (s : State δ τ) (l : Label δ) : Decidable (Kept s l) := by
  cases l with
  | add existing convert writes => cases existing <;> unfold Kept <;> infer_instance
  | reopen => unfold Kept; infer_instance

end Operations

/-! ## The invariant -/

section Invariant

variable {ε δ τ : Type} {ser : Serialization ε δ τ} {s : State δ τ}

/-- **The invariant**: no event file is at or above the next id; the page that is being filled holds
the last ids, and the contents of its dictionaries are in their files; and a cache page holds
exactly the contents of the files of its ids. -/
structure Consistent (ser : Serialization ε δ τ) (s : State δ τ) : Prop where
  fresh : ∀ id, s.curId ≤ id → s.events.get? id = none
  pageShort : s.writePage.length < cacheSize
  pageIds : s.writePage.map Prod.fst = idsBetween (s.curId - s.writePage.length) (s.curId - 1)
  pageFiles : ∀ x ∈ s.writePage, ∀ content, ser.dumps x.2 = .ok content →
    s.events.get? x.1 = some content
  stored : ∀ start stop contents, s.pages.get? (start, stop) = some contents →
    stop = start + cacheSize ∧ contents.map some = (idsBetween start (stop - 1)).map s.events.get?

/-! ### Ranges of ids -/

/-- A range that ends one id later. -/
lemma idsBetween_concat (first last : ℤ) (h : first ≤ last + 1) :
    idsBetween first (last + 1) = idsBetween first last ++ [last + 1] := by
  have hlen : (last + 1 + 1 - first).toNat = (last + 1 - first).toNat + 1 := by omega
  simp only [idsBetween, hlen, List.range_succ, List.map_append, List.map_cons, List.map_nil]
  congr 2
  omega

/-- The entry of a range at an offset. -/
lemma getElem?_idsBetween (first last id : ℤ) (hfirst : first ≤ id) (hlast : id ≤ last) :
    (idsBetween first last)[(id - first).toNat]? = some id := by
  have hlt : (id - first).toNat < (last + 1 - first).toNat := by omega
  have hsum : first + ((id - first).toNat : ℤ) = id := by omega
  simp only [idsBetween, List.getElem?_map, List.getElem?_range hlt, Option.map_some, hsum]

/-- The ids of a range in descending order. -/
lemma pyRange_down (first last : ℤ) :
    pyRange last (first - 1) true = (idsBetween first last).reverse := by
  have hlen : (last - (first - 1)).toNat = (last + 1 - first).toNat := by omega
  simp only [pyRange, idsBetween, if_true, hlen]
  refine List.ext_getElem? fun k => ?_
  rw [List.getElem?_map]
  by_cases hk : k < (last + 1 - first).toNat
  · rw [List.getElem?_range hk, List.getElem?_reverse (by simpa using hk), List.getElem?_map,
      List.length_map, List.length_range, List.getElem?_range (by omega)]
    simp only [Option.map_some, Option.some.injEq]
    omega
  · rw [List.getElem?_eq_none (by simpa using hk), List.getElem?_eq_none (by simpa using hk)]
    rfl

/-! ### Re-opening -/

/-- The next id of a store is above the ids of its files. -/
lemma lt_nextId {ids : List ℤ} {id : ℤ} (h : id ∈ ids) : id < nextId ids := by
  -- The running maximum only grows.
  have hgrow : ∀ (ids : List ℤ) (curId : ℤ),
      curId ≤ ids.foldl (fun curId id => if curId ≤ id then id + 1 else curId) curId ∧
      ∀ id ∈ ids, id < ids.foldl (fun curId id => if curId ≤ id then id + 1 else curId) curId := by
    intro ids
    induction ids with
    | nil => simp
    | cons a ids ih =>
      intro curId
      obtain ⟨hle, hlt⟩ := ih (if curId ≤ a then a + 1 else curId)
      have hcur : curId ≤ (if curId ≤ a then a + 1 else curId) := by
        split <;> omega
      have ha : a < (if curId ≤ a then a + 1 else curId) := by
        split <;> omega
      rw [List.foldl_cons]
      refine ⟨by omega, fun id hid => ?_⟩
      rcases List.mem_cons.mp hid with rfl | hid
      · omega
      · exact hlt id hid
  rw [nextId, if_neg (List.ne_nil_of_mem h)]
  exact (hgrow ids (-1)).2 id h

/-- Opening the stream again keeps the invariant. -/
lemma Consistent.reopen (h : Consistent ser s) : Consistent ser (reopen s) where
  fresh id hid := by
    show s.events.get? id = none
    rw [Dict.get?_eq_none_iff]
    intro hmem
    have hlt := lt_nextId hmem
    have hle : nextId s.events.keys ≤ id := hid
    omega
  pageShort := by
    show 0 < cacheSize
    decide
  pageIds := by simp [EventStore.reopen, idsBetween]
  pageFiles x hx := by cases hx
  stored := h.stored

/-! ### Adding an event -/

/-- The page that a call fills: the last ids, the new one included. -/
lemma Consistent.page_concat (h : Consistent ser s) (data : δ) :
    (s.writePage ++ [(s.curId, data)]).map Prod.fst =
      idsBetween (s.curId + 1 - (s.writePage ++ [(s.curId, data)]).length) (s.curId + 1 - 1) := by
  have hlast := idsBetween_concat (s.curId - s.writePage.length) (s.curId - 1) (by omega)
  rw [List.map_append, h.pageIds, List.length_append, List.length_singleton]
  have hfirst : s.curId + 1 - ((s.writePage.length + 1 : ℕ) : ℤ) =
      s.curId - s.writePage.length := by
    push_cast
    omega
  rw [hfirst, show s.curId + 1 - 1 = s.curId - 1 + 1 by omega, hlast]
  simp

/-- The contents of the page that a call fills are in their files. -/
lemma Consistent.page_files (h : Consistent ser s) {data : δ} {events : Dict ℤ τ}
    (hold : ∀ id, id ≠ s.curId → events.get? id = s.events.get? id)
    (hnew : ∀ content, ser.dumps data = .ok content → events.get? s.curId = some content) :
    ∀ x ∈ s.writePage ++ [(s.curId, data)], ∀ content, ser.dumps x.2 = .ok content →
      events.get? x.1 = some content := by
  intro x hx content hc
  rcases List.mem_append.mp hx with hx | hx
  · have hfile := h.pageFiles x hx content hc
    have hne : x.1 ≠ s.curId := by
      intro he
      rw [he, h.fresh s.curId (Int.le_refl _)] at hfile
      cases hfile
    exact (hold x.1 hne).trans hfile
  · obtain rfl := List.mem_singleton.mp hx
    exact hnew content hc

/-- A call takes the next id, appends its dictionary to the page and leaves the other files as they
are. -/
lemma Consistent.append (h : Consistent ser s) (data : δ) (events : Dict ℤ τ)
    (hold : ∀ id, id ≠ s.curId → events.get? id = s.events.get? id)
    (hnew : ∀ content, ser.dumps data = .ok content → events.get? s.curId = some content) :
    Consistent ser { s with
      curId := s.curId + 1
      writePage := if (s.writePage ++ [(s.curId, data)]).length = cacheSize then []
        else s.writePage ++ [(s.curId, data)]
      events := events } := by
  have hshort := h.pageShort
  refine ⟨fun id hid => ?_, ?_, ?_, fun x hx content hc => ?_, fun start stop contents hpage => ?_⟩
  · have hid' : s.curId + 1 ≤ id := hid
    exact (hold id (by omega)).trans (h.fresh id (by omega))
  · show List.length (if _ then _ else _) < cacheSize
    split
    · show 0 < cacheSize
      decide
    · rename_i hfull
      rw [List.length_append, List.length_singleton] at hfull ⊢
      omega
  · show List.map Prod.fst (if _ then _ else _) = idsBetween (s.curId + 1 - _) (s.curId + 1 - 1)
    split
    · simp [idsBetween]
    · exact h.page_concat data
  · change x ∈ (if _ then _ else _) at hx
    split at hx
    · cases hx
    · exact h.page_files hold hnew x hx content hc
  · obtain ⟨hstop, hcontents⟩ := h.stored start stop contents hpage
    refine ⟨hstop, hcontents.trans (List.map_congr_left fun id hid => ?_)⟩
    -- The ids of a page have files, so the new file is none of them.
    have hsome : s.events.get? id ∈ contents.map some := by
      rw [hcontents]
      exact List.mem_map.mpr ⟨id, hid, rfl⟩
    obtain ⟨content, -, hc⟩ := List.mem_map.mp hsome
    refine (hold id ?_).symm
    rintro rfl
    rw [h.fresh s.curId (Int.le_refl _)] at hc
    cases hc

/-- Storing a full page whose files are there. -/
lemma Consistent.store (h : Consistent ser s) {page : List (ℤ × δ)} {start : ℤ}
    (hids : page.map Prod.fst = idsBetween start (start + cacheSize - 1))
    (hfiles : ∀ x ∈ page, ∀ content, ser.dumps x.2 = .ok content →
      s.events.get? x.1 = some content) {contents : List τ}
    (hdumps : page.mapM (fun x => ser.dumps x.2) = .ok contents) :
    Consistent ser { s with pages := s.pages.set (start, start + cacheSize) contents } := by
  refine ⟨h.fresh, h.pageShort, h.pageIds, h.pageFiles, fun a b cs hpage => ?_⟩
  rw [Dict.get?_set] at hpage
  split at hpage
  · rename_i heq
    obtain ⟨rfl, rfl⟩ := Prod.mk.inj heq
    obtain rfl := Option.some.inj hpage
    refine ⟨rfl, ?_⟩
    have hall := Except.mapM_eq_ok_iff.mp hdumps
    have hread : ∀ {page : List (ℤ × δ)} {contents : List τ},
        List.Forall₂ (fun x content => ser.dumps x.2 = .ok content) page contents →
        (∀ x ∈ page, ∀ content, ser.dumps x.2 = .ok content →
          s.events.get? x.1 = some content) →
        contents.map some = (page.map Prod.fst).map s.events.get? := by
      intro page contents hall hfiles
      induction hall with
      | nil => rfl
      | cons hx _ ih =>
        rw [List.map_cons, List.map_cons, List.map_cons, hfiles _ (by simp) _ hx,
          ih fun x hx => hfiles x (by simp [hx])]
    rw [← hids]
    exact hread hall hfiles
  · exact h.stored a b cs hpage

/-- `_store_cache_page` of a page of consecutive ids whose files are there. -/
lemma storeCachePage_consistent (h : Consistent ser s) {page : List (ℤ × δ)} {next : ℤ}
    (hids : page.map Prod.fst = idsBetween (next - page.length) (next - 1))
    (hlen : page.length ≤ cacheSize) (hfiles : ∀ x ∈ page, ∀ content, ser.dumps x.2 = .ok content →
      s.events.get? x.1 = some content) {write : Except PyError Unit} :
    Consistent ser (storeCachePage ser write page s).2 := by
  unfold storeCachePage
  split
  · exact h
  · rename_i hfull
    have hsize : page.length = cacheSize := by omega
    split
    · exact h
    · exact h
    · rename_i contents hdumps
      split
      · rename_i x hx
        -- The first id of the page is that of its first entry.
        have hstart : x.1 = next - cacheSize := by
          have hhead : (page.map Prod.fst).head? = some x.1 := by rw [List.head?_map, hx]; rfl
          have hpos : 0 < cacheSize := by decide
          have hfirst := getElem?_idsBetween (next - page.length) (next - 1) (next - page.length)
            (by omega) (by omega)
          rw [hids, List.head?_eq_getElem?] at hhead
          rw [Int.sub_self, Int.toNat_zero, hhead] at hfirst
          rw [Option.some.inj hfirst, hsize]
        refine h.store ?_ hfiles hdumps
        rw [hids, hsize, hstart]
        congr 1
        omega
      · exact h

/-- **A call of `add_event`** that meets the condition keeps the invariant. -/
lemma addEvent_consistent (h : Consistent ser s) {existing : Option ℤ}
    {convert : ℤ → Except PyError δ} {writes : Writes}
    (hcond : Kept s (.add existing convert writes)) :
    Consistent ser (addEvent ser existing convert writes s).2 := by
  cases existing with
  | some id => exact h
  | none =>
    obtain ⟨hconvert, hwrite⟩ := hcond
    cases hdata : convert s.curId with
    | error err => simp [hdata, Except.isOk, Except.toBool] at hconvert
    | ok data =>
      simp only [addEvent, hdata]
      cases hd : ser.dumps data with
      | error err =>
        exact h.append data s.events (fun _ _ => rfl) fun content hc => by rw [hd] at hc; cases hc
      | ok content =>
        cases hw : writes.event with
        | error err => simp [hw, Except.isOk, Except.toBool] at hwrite
        | ok u =>
          have hold : ∀ id, id ≠ s.curId →
              (s.events.set s.curId content).get? id = s.events.get? id := by
            intro id hid
            rw [Dict.get?_set, if_neg hid]
          have hnew : ∀ content', ser.dumps data = .ok content' →
              (s.events.set s.curId content).get? s.curId = some content' := by
            intro content' hc
            obtain rfl := Except.ok.inj (hd.symm.trans hc)
            rw [Dict.get?_set, if_pos rfl]
          exact storeCachePage_consistent (h.append data _ hold hnew) (h.page_concat data)
            (by rw [List.length_append]; exact h.pageShort) (h.page_files hold hnew)

/-- **The step lemma**: calls that meet the condition and re-openings keep the invariant. -/
theorem step_consistent {s' : State δ τ} (h : Consistent ser s) {l : Label δ} (hcond : Kept s l)
    (hstep : step ser s l = some s') : Consistent ser s' := by
  cases l with
  | add existing convert writes =>
    obtain rfl := Option.some.inj hstep
    exact addEvent_consistent h hcond
  | reopen =>
    obtain rfl := Option.some.inj hstep
    exact h.reopen

end Invariant

/-! ## The search -/

section Search

variable {ε δ τ : Type} {ser : Serialization ε δ τ} {s : State δ τ}

/-- Reading through the page gives what reading the file of the event gives. -/
def CachePage.Exact (ser : Serialization ε δ τ) (s : State δ τ) (page : CachePage τ) : Prop :=
  ∀ index, page.covers index = true → readEvent ser s page index = EventStore.getEvent ser s index

/-- What a page covers. -/
lemma CachePage.covers_iff {page : CachePage τ} {index : ℤ} :
    page.covers index = true ↔ page.start ≤ index ∧ index < page.stop := by
  simp only [CachePage.covers]
  split
  · simp
    omega
  · split
    · simp
      omega
    · simp
      omega

/-- The dummy page covers nothing. -/
lemma exact_dummyPage : (dummyPage : CachePage τ).Exact ser s := by
  intro index hcovers
  obtain ⟨hstart, hstop⟩ := CachePage.covers_iff.1 hcovers
  change (1 : ℤ) ≤ index at hstart
  change index < (-1 : ℤ) at hstop
  omega

/-- The page of an index covers it. -/
lemma covers_loadCachePageForIndex (s : State δ τ) (index : ℤ) :
    (loadCachePageForIndex s index).covers index = true := by
  have hnonneg := Int.emod_nonneg index (b := (cacheSize : ℤ)) (by decide)
  have hlt := Int.emod_lt_of_pos index (b := (cacheSize : ℤ)) (by decide)
  rw [CachePage.covers_iff]
  simp only [loadCachePageForIndex, loadCachePage]
  omega

/-- The pages of a consistent store are exact. -/
lemma Consistent.exact_page (h : Consistent ser s) (start stop : ℤ) :
    (loadCachePage s start stop).Exact ser s := by
  intro index hcovers
  obtain ⟨hstart, hstop⟩ := CachePage.covers_iff.1 hcovers
  simp only [loadCachePage] at hstart hstop
  simp only [readEvent, loadCachePage, CachePage.getEvent]
  cases hpage : s.pages.get? (start, stop) with
  | none => rfl
  | some contents =>
    obtain ⟨-, hcontents⟩ := h.stored start stop contents hpage
    have hentry : (contents.map some)[(index - start).toNat]? = some (s.events.get? index) := by
      rw [hcontents, List.getElem?_map,
        getElem?_idsBetween start (stop - 1) index hstart (by omega)]
      rfl
    rw [List.getElem?_map] at hentry
    cases contents with
    | nil => simp at hentry
    | cons c cs =>
      cases hc : (c :: cs)[(index - start).toNat]? with
      | none => simp [hc] at hentry
      | some content =>
        have hfile : s.events.get? index = some content := by simpa [hc] using hentry.symm
        simp only [getEvent, hfile, hc]
        cases ser.eventFromDict content with
        | error err => rfl
        | ok e => rfl

/-- A search that has used up its limit. -/
lemma yieldAll_zero (filter : Option (ε → Bool)) (rs : List (Except PyError ε)) :
    yieldAll filter rs (some 0) = ⟨[], none⟩ := by
  cases rs <;> simp [yieldAll]

/-- **The paged loop is the direct one** when the pages are exact. -/
theorem searchLoop_eq_yieldAll (h : Consistent ser s) (filter : Option (ε → Bool))
    (limit : Option ℕ) (indices : List ℤ) (page : CachePage τ) (hpage : page.Exact ser s)
    (numResults : ℕ) (hlimit : ∀ n, limit = some n → numResults < n) :
    searchLoop ser s filter limit indices page numResults =
      yieldAll filter ((indices.filterMap s.events.get?).map ser.eventFromDict)
        (limit.map (· - numResults)) := by
  induction indices generalizing page numResults with
  | nil => rfl
  | cons index indices ih =>
    have hpage' : (if page.covers index then page else loadCachePageForIndex s index).Exact ser s ∧
        (if page.covers index then page else loadCachePageForIndex s index).covers index =
          true := by
      split
      · exact ⟨hpage, ‹_›⟩
      · exact ⟨h.exact_page _ _, covers_loadCachePageForIndex s index⟩
    generalize hp : (if page.covers index then page else loadCachePageForIndex s index) = page'
      at hpage'
    obtain ⟨hexact, hcovers⟩ := hpage'
    have hnz : limit.map (· - numResults) ≠ some 0 := by
      intro hzero
      obtain ⟨n, hn, hsub⟩ := Option.map_eq_some_iff.mp hzero
      have hlt := hlimit n hn
      omega
    rw [searchLoop]
    simp only [hp, hexact index hcovers]
    cases hfile : s.events.get? index with
    | none =>
      simp only [getEvent, hfile, List.filterMap_cons]
      exact ih page' hexact numResults hlimit
    | some content =>
      simp only [getEvent, hfile, List.filterMap_cons, List.map_cons, yieldAll, if_neg hnz]
      cases hread : ser.eventFromDict content with
      | error err => rfl
      | ok e =>
        simp only [Except.map]
        split
        · -- The event is yielded, and the limit may be reached with it.
          cases limit with
          | none =>
            simp only [limitReached, Bool.false_eq_true, if_false, Option.map_none]
            rw [ih page' hexact (numResults + 1) (by simp)]
            rfl
          | some n =>
            have hlt := hlimit n rfl
            by_cases hn : n = numResults + 1
            · subst hn
              simp only [limitReached, Option.map_some]
              rw [show numResults + 1 - numResults - 1 = 0 by omega, yieldAll_zero]
              simp [Yielded.cons]
            · have hmore : limitReached (some n) (numResults + 1) = false := by
                simp [limitReached]
                omega
              rw [hmore]
              simp only [Bool.false_eq_true, if_false, Option.map_some]
              rw [ih page' hexact (numResults + 1) (by intro m hm; cases hm; omega)]
              simp only [Option.map_some, Nat.sub_sub]
        · exact ih page' hexact numResults hlimit

/-- A direct search of files that can all be read. -/
lemma yieldAll_readable (filter : Option (ε → Bool)) (f : τ → ε) (read : τ → Except PyError ε)
    (cs : List τ) (hread : ∀ c ∈ cs, read c = .ok (f c)) (limit : Option ℕ) :
    yieldAll filter (cs.map read) limit =
      ⟨((cs.map f).filter (passes filter)).take (limit.getD cs.length), none⟩ := by
  induction cs generalizing limit with
  | nil => simp [yieldAll]
  | cons c cs ih =>
    have htail := ih fun c' hc' => hread c' (by simp [hc'])
    rw [List.map_cons, hread c (by simp), yieldAll]
    by_cases hzero : limit = some 0
    · simp [hzero]
    · rw [if_neg hzero]
      by_cases hpass : passes filter (f c) = true
      · rw [if_pos hpass, htail, List.map_cons, List.filter_cons_of_pos hpass]
        cases limit with
        | none => rfl
        | some n =>
          obtain ⟨m, rfl⟩ : ∃ m, n = m + 1 := ⟨n - 1, by
            have : n ≠ 0 := fun hn => hzero (by rw [hn])
            omega⟩
          rfl
      · rw [if_neg hpass, htail, List.map_cons, List.filter_cons_of_neg (by simpa using hpass)]
        cases limit with
        | none =>
          have hle : ((cs.map f).filter (passes filter)).length ≤ cs.length := by
            simpa using List.length_filter_le (passes filter) (cs.map f)
          simp only [Option.getD_none, List.length_cons]
          rw [List.take_of_length_le hle, List.take_of_length_le (by omega)]
        | some n => rfl

/-- A search of a consistent store is a direct search. -/
lemma Consistent.search (h : Consistent ser s) (startId : ℤ) (endId : Option ℤ) (reverse : Bool)
    (filter : Option (ε → Bool)) (limit : Option ℕ) (hlimit : ∀ n, limit = some n → 0 < n) :
    searchEvents ser s startId endId reverse filter limit =
      yieldAll filter ((contentsBetween s startId endId reverse).map ser.eventFromDict) limit := by
  have hloop := fun indices =>
    searchLoop_eq_yieldAll h filter limit indices dummyPage exact_dummyPage 0 hlimit
  have hsub : limit.map (· - 0) = limit := by cases limit <;> rfl
  -- The exclusive end of the loop is the last id plus one.
  have hstop : (match endId with | none => s.curId | some id => id + 1) = lastId s endId + 1 := by
    cases endId with
    | none => simp [lastId]
    | some id => rfl
  simp only [searchEvents, hstop, hloop, hsub, contentsBetween]
  cases reverse with
  | true =>
    rw [if_pos rfl, if_pos rfl, show lastId s endId + 1 - 1 = lastId s endId by omega, pyRange_down,
      List.filterMap_reverse]
  | false => rfl

/-- The invariant gives the property. -/
lemma Consistent.searchExact (h : Consistent ser s) : SearchExact ser s where
  search := h.search
  readable startId endId reverse filter limit f hlimit hread := by
    rw [h.search startId endId reverse filter limit hlimit]
    exact yieldAll_readable filter f ser.eventFromDict _ hread limit
  pages index contents hpage := (h.stored _ _ contents hpage).2

/-- **Paged search equals direct search**: after every sequence of `add_event` calls that meet the
condition and of re-openings, every search yields the events of the single files in its range that
pass its filter, in its order and cut after its limit, and every cache page that a search can read
holds exactly the events of its ids. -/
theorem searchExact_of_kept (ser : Serialization ε δ τ) (ls : List (Label δ)) (s : State δ τ)
    (hrun : Machine.run (Machine.guarded (step ser) Kept) empty ls = some s) :
    SearchExact ser s := by
  have hempty : Consistent ser (empty : State δ τ) := by
    refine ⟨fun id _ => rfl, ?_, rfl, fun x hx => (by cases hx), fun a b cs hcs => (by cases hcs)⟩
    show 0 < cacheSize
    decide
  have hinv : Consistent ser s := by
    refine Machine.run_invariant (Consistent ser) (fun s l s' h hstep => ?_) hempty hrun
    obtain ⟨hcond, hstep⟩ := Machine.guarded_eq_some.mp hstep
    exact step_consistent h hcond hstep
  exact hinv.searchExact

end Search

/-- Events that are their own dictionaries and contents: the event with the id `n` is `n`. -/
def plainSerialization : Serialization ℤ ℤ ℤ := ⟨.ok, .ok⟩

/-- A call of `add_event` whose writes succeed, with this outcome of the conversion. -/
def addPlain (convert : ℤ → Except PyError ℤ) : Label ℤ := .add none convert ⟨.ok (), .ok ()⟩

/-- Two full pages at unaligned and aligned starts: 13 events, a re-opening, 12 and 25 events. -/
def reopenedRun : List (Label ℤ) :=
  List.replicate 13 (addPlain .ok) ++ [Label.reopen] ++ List.replicate 12 (addPlain .ok) ++
    [Label.reopen] ++
    List.replicate 25 (addPlain .ok)

set_option maxRecDepth 2000 in
theorem searchExact_reopenedRun :
    ∃ s, Machine.run (Machine.guarded (step plainSerialization) Kept) empty reopenedRun = some s ∧
      s.curId = 50 ∧ s.pages.keys = [(25, 50)] ∧ SearchExact plainSerialization s := by
  obtain ⟨s, hrun, hcur, hpages⟩ :
      ∃ s, Machine.run (Machine.guarded (step plainSerialization) Kept) empty reopenedRun = some s ∧
        s.curId = 50 ∧ s.pages.keys = [(25, 50)] :=
    ⟨_, rfl, rfl, rfl⟩
  exact ⟨s, hrun, hcur, hpages, searchExact_of_kept plainSerialization reopenedRun s hrun⟩

/-- The second event is a bare `Event`, which cannot be converted. -/
def holeRun : List (Label ℤ) :=
  [addPlain .ok, addPlain fun _ =>
    .error (.valueError "Event must be either action or observation. has: Event()")] ++
    List.replicate 24 (addPlain .ok)

set_option maxRecDepth 2000 in
/-- The event that cannot be converted uses up its id and leaves no entry in the page, so that the
page of the ids `0` to `24` holds the event `25`: a search yields it twice. -/
theorem not_searchExact_hole :
    ∃ s, Machine.run (step plainSerialization) empty holeRun = some s ∧
      (searchEvents plainSerialization s 24 none false none none).events = [25, 25] ∧
      ¬ SearchExact plainSerialization s := by
  refine ⟨_, rfl, rfl, fun h => ?_⟩
  have hsearch := h.search 24 none false none none (by simp)
  exact absurd (congrArg Yielded.events hsearch) (by decide)

end ProRLAgent.EventStore
