import Mathlib.Data.List.Induction
import TimeSeries.Proofs.Cache.History

/-!
# The order of marks

The moments of a cache tell which series was admitted first and which was touched least recently.
What they are to tell can be said without a clock: the events of a run mark series, by admitting
them or by touching them, and of two series that one is earlier whose last mark is.  A store touches
its series, whether the point is accepted or not, and a query touches, subquery by subquery, the
series that each of them selects, in the order of series.

That moments tell the order of marks is kept by each event: a mark sets a moment that is later than
all others, and whatever else happens keeps the moments of the series that remain
(`Chronological.mark`, `Chronological.keep`).  So moments differ, and the series with the earliest
one does not depend on the order in which the series are gone through.

Main statements: `chronological_afterAll` and `Chronological.exists_earliest`.
-/

set_option autoImplicit false

namespace TimeSeries

/-! ## The order of last marks -/

/-- The last mark of the first series is in front of the last mark of the second: from the end, the
second is met before the first. -/
def LastBefore (marks : List Series) (first second : Series) : Prop :=
  marks.reverse.idxOf second < marks.reverse.idxOf first

instance (marks : List Series) (first second : Series) :
    Decidable (LastBefore marks first second) :=
  inferInstanceAs (Decidable (_ < _))

theorem lastBefore_concat_self (marks : List Series) {first last : Series} (apart : first ≠ last) :
    LastBefore (marks ++ [last]) first last := by
  rw [LastBefore, List.reverse_append, List.reverse_singleton, List.singleton_append,
    List.idxOf_cons_self, List.idxOf_cons_ne _ (Ne.symm apart)]
  exact Nat.succ_pos _

/-- A mark of another series does not make a series later. -/
theorem LastBefore.concat {marks : List Series} {first second last : Series}
    (earlier : LastBefore marks first second) (apart : first ≠ last) :
    LastBefore (marks ++ [last]) first second := by
  by_cases same : second = last
  · rw [same]
    exact lastBefore_concat_self marks apart
  · rw [LastBefore] at earlier ⊢
    rw [List.reverse_append, List.reverse_singleton, List.singleton_append,
      List.idxOf_cons_ne _ (Ne.symm apart), List.idxOf_cons_ne _ (Ne.symm same)]
    exact Nat.succ_lt_succ earlier

namespace Cache

/-! ## Marks -/

/-- The series that an event admits. -/
def admissions (cache : Cache) : CacheEvent → List Series
  | .store series _ =>
      if cache.isUncached series.metric || cache.contains series then [] else [series]
  | _ => []

/-- The series that a subquery selects, in their order. -/
def selectedBy (cache : Cache) (query : Query) (now : Timestamp) (subquery : Subquery) :
    List Series :=
  match cache.scan? query subquery now with
  | .ok (some scan) => (cache.selected scan).map Prod.fst
  | _ => []

/-- The series that an event touches, in turn. -/
def touches (cache : Cache) : CacheEvent → List Series
  | .store series _ => if cache.isUncached series.metric then [] else [series]
  | .ask query now =>
      match query.validate with
      | .ok () => query.subqueries.flatMap (cache.selectedBy query now)
      | .error _ => []
  | _ => []

/-- The series that an event marks. -/
def marks (policy : Eviction) (cache : Cache) (event : CacheEvent) : List Series :=
  match policy with
  | .oldest => cache.admissions event
  | .leastRecentlyUsed => cache.touches event

/-- What is marked in the course of some events. -/
def chronicle (mark : Cache → CacheEvent → List Series) (cache : Cache) :
    List CacheEvent → List Series
  | [] => []
  | event :: events => mark cache event ++ chronicle mark (cache.after event) events

theorem afterAll_concat (cache : Cache) (events : List CacheEvent) (event : CacheEvent) :
    cache.afterAll (events ++ [event]) = (cache.afterAll events).after event := by
  rw [afterAll, List.foldl_append]
  rfl

theorem chronicle_concat (mark : Cache → CacheEvent → List Series) (cache : Cache)
    (events : List CacheEvent) (event : CacheEvent) :
    chronicle mark cache (events ++ [event])
      = chronicle mark cache events ++ mark (cache.afterAll events) event := by
  induction events generalizing cache with
  | nil => exact List.append_nil _
  | cons first events ih =>
      rw [List.cons_append, chronicle, ih, chronicle, List.append_assoc]
      rfl

/-! ## Moments tell the order of marks -/

/-- Every series that is held was marked, its moment is past, and of two such series that one was
marked last earlier whose moment is. -/
structure Chronological (policy : Eviction) (cache : Cache) (order : List Series) : Prop where
  known : ∀ series held, cache.held.get? series = some held →
    series ∈ order ∧ held.moment policy < cache.clock
  ordered : ∀ first held second other, cache.held.get? first = some held →
    cache.held.get? second = some other → held.moment policy < other.moment policy →
      LastBefore order first second
  distinct : ∀ first held second other, cache.held.get? first = some held →
    cache.held.get? second = some other → held.moment policy = other.moment policy →
      first = second

variable {policy : Eviction} {cache other : Cache} {order : List Series}

/-- What only removes series and keeps the moments of the others keeps their order. -/
theorem Chronological.keep (chronological : Chronological policy cache order)
    (onward : cache.clock ≤ other.clock)
    (same : ∀ series held, other.held.get? series = some held →
      ∃ old, cache.held.get? series = some old ∧ held.moment policy = old.moment policy) :
    Chronological policy other order := by
  refine ⟨fun series held found => ?_, fun first held second rival here there earlier => ?_,
    fun first held second rival here there alike => ?_⟩
  · obtain ⟨old, was, moment⟩ := same series held found
    obtain ⟨marked, past⟩ := chronological.known series old was
    exact ⟨marked, moment ▸ Nat.lt_of_lt_of_le past onward⟩
  · obtain ⟨old, was, moment⟩ := same first held here
    obtain ⟨older, were, moments⟩ := same second rival there
    rw [moment, moments] at earlier
    exact chronological.ordered first old second older was were earlier
  · obtain ⟨old, was, moment⟩ := same first held here
    obtain ⟨older, were, moments⟩ := same second rival there
    rw [moment, moments] at alike
    exact chronological.distinct first old second older was were alike

/-- A series that gets a moment from the clock on is marked last. -/
theorem Chronological.mark (chronological : Chronological policy cache order) {series : Series}
    {moment : Nat} (fresh : cache.clock ≤ moment) (past : moment < other.clock)
    (here : ∀ held, other.held.get? series = some held → held.moment policy = moment)
    (same : ∀ wanted held, wanted ≠ series → other.held.get? wanted = some held →
      ∃ old, cache.held.get? wanted = some old ∧ held.moment policy = old.moment policy) :
    Chronological policy other (order ++ [series]) := by
  have earlier : ∀ wanted held, wanted ≠ series → other.held.get? wanted = some held →
      held.moment policy < moment := by
    intro wanted held apart found
    obtain ⟨old, was, alike⟩ := same wanted held apart found
    rw [alike]
    exact Nat.lt_of_lt_of_le (chronological.known wanted old was).2 fresh
  have alone : ∀ wanted held, other.held.get? wanted = some held →
      held.moment policy = moment → wanted = series := by
    intro wanted held found now
    by_contra apart
    exact absurd now (Nat.ne_of_lt (earlier wanted held apart found))
  refine ⟨fun wanted held found => ?_, fun first held second rival found there before => ?_,
    fun first held second rival found there alike => ?_⟩
  · by_cases apart : wanted = series
    · rw [apart] at found ⊢
      rw [here held found]
      exact ⟨List.mem_append_right _ List.mem_cons_self, past⟩
    · obtain ⟨old, was, _⟩ := same wanted held apart found
      refine ⟨List.mem_append_left _ (chronological.known wanted old was).1, ?_⟩
      exact Nat.lt_trans (earlier wanted held apart found) past
  · by_cases apart : first = series
    · -- the series just marked has the latest moment, so it is before none
      rw [apart] at found
      rw [here held found] at before
      by_cases alike : second = series
      · rw [alike] at there
        rw [here rival there] at before
        exact absurd before (Nat.lt_irrefl _)
      · exact absurd before (Nat.lt_asymm (earlier second rival alike there))
    · by_cases alike : second = series
      · rw [alike]
        exact lastBefore_concat_self order apart
      · obtain ⟨old, was, moment⟩ := same first held apart found
        obtain ⟨older, were, moments⟩ := same second rival alike there
        rw [moment, moments] at before
        exact (chronological.ordered first old second older was were before).concat apart
  · by_cases apart : first = series
    · rw [apart] at found ⊢
      exact (alone second rival there (alike ▸ here held found)).symm
    · by_cases same_place : second = series
      · rw [same_place] at there ⊢
        exact alone first held found (alike.trans (here rival there))
      · obtain ⟨old, was, moment⟩ := same first held apart found
        obtain ⟨older, were, moments⟩ := same second rival same_place there
        rw [moment, moments] at alike
        exact chronological.distinct first old second older was were alike

/-! ## Stores -/

theorem clock_write (cache : Cache) (series : Series) (held : HeldSeries) (point : Point) :
    (cache.write series held point).1.clock = cache.clock + 1 := by
  unfold write
  split <;> rfl

theorem clock_makeRoom (cache : Cache) : cache.makeRoom.clock = cache.clock := by
  unfold makeRoom
  split
  · unfold evict
    split <;> rfl
  · rfl

theorem marks_of_uncached {series : Series} (uncached : cache.isUncached series.metric = true)
    (policy : Eviction) (point : Point) : cache.marks policy (.store series point) = [] := by
  cases policy <;> simp [marks, admissions, touches, uncached]

theorem marks_of_absent {series : Series} (cached : cache.isUncached series.metric = false)
    (absent : cache.held.get? series = none) (policy : Eviction) (point : Point) :
    cache.marks policy (.store series point) = [series] := by
  have unheld := contains_eq_false_iff.mpr absent
  cases policy <;> simp [marks, admissions, touches, cached, unheld]

/-- A write to a series that is held touches it and does not admit it. -/
theorem Chronological.store_held (chronological : Chronological policy cache order)
    {series : Series} (cached : cache.isUncached series.metric = false) {held : HeldSeries}
    (found : cache.held.get? series = some held) (point : Point) :
    Chronological policy (cache.write series held point).1
      (order ++ cache.marks policy (.store series point)) := by
  have clock := cache.clock_write series held point
  cases policy with
  | oldest =>
      have none_admitted : cache.marks .oldest (.store series point) = [] := by
        simp [marks, admissions, contains_of_get? found]
      rw [none_admitted, List.append_nil]
      refine chronological.keep (by omega) fun wanted now here => ?_
      rw [get?_written] at here
      split at here
      case isTrue same =>
          rw [← Option.some.inj here]
          exact ⟨held, same ▸ found, rfl⟩
      case isFalse => exact ⟨now, here, rfl⟩
  | leastRecentlyUsed =>
      have touched : cache.marks .leastRecentlyUsed (.store series point) = [series] := by
        simp [marks, touches, cached]
      rw [touched]
      refine chronological.mark (Nat.le_refl _) (by omega) (fun now here => ?_)
        fun wanted now apart here => ?_
      · rw [get?_written, if_pos rfl] at here
        rw [← Option.some.inj here]
        rfl
      · rw [get?_written, if_neg apart] at here
        exact ⟨now, here, rfl⟩

/-- A series that is admitted is admitted at one moment and touched at the next. -/
theorem Chronological.store_absent (chronological : Chronological policy cache order)
    {series : Series} (cached : cache.isUncached series.metric = false)
    (absent : cache.held.get? series = none) (point : Point) :
    Chronological policy (cache.makeRoom.tick.write series cache.makeRoom.newcomer point).1
      (order ++ cache.marks policy (.store series point)) := by
  have ticked : cache.makeRoom.tick.clock = cache.clock + 1 :=
    congrArg Nat.succ cache.clock_makeRoom
  have clock := clock_write cache.makeRoom.tick series cache.makeRoom.newcomer point
  have here : ∀ held, (cache.makeRoom.tick.write series cache.makeRoom.newcomer
      point).1.held.get? series = some held → held.admitted = cache.clock
        ∧ held.touched = cache.clock + 1 := by
    intro held found
    rw [get?_written, if_pos rfl] at found
    rw [← Option.some.inj found]
    exact ⟨cache.clock_makeRoom, ticked⟩
  have same : ∀ wanted held, wanted ≠ series → (cache.makeRoom.tick.write series
      cache.makeRoom.newcomer point).1.held.get? wanted = some held →
        ∃ old, cache.held.get? wanted = some old ∧ held.moment policy = old.moment policy := by
    intro wanted held apart found
    rw [get?_written, if_neg apart] at found
    exact ⟨held, get?_makeRoom found, rfl⟩
  rw [marks_of_absent cached absent]
  cases policy with
  | oldest =>
      exact chronological.mark (Nat.le_refl _) (by omega) (fun held found => (here held found).1)
        same
  | leastRecentlyUsed =>
      exact chronological.mark (Nat.le_succ _) (by omega) (fun held found => (here held found).2)
        same

theorem Chronological.store (chronological : Chronological policy cache order) (series : Series)
    (point : Point) :
    Chronological policy (cache.after (.store series point))
      (order ++ cache.marks policy (.store series point)) := by
  rw [Cache.after]
  cases cached : cache.isUncached series.metric with
  | true =>
      rw [marks_of_uncached cached, List.append_nil, store_of_uncached cached]
      exact chronological.keep (Nat.le_refl _) fun wanted held found => ⟨held, found, rfl⟩
  | false =>
      cases found : cache.held.get? series with
      | some held =>
          rw [store_of_held cached found]
          exact chronological.store_held cached found point
      | none =>
          rw [store_of_absent cached found]
          exact chronological.store_absent cached found point

/-! ## Queries -/

/-- The same series are held under the same settings. -/
structure SameKeys (cache other : Cache) : Prop where
  settings : other.settings = cache.settings
  contains : ∀ series, other.contains series = cache.contains series

theorem sameKeys_foldl_touch (cache : Cache) (touched : List Series) :
    cache.SameKeys (touched.foldl touch cache) := by
  induction touched generalizing cache with
  | nil => exact ⟨rfl, fun _ => rfl⟩
  | cons series touched ih =>
      have onward := ih (cache.touch series)
      have logs := cache.sameLogs_touch series
      refine ⟨onward.settings.trans logs.settings, fun wanted => ?_⟩
      have held := congrArg Option.isSome (logs.logs wanted)
      rw [Option.isSome_map, Option.isSome_map] at held
      exact (onward.contains wanted).trans held

/-- What a subquery selects depends on which series are held, and on nothing else about them. -/
theorem SameKeys.selectedBy (same : cache.SameKeys other) (query : Query) (now : Timestamp)
    (subquery : Subquery) :
    other.selectedBy query now subquery = cache.selectedBy query now subquery := by
  have scanned : other.scan? query subquery now = cache.scan? query subquery now := by
    rw [scan?, scan?, same.settings]
  have named : ∀ (any : Cache) (scan : Scan),
      (any.selected scan).map Prod.fst = any.held.keys.filter scan.selects := by
    intro any scan
    rw [SortedMap.keys, List.filter_map]
    rfl
  rw [Cache.selectedBy, Cache.selectedBy, scanned]
  split
  · rw [named, named, SortedMap.keys_eq_of_contains same.contains]
  · rfl

theorem touchedBySubquery_eq (cache : Cache) (query : Query) (now : Timestamp)
    (subquery : Subquery) :
    cache.touchedBySubquery query subquery now
      = (cache.selectedBy query now subquery).foldl touch cache := by
  rw [touchedBySubquery, Cache.selectedBy]
  cases cache.scan? query subquery now with
  | error failure => rfl
  | ok scan => cases scan <;> rfl

/-- A query touches the series that its subqueries select, one after the other. -/
theorem ask_eq_foldl_touch (cache : Cache) (query : Query) (now : Timestamp) :
    (cache.ask query now).1 = (cache.touches (.ask query now)).foldl touch cache := by
  have folded : ∀ (subqueries : List Subquery) (reached : Cache), cache.SameKeys reached →
      subqueries.foldl (fun reached subquery => reached.touchedBySubquery query subquery now)
          reached
        = (subqueries.flatMap (cache.selectedBy query now)).foldl touch reached := by
    intro subqueries
    induction subqueries with
    | nil => exact fun _ _ => rfl
    | cons subquery subqueries ih =>
        intro reached same
        have onward := reached.sameKeys_foldl_touch (cache.selectedBy query now subquery)
        rw [List.foldl_cons, List.flatMap_cons, List.foldl_append, touchedBySubquery_eq,
          same.selectedBy]
        exact ih _ ⟨onward.settings.trans same.settings,
          fun series => (onward.contains series).trans (same.contains series)⟩
  show cache.touchedBy query now = _
  unfold touchedBy
  cases valid : query.validate with
  | error failure => rw [touches, valid]; rfl
  | ok _ => rw [touches, valid]; exact folded query.subqueries cache ⟨rfl, fun _ => rfl⟩

theorem contains_of_mem_selectedBy {query : Query} {now : Timestamp} {subquery : Subquery}
    {series : Series} (member : series ∈ cache.selectedBy query now subquery) :
    cache.contains series = true := by
  unfold selectedBy at member
  split at member
  case _ scan _ =>
      obtain ⟨pair, selected, rfl⟩ := List.mem_map.mp member
      have found := (List.mem_filter.mp selected).1
      exact contains_of_get? ((SortedMap.mem_toList_iff _ _ _).mp found)
  · cases member

/-- Touching a series marks it by its touch, and does not admit it. -/
theorem Chronological.touch (chronological : Chronological policy cache order) {series : Series}
    (contained : cache.contains series = true) :
    Chronological policy (cache.touch series)
      (order ++ if policy = .leastRecentlyUsed then [series] else []) := by
  obtain ⟨held, found⟩ := Option.isSome_iff_exists.mp contained
  rw [Cache.touch, show cache.held.get? series = some held from found]
  cases policy with
  | oldest =>
      rw [if_neg (by decide), List.append_nil]
      refine chronological.keep (Nat.le_succ _) fun wanted now here => ?_
      rw [get?_hold] at here
      split at here
      case isTrue same =>
          rw [← Option.some.inj here]
          exact ⟨held, same ▸ found, rfl⟩
      case isFalse => exact ⟨now, here, rfl⟩
  | leastRecentlyUsed =>
      rw [if_pos rfl]
      refine chronological.mark (Nat.le_refl _) (Nat.lt_succ_self _) (fun now here => ?_)
        fun wanted now apart here => ?_
      · rw [get?_hold, if_pos rfl] at here
        rw [← Option.some.inj here]
        rfl
      · rw [get?_hold, if_neg apart] at here
        exact ⟨now, here, rfl⟩

theorem Chronological.foldl_touch (chronological : Chronological policy cache order)
    {touched : List Series} (contained : ∀ series ∈ touched, cache.contains series = true) :
    Chronological policy (touched.foldl Cache.touch cache)
      (order ++ if policy = .leastRecentlyUsed then touched else []) := by
  induction touched generalizing cache order with
  | nil => simpa using chronological
  | cons series touched ih =>
      obtain ⟨here, others⟩ := List.forall_mem_cons.mp contained
      have same := cache.sameKeys_foldl_touch [series]
      have onward := ih (chronological.touch here) fun other member => by
        rw [← others other member]
        exact same.contains other
      rw [List.append_assoc] at onward
      rw [List.foldl_cons]
      cases policy with
      | oldest => exact onward
      | leastRecentlyUsed => exact onward

theorem Chronological.ask (chronological : Chronological policy cache order) (query : Query)
    (now : Timestamp) :
    Chronological policy (cache.after (.ask query now))
      (order ++ cache.marks policy (.ask query now)) := by
  have contained : ∀ series ∈ cache.touches (.ask query now), cache.contains series = true := by
    intro series member
    rw [touches] at member
    split at member
    · obtain ⟨subquery, _, selected⟩ := List.mem_flatMap.mp member
      exact contains_of_mem_selectedBy selected
    · cases member
  have onward := chronological.foldl_touch contained
  rw [Cache.after, ask_eq_foldl_touch]
  cases policy with
  | oldest => exact onward
  | leastRecentlyUsed => exact onward

/-! ## Runs -/

/-- **One event** marks series, and the moments tell the order of marks again. -/
theorem Chronological.after (chronological : Chronological policy cache order)
    (event : CacheEvent) :
    Chronological policy (cache.after event) (order ++ cache.marks policy event) := by
  cases event with
  | store series point => exact chronological.store series point
  | ask query now => exact chronological.ask query now
  | maintain now =>
      have none_marked : cache.marks policy (.maintain now) = [] := by cases policy <;> rfl
      rw [none_marked, List.append_nil]
      refine chronological.keep (Nat.le_refl _) fun series held found => ?_
      obtain ⟨kept, old, rfl⟩ := CacheRun.get?_maintain found
      exact ⟨kept, old, by cases policy <;> rfl⟩
  | shutdown =>
      have none_marked : cache.marks policy .shutdown = [] := by cases policy <;> rfl
      rw [none_marked, List.append_nil]
      refine chronological.keep (Nat.le_refl _) fun series held found => ?_
      have archived : cache.archive.held.get? series = some held := found
      rw [Cache.archive, SortedMap.get?_mapValues, Option.map_eq_some_iff] at archived
      obtain ⟨kept, old, rfl⟩ := archived
      exact ⟨kept, old, by cases policy <;> rfl⟩

/-- After any events, the moments of a cache tell the order of marks. -/
theorem chronological_afterAll (policy : Eviction) {settings : CacheSettings}
    (created : Cache.ofSettings settings = .ok cache) (events : List CacheEvent) :
    Chronological policy (cache.afterAll events) (cache.chronicle (marks policy) events) := by
  induction events using List.reverseRecOn with
  | nil =>
      obtain ⟨_, _, nothing⟩ := CacheRun.settings_ofSettings created
      have absent : ∀ series held, (cache.afterAll []).held.get? series ≠ some held := by
        intro series held found
        rw [afterAll, List.foldl_nil, nothing] at found
        cases found
      exact ⟨fun series held found => absurd found (absent series held),
        fun first held _ _ found => absurd found (absent first held),
        fun first held _ _ found => absurd found (absent first held)⟩
  | append_singleton events event ih =>
      rw [afterAll_concat, chronicle_concat]
      exact ih.after event

/-- If a series is held at all, one of them was marked last earlier than all others, and it is the
one with the earliest moment, in whatever order the series are gone through. -/
theorem Chronological.exists_earliest (chronological : Chronological policy cache order)
    {series : Series} (contained : cache.contains series = true) :
    ∃ earliest, cache.contains earliest = true
      ∧ (∀ other, cache.contains other = true → other ≠ earliest → LastBefore order earliest other)
      ∧ ∀ listed : List (Series × HeldSeries), listed.Perm cache.held.toList →
        (listed.minOn? fun pair => pair.2.moment policy).map Prod.fst = some earliest := by
  have least : ∀ listed : List (Series × HeldSeries), listed.Perm cache.held.toList →
      ∃ pair : Series × HeldSeries, listed.minOn? (fun pair => pair.2.moment policy) = some pair
      ∧ cache.held.get? pair.1 = some pair.2
      ∧ ∀ other held, cache.held.get? other = some held →
        pair.2.moment policy ≤ held.moment policy := by
    intro listed same
    have mem_iff : ∀ other held, (other, held) ∈ listed ↔ cache.held.get? other = some held := by
      intro other held
      rw [same.mem_iff, SortedMap.mem_toList_iff]
    obtain ⟨held, found⟩ := Option.isSome_iff_exists.mp contained
    obtain ⟨pair, chosen⟩ := Option.isSome_iff_exists.mp
      (List.isSome_minOn?_of_mem (f := fun pair : Series × HeldSeries => pair.2.moment policy)
        ((mem_iff series held).mpr found))
    refine ⟨pair, chosen, (mem_iff _ _).mp (List.minOn?_mem chosen), fun other held there => ?_⟩
    rw [← List.minOn_eq_of_minOn?_eq_some chosen]
    exact List.apply_minOn_le_of_mem (f := fun pair : Series × HeldSeries => pair.2.moment policy)
      ((mem_iff other held).mpr there)
  obtain ⟨⟨earliest, held⟩, _, found, first⟩ := least cache.held.toList (.refl _)
  refine ⟨earliest, contains_of_get? found, fun other there apart => ?_, fun listed same => ?_⟩
  · obtain ⟨rival, there⟩ := Option.isSome_iff_exists.mp there
    refine chronological.ordered earliest held other rival found there ?_
    refine Nat.lt_of_le_of_ne (first other rival there) fun alike => apart ?_
    exact (chronological.distinct earliest held other rival found there alike).symm
  · obtain ⟨⟨chosen, rival⟩, least, there, before⟩ := least listed same
    rw [least]
    refine congrArg some ?_
    refine chronological.distinct chosen rival earliest held there found ?_
    exact Nat.le_antisymm (before earliest held found) (first chosen rival there)

end Cache

end TimeSeries
