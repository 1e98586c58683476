import TimeSeries.Proofs.Cache.RawAnswers
import TimeSeries.Proofs.Cache.Recency

/-!
# Making room

A cache with a limit never holds more series than that.  Only a store adds a series, and when there
is no room for it, one series is removed first: under the policy by admission the one that was
admitted first, and under the policy by touches the one that was touched least recently.  The others
stay as they are, and where there is room a store removes nothing.

What was removed is forgotten: a series that is admitted again starts with a log without points, so
whatever is looked up of it then was stored after the removal (`CacheRun.accepted_sublist`).

Touches within one query are in the order in which the subqueries select series.  If they were taken
in the order of series over the whole query, the series that is removed would not always be the one
touched least recently (`not_evicts_in_order`).

Main statement: `Cache.evicts_afterAll`.
-/

set_option autoImplicit false

namespace TimeSeries

namespace CacheEvent

/-- The point of a series that an event offers. -/
def offered? (series : Series) : CacheEvent → Option Point
  | store target point => if target = series then some point else none
  | _ => none

/-- The points of a series that were offered in the course of some events. -/
def pointsOffered (series : Series) (events : List CacheEvent) : List Point :=
  events.filterMap (offered? series)

theorem pointsOffered_concat (series : Series) (events : List CacheEvent) (event : CacheEvent) :
    pointsOffered series (events ++ [event])
      = pointsOffered series events ++ (event.offered? series).toList := by
  rw [pointsOffered, List.filterMap_append, pointsOffered]
  cases offered : event.offered? series with
  | none => rw [List.filterMap_cons_none offered]; rfl
  | some point => rw [List.filterMap_cons_some offered]; rfl

end CacheEvent

/-! ## What is forgotten -/

namespace CacheRun

variable {run : CacheRun}

theorem cache_after (run : CacheRun) (events : List CacheEvent) :
    (run.after events).cache = run.cache.afterAll events := by
  induction events generalizing run with
  | nil => rfl
  | cons event events ih => exact ih (run.next event)

theorem after_concat (run : CacheRun) (events : List CacheEvent) (event : CacheEvent) :
    run.after (events ++ [event]) = (run.after events).next event := by
  rw [after, List.foldl_append]
  rfl

/-- What is accepted of a series that was not held was offered since. -/
theorem accepted_sublist {series : Series} (absent : run.cache.contains series = false)
    (events : List CacheEvent) (contained : (run.after events).cache.contains series = true) :
    ((run.after events).accepted series).Sublist (CacheEvent.pointsOffered series events) := by
  induction events using List.reverseRecOn with
  | nil =>
      rw [after, List.foldl_nil, absent] at contained
      cases contained
  | append_singleton events event ih =>
      have before : (if (run.after events).cache.contains series
          then (run.after events).accepted series else []).Sublist
            (CacheEvent.pointsOffered series events) := by
        split
        case isTrue held => exact ih held
        case isFalse => exact List.nil_sublist _
      have earlier := before.trans (List.sublist_append_left _ (event.offered? series).toList)
      rw [after_concat, CacheEvent.pointsOffered_concat]
      cases event with
      | store target point =>
          simp only [next, Cache.record]
          split
          case isTrue both =>
              rw [CacheEvent.offered?, if_pos both.1]
              exact before.append (List.Sublist.refl _)
          case isFalse => exact earlier
      | ask query now => exact earlier
      | maintain now => exact earlier
      | shutdown => exact earlier

/-- What is looked up of a series that was not held was offered since. -/
theorem Sound.entriesWithin_since {settings : CacheSettings} {clocks : List Timestamp}
    (sound : run.Sound settings clocks) {series : Series}
    (absent : run.cache.contains series = false) (events : List CacheEvent) {held : HeldSeries}
    (found : (run.cache.afterAll events).held.get? series = some held)
    (start stop : Timestamp) :
    ∃ points : List Point, points.Sublist (CacheEvent.pointsOffered series events)
      ∧ held.entriesWithin series start stop = .ok (points.map (HeldSeries.entryOf series)) := by
  rw [← cache_after] at found
  obtain ⟨contents, holds, taken, _⟩ := (sound_foldl sound events).logs series held found
  have offered := accepted_sublist absent events (Cache.contains_of_get? found)
  rw [← taken] at offered
  have kept : contents.kept.Sublist contents.taken := List.sublist_append_right _ _
  exact ⟨_, (List.filter_sublist.trans kept).trans offered,
    HeldSeries.entriesWithin_of_holds holds series start stop⟩

end CacheRun

namespace Cache

variable {cache : Cache} {settings : CacheSettings} {series : Series}

/-! ## What a store does to the others -/

theorem seriesEvicted_write (cache : Cache) (series : Series) (held : HeldSeries) (point : Point) :
    (cache.write series held point).1.counters.seriesEvicted = cache.counters.seriesEvicted := by
  unfold write
  split <;> rfl

/-- The store of a point that removes no series. -/
structure KeepsAll (cache : Cache) (series : Series) (point : Point) : Prop where
  kept : ∀ other, cache.contains other = true → (cache.store series point).1.contains other = true
  /-- The other series keep their points. -/
  others : ∀ other, other ≠ series →
    (cache.store series point).1.held.get? other = cache.held.get? other
  counted : (cache.store series point).1.counters.seriesEvicted = cache.counters.seriesEvicted

/-- The store of a point that removes one series to make room: the one that was marked last earliest
in a given order. -/
structure Evicts (cache : Cache) (order : List Series) (series : Series) (point : Point)
    (victim : Series) : Prop where
  contained : cache.contains victim = true
  earliest : ∀ other, cache.contains other = true → other ≠ victim →
    LastBefore order victim other
  marked : ∀ other, cache.contains other = true → other ∈ order
  /-- It is found in whatever order the series are gone through. -/
  unique : ∀ listed : List (Series × HeldSeries), listed.Perm cache.held.toList →
    (listed.minOn? fun pair => pair.2.moment cache.settings.eviction).map Prod.fst = some victim
  removed : (cache.store series point).1.contains victim = false
  admitted : (cache.store series point).1.contains series = true
  /-- The other series keep their points. -/
  others : ∀ other, other ≠ victim → other ≠ series →
    (cache.store series point).1.held.get? other = cache.held.get? other
  counted : (cache.store series point).1.counters.seriesEvicted
    = cache.counters.seriesEvicted + 1
  /-- Whatever happens then, what is looked up of the series that was removed was offered since. -/
  forgotten : ∀ (later : List CacheEvent) (held : HeldSeries),
    ((cache.store series point).1.afterAll later).held.get? victim = some held →
      ∀ start stop, ∃ points : List Point, points.Sublist (CacheEvent.pointsOffered victim later)
        ∧ held.entriesWithin victim start stop = .ok (points.map (HeldSeries.entryOf victim))

theorem contains_written (cache : Cache) (series : Series) (held : HeldSeries) (point : Point)
    (wanted : Series) :
    (cache.write series held point).1.contains wanted
      = (decide (wanted = series) || cache.contains wanted) := by
  rw [contains, SortedMap.contains, get?_written]
  by_cases same : wanted = series
  · rw [if_pos same, decide_eq_true same]
    rfl
  · rw [if_neg same, decide_eq_false same]
    rfl

theorem keepsAll_of_uncached (uncached : cache.isUncached series.metric = true) (point : Point) :
    cache.KeepsAll series point := by
  have ignored := store_of_uncached uncached point
  exact ⟨fun other held => by rw [ignored]; exact held, fun other _ => by rw [ignored]; rfl,
    by rw [ignored]; rfl⟩

theorem keepsAll_of_held (cached : cache.isUncached series.metric = false)
    (contained : cache.contains series = true) (point : Point) : cache.KeepsAll series point := by
  obtain ⟨held, found⟩ := Option.isSome_iff_exists.mp contained
  have written := store_of_held cached found point
  refine ⟨fun other there => ?_, fun other apart => ?_, ?_⟩
  · rw [written, contains_written, there, Bool.or_true]
  · rw [written, get?_written, if_neg apart]
  · rw [written, seriesEvicted_write]

theorem keepsAll_of_room (cached : cache.isUncached series.metric = false)
    (absent : cache.held.get? series = none) (room : cache.isFull = false) (point : Point) :
    cache.KeepsAll series point := by
  have same : cache.makeRoom = cache := by
    rw [makeRoom, room]
    rfl
  have written := store_of_absent cached absent point
  rw [same] at written
  refine ⟨fun other there => ?_, fun other apart => ?_, ?_⟩
  · rw [written, contains_written, Bool.or_eq_true]
    exact Or.inr there
  · rw [written, get?_written, if_neg apart]
    rfl
  · rw [written, seriesEvicted_write]
    rfl

/-- A cache that is full has a series to remove. -/
theorem exists_victim_of_isFull (full : cache.isFull = true) :
    ∃ victim, cache.victim? = some victim ∧ cache.contains victim = true := by
  rw [isFull, Bool.and_eq_true, decide_eq_true_iff, decide_eq_true_iff] at full
  have some_held : 0 < cache.held.toList.length := Nat.lt_of_lt_of_le full.1 full.2
  obtain ⟨pair, member⟩ := List.exists_mem_of_length_pos some_held
  obtain ⟨victim, chosen⟩ := Option.isSome_iff_exists.mp (List.isSome_minOn?_of_mem
    (f := fun pair : Series × HeldSeries => pair.2.moment cache.settings.eviction) member)
  refine ⟨victim.1, congrArg (Option.map Prod.fst) chosen, ?_⟩
  exact contains_of_get? ((SortedMap.mem_toList_iff _ _ _).mp (List.minOn?_mem chosen))

/-- **A store that finds the cache full** removes the series that was marked last earliest, and
nothing else. -/
theorem evicts_of_isFull {run : CacheRun} {clocks : List Timestamp}
    (sound : run.Sound settings clocks) {order : List Series}
    (chronological : Chronological run.cache.settings.eviction run.cache order)
    (cached : run.cache.isUncached series.metric = false)
    (absent : run.cache.held.get? series = none) (full : run.cache.isFull = true)
    (point : Point) : ∃ victim, run.cache.Evicts order series point victim := by
  obtain ⟨_, _, there⟩ := exists_victim_of_isFull full
  obtain ⟨victim, contained, earliest, unique⟩ := chronological.exists_earliest there
  have chosen : run.cache.victim? = some victim := unique run.cache.held.toList (.refl _)
  have room : run.cache.makeRoom = run.cache.evict := by rw [makeRoom, if_pos full]
  have apart : victim ≠ series := by
    rintro rfl
    rw [contains_eq_false_iff.mpr absent] at contained
    cases contained
  have written := store_of_absent cached absent point
  rw [room] at written
  have gone : run.cache.evict.tick.contains victim = false := by
    refine contains_eq_false_iff.mpr ?_
    show run.cache.evict.held.get? victim = none
    rw [get?_evict chosen, if_pos rfl]
  have removed : (run.cache.store series point).1.contains victim = false := by
    rw [written, contains_written, gone, decide_eq_false apart]
    rfl
  refine ⟨victim, contained, earliest, fun other held => ?_, unique, removed, ?_,
    fun other notVictim notSeries => ?_, ?_, fun later held found => ?_⟩
  · obtain ⟨entry, held⟩ := Option.isSome_iff_exists.mp held
    exact (chronological.known other entry held).1
  · rw [written, contains_written, decide_eq_true rfl]
    rfl
  · rw [written, get?_written, if_neg notSeries]
    show run.cache.evict.held.get? other = _
    rw [get?_evict chosen, if_neg notVictim]
  · rw [written, seriesEvicted_write]
    show run.cache.evict.counters.seriesEvicted = _
    rw [evict, chosen]
  · have stored : (run.next (.store series point)).cache.contains victim = false := removed
    exact (sound.next (.store series point)).entriesWithin_since stored later found

/-! ## Capacity -/

theorem settings_after (cache : Cache) (event : CacheEvent) :
    (cache.after event).settings = cache.settings := by
  cases event with
  | store series point =>
      cases cached : cache.isUncached series.metric with
      | true => rw [after, store_of_uncached cached]; rfl
      | false => exact (sameScope_store cached point).settings
  | ask query now => exact (cache.sameScope_ask query now).settings
  | maintain now => rfl
  | shutdown => rfl

theorem size_of_contains {other : Cache}
    (same : ∀ series, other.contains series = cache.contains series) :
    other.size = cache.size := by
  rw [size, size, SortedMap.size_eq_length_keys, SortedMap.size_eq_length_keys,
    SortedMap.keys_eq_of_contains same]

/-- A write adds its series if it was not held. -/
theorem size_write (cache : Cache) (series : Series) (held : HeldSeries) (point : Point) :
    (cache.write series held point).1.size
      = if cache.contains series then cache.size else cache.size + 1 := by
  unfold write
  split <;> exact SortedMap.size_insert _ _ _

theorem size_write_le (cache : Cache) (series : Series) (held : HeldSeries) (point : Point) :
    (cache.write series held point).1.size ≤ cache.size + 1 := by
  rw [size_write]
  split <;> omega

/-- A store finds room or makes it. -/
theorem size_makeRoom_lt (limited : 0 < cache.settings.seriesLimit)
    (within : cache.size ≤ cache.settings.seriesLimit) :
    cache.makeRoom.size < cache.settings.seriesLimit := by
  unfold makeRoom
  split
  case isTrue full =>
      obtain ⟨victim, chosen, contained⟩ := exists_victim_of_isFull full
      have evicted : cache.evict.held = cache.held.erase victim := by rw [evict, chosen]
      have smaller : (cache.held.erase victim).size + 1 = cache.size :=
        SortedMap.size_erase_add_one contained
      rw [size, evicted]
      omega
  case isFalse room =>
      rw [isFull, Bool.and_eq_true, decide_eq_true_iff, decide_eq_true_iff] at room
      omega

/-- No event makes a cache hold more series than its limit. -/
theorem size_after_le (limited : 0 < cache.settings.seriesLimit)
    (within : cache.size ≤ cache.settings.seriesLimit) (event : CacheEvent) :
    (cache.after event).size ≤ cache.settings.seriesLimit := by
  cases event with
  | store series point =>
      rw [after]
      cases cached : cache.isUncached series.metric with
      | true =>
          rw [store_of_uncached cached]
          exact within
      | false =>
          cases found : cache.held.get? series with
          | some held =>
              rw [store_of_held cached found]
              refine (size_of_contains fun wanted => ?_).trans_le within
              rw [contains_written]
              by_cases same : wanted = series
              · rw [same, contains_of_get? found, Bool.or_true]
              · rw [decide_eq_false same, Bool.false_or]
          | none =>
              rw [store_of_absent cached found]
              exact (size_write_le _ _ _ _).trans (size_makeRoom_lt limited within)
  | ask query now =>
      rw [after, ask_eq_foldl_touch]
      exact (size_of_contains (cache.sameKeys_foldl_touch _).contains).trans_le within
  | maintain now =>
      refine ((List.length_filter_le _ _).trans (List.length_filter_le _ _)).trans ?_
      rw [Cache.archive]
      simp only [SortedMap.mapValues, List.length_map]
      exact within
  | shutdown =>
      have same : (cache.after .shutdown).size = cache.size := List.length_map _
      exact same.trans_le within

theorem size_afterAll_le (created : Cache.ofSettings settings = .ok cache)
    (limited : 0 < settings.seriesLimit) (events : List CacheEvent) :
    (cache.afterAll events).settings = settings
      ∧ (cache.afterAll events).size ≤ settings.seriesLimit := by
  induction events using List.reverseRecOn with
  | nil =>
      obtain ⟨_, under, nothing⟩ := CacheRun.settings_ofSettings created
      refine ⟨under, ?_⟩
      show cache.held.size ≤ _
      rw [nothing]
      exact Nat.zero_le _
  | append_singleton events event ih =>
      obtain ⟨under, within⟩ := ih
      rw [afterAll_concat]
      refine ⟨(settings_after _ event).trans under, ?_⟩
      have onward := size_after_le (by rw [under]; exact limited) (by rw [under]; exact within) event
      rwa [under] at onward

/-! ## Whole runs -/

/-- A point of the series would admit it, and the cache is full. -/
structure NeedsRoom (cache : Cache) (series : Series) : Prop where
  cached : cache.isUncached series.metric = false
  absent : cache.contains series = false
  full : cache.size = cache.settings.seriesLimit

/-- **Capacity and eviction.**  After any events, a cache with a limit is within it.  A store of a
series for which it needs room removes the series that was admitted earliest, or touched earliest,
as the policy says, and any other store removes none. -/
theorem evicts_afterAll (created : Cache.ofSettings settings = .ok cache)
    (limited : 0 < settings.seriesLimit) (events : List CacheEvent) :
    (cache.afterAll events).size ≤ settings.seriesLimit
      ∧ ∀ series point,
        ((cache.afterAll events).NeedsRoom series → ∃ victim, (cache.afterAll events).Evicts
          (cache.chronicle (marks settings.eviction) events) series point victim)
        ∧ (¬ (cache.afterAll events).NeedsRoom series →
          (cache.afterAll events).KeepsAll series point) := by
  obtain ⟨under, within⟩ := size_afterAll_le created limited events
  refine ⟨within, fun series point => ⟨fun needs => ?_, fun roomy => ?_⟩⟩
  · have reached : ((CacheRun.start cache).after events).cache = cache.afterAll events :=
      CacheRun.cache_after (.start cache) events
    have full : (cache.afterAll events).isFull = true := by
      rw [isFull, needs.full, under, decide_eq_true limited, decide_eq_true (Nat.le_refl _)]
      rfl
    have chronological := chronological_afterAll settings.eviction created events
    rw [← under, ← reached] at chronological
    have evicts := evicts_of_isFull (CacheRun.sound_after created events) chronological
      (by rw [reached]; exact needs.cached)
      (by rw [reached]; exact contains_eq_false_iff.mp needs.absent)
      (by rw [reached]; exact full) point
    rw [reached, under] at evicts
    exact evicts
  · cases cached : (cache.afterAll events).isUncached series.metric with
    | true => exact keepsAll_of_uncached cached point
    | false =>
        cases absent : (cache.afterAll events).contains series with
        | true => exact keepsAll_of_held cached absent point
        | false =>
            refine keepsAll_of_room cached (contains_eq_false_iff.mp absent) ?_ point
            rw [isFull, Bool.and_eq_false_iff, decide_eq_false_iff_not, decide_eq_false_iff_not]
            refine Or.inr fun full => roomy ⟨cached, absent, Nat.le_antisymm ?_ full⟩
            rw [under]
            exact within

/-- The series written to first is asked for last, so it stays and the other one goes. -/
theorem evicts_afterAll_of_query :
    let settings : CacheSettings :=
      { CacheSettings.standard with seriesLimit := 2, eviction := .leastRecentlyUsed }
    let events : List CacheEvent := [.store (.ofMetric "a") ⟨1000, ⟨1⟩⟩,
      .store (.ofMetric "b") ⟨1000, ⟨2⟩⟩, .ask ⟨0, 2000, true, [.ofMetric "a"]⟩ 2000]
    ∃ cache, Cache.ofSettings settings = .ok cache
      ∧ (cache.afterAll events).Evicts (cache.chronicle (marks .leastRecentlyUsed) events)
        (.ofMetric "c") ⟨1000, ⟨3⟩⟩ (.ofMetric "b") := by
  intro settings events
  have created : Cache.ofSettings settings
      = .ok ⟨settings, [], .empty, .empty, 0, ⟨0, 0, 0, 0, 0, 0⟩⟩ := rfl
  obtain ⟨victim, evicts⟩ := ((evicts_afterAll created (by decide) events).2 (.ofMetric "c")
    ⟨1000, ⟨3⟩⟩).1 ⟨by decide +kernel, by decide +kernel, by decide +kernel⟩
  have least := evicts.unique _ (.refl _)
  have chosen : (Cache.afterAll ⟨settings, [], .empty, .empty, 0, ⟨0, 0, 0, 0, 0, 0⟩⟩
      events).victim? = some (.ofMetric "b") := by decide +kernel
  rw [show victim = .ofMetric "b" from Option.some.inj (least.symm.trans chosen)] at evicts
  exact ⟨_, created, evicts⟩

/-- The series that an event touches, where a query touches in the order of series all those that
its subqueries select. -/
def touchesInOrder (cache : Cache) : CacheEvent → List Series
  | .ask query now => cache.held.keys.filter fun series =>
      (cache.touches (.ask query now)).contains series
  | event => cache.touches event

/-- A query for `b` and then for `a` touches `a` last, though `a` is in front of `b` in the order of
series; so `b` goes, and not `a`. -/
theorem not_evicts_in_order :
    let settings : CacheSettings :=
      { CacheSettings.standard with seriesLimit := 2, eviction := .leastRecentlyUsed }
    let events : List CacheEvent := [.store (.ofMetric "a") ⟨1000, ⟨1⟩⟩,
      .store (.ofMetric "b") ⟨1000, ⟨2⟩⟩,
      .ask ⟨0, 2000, true, [.ofMetric "b", .ofMetric "a"]⟩ 2000]
    ∃ cache, Cache.ofSettings settings = .ok cache
      ∧ (cache.afterAll events).NeedsRoom (.ofMetric "c")
      ∧ ¬ ∃ victim, (cache.afterAll events).Evicts (cache.chronicle touchesInOrder events)
        (.ofMetric "c") ⟨1000, ⟨3⟩⟩ victim := by
  intro settings events
  have created : Cache.ofSettings settings
      = .ok ⟨settings, [], .empty, .empty, 0, ⟨0, 0, 0, 0, 0, 0⟩⟩ := rfl
  refine ⟨_, created, ⟨by decide +kernel, by decide +kernel, by decide +kernel⟩, ?_⟩
  rintro ⟨victim, evicts⟩
  have least := evicts.unique _ (.refl _)
  have chosen : (Cache.afterAll ⟨settings, [], .empty, .empty, 0, ⟨0, 0, 0, 0, 0, 0⟩⟩
      events).victim? = some (.ofMetric "b") := by decide +kernel
  rw [show victim = .ofMetric "b" from Option.some.inj (least.symm.trans chosen)] at evicts
  have wrong := evicts.earliest (.ofMetric "a") (by decide +kernel) (by decide)
  have order : Cache.chronicle touchesInOrder
      ⟨settings, [], .empty, .empty, 0, ⟨0, 0, 0, 0, 0, 0⟩⟩ events
        = [.ofMetric "a", .ofMetric "b", .ofMetric "a", .ofMetric "b"] := by decide +kernel
  rw [order] at wrong
  exact absurd wrong (by decide)

end Cache

end TimeSeries
