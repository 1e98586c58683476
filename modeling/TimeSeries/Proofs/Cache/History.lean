import TimeSeries.Cache.Answer
import TimeSeries.Cache.Maintenance
import TimeSeries.Proofs.Log.Contents
import TimeSeries.Proofs.Maps.Lists

/-!
# The history of a cache

A cache goes through events: points are stored, queries are asked, maintenance runs, and open blocks
are archived on shutdown.  A `CacheRun` goes through them as well and writes down, for each series,
the points that were accepted since the series was last admitted.

Whatever the events, the log of every series that is held has taken exactly these points, and a
point that it no longer holds was past retention at some maintenance of the run.  This is kept by
each event, so it holds of every run: a store changes one log and may remove another series,
a query changes no log at all, and maintenance and shutdown change every log in the same way.

Main statement: `CacheRun.sound_after`.
-/

set_option autoImplicit false

namespace TimeSeries

/-! ## Logs that keep what was accepted -/

/-- The log has taken the given points, and dropped none that was retained at each of the given
times. -/
def SeriesLog.Keeps (log : SeriesLog) (accepted : List Point) (retention : Timestamp)
    (clocks : List Timestamp) : Prop :=
  ∃ contents : LogContents, log.Holds contents ∧ contents.taken = accepted
    ∧ ∀ point ∈ contents.dropped, ∃ clock ∈ clocks, point.timestamp < clock.saturatingSub retention

namespace SeriesLog

variable {log : SeriesLog} {accepted : List Point} {retention : Timestamp} {clocks : List Timestamp}

theorem keeps_empty (blockLimit : Nat) (retention : Timestamp) (clocks : List Timestamp) :
    (empty blockLimit).Keeps [] retention clocks :=
  ⟨_, holds_empty blockLimit, rfl, by simp⟩

/-- A point that the log takes is the latest of those accepted. -/
theorem Keeps.add (keeps : log.Keeps accepted retention clocks) {point : Point} {next : SeriesLog}
    (added : log.add point = .ok next) :
    next.Keeps (accepted ++ [point]) retention clocks := by
  obtain ⟨contents, holds, rfl, dropped⟩ := keeps
  obtain ⟨after, grown, same, kept⟩ := holds.of_added added
  refine ⟨after, grown, ?_, by rw [same]; exact dropped⟩
  rw [LogContents.taken, LogContents.taken, same, kept, List.append_assoc]

theorem Keeps.archive (keeps : log.Keeps accepted retention clocks) :
    log.archive.Keeps accepted retention clocks := by
  obtain ⟨contents, holds, rfl, dropped⟩ := keeps
  exact ⟨_, holds.archive, taken_archive contents, dropped⟩

/-- Dropping old blocks at one more time drops only what is past retention then. -/
theorem Keeps.ageOff (keeps : log.Keeps accepted retention clocks) (now : Timestamp) :
    (log.ageOff now retention).Keeps accepted retention (now :: clocks) := by
  obtain ⟨contents, holds, rfl, dropped⟩ := keeps
  obtain ⟨after, older, holds', taken, split, before⟩ := holds.ageOff now retention
  refine ⟨after, holds', taken, ?_⟩
  intro point member
  rw [split, List.mem_append] at member
  rcases member with earlier | now_dropped
  · obtain ⟨clock, known, past⟩ := dropped point earlier
    exact ⟨clock, List.mem_cons_of_mem now known, past⟩
  · exact ⟨now, List.mem_cons_self, before point now_dropped⟩

end SeriesLog

/-! ## Events -/

/-- What can happen to a cache. -/
inductive CacheEvent where
  | store (series : Series) (point : Point)
  | ask (query : Query) (now : Timestamp)
  | maintain (now : Timestamp)
  | shutdown
  deriving DecidableEq, Repr

/-- The clocks after an event, of which there is one for each maintenance. -/
def CacheEvent.addClock (clocks : List Timestamp) : CacheEvent → List Timestamp
  | maintain now => now :: clocks
  | _ => clocks

/-- The clocks of all maintenances among some events, the latest first. -/
def CacheEvent.clocks (events : List CacheEvent) : List Timestamp :=
  events.foldl CacheEvent.addClock []

namespace Cache

/-- The cache after an event. -/
def after (cache : Cache) : CacheEvent → Cache
  | .store series point => (cache.store series point).1
  | .ask query now => (cache.ask query now).1
  | .maintain now => (cache.maintain now).1
  | .shutdown => cache.archive

/-- The cache after some events. -/
def afterAll (cache : Cache) (events : List CacheEvent) : Cache := events.foldl after cache

/-- The cache takes the point: its metric is cached and the point is in order. -/
def accepts (cache : Cache) (series : Series) (point : Point) : Bool :=
  !cache.isUncached series.metric && (cache.store series point).2.isOk

/-- The points accepted for each series since it was last admitted, after one more event.  What was
accepted for a series counts no longer once the series is not held. -/
def record (cache : Cache) (accepted : Series → List Point) (event : CacheEvent)
    (series : Series) : List Point :=
  let before := if cache.contains series then accepted series else []
  match event with
  | .store target point =>
      if target = series ∧ cache.accepts target point then before ++ [point] else before
  | _ => before

end Cache

/-- A cache, and for each series the points accepted since it was last admitted. -/
structure CacheRun where
  cache : Cache
  accepted : Series → List Point

namespace CacheRun

/-- A run that starts with a cache without series. -/
def start (cache : Cache) : CacheRun := ⟨cache, fun _ => []⟩

def next (run : CacheRun) (event : CacheEvent) : CacheRun :=
  ⟨run.cache.after event, run.cache.record run.accepted event⟩

/-- The run after some events. -/
def after (run : CacheRun) (events : List CacheEvent) : CacheRun := events.foldl next run

/-- Every log that is held keeps what was accepted. -/
structure Sound (run : CacheRun) (settings : CacheSettings) (clocks : List Timestamp) : Prop where
  under : run.cache.settings = settings
  logs : ∀ series held, run.cache.held.get? series = some held →
    held.log.Keeps (run.accepted series) (settings.retention.forMetric series.metric) clocks

end CacheRun

/-! ## What each event does to the logs -/

namespace Cache

section Store

variable {cache : Cache} {series : Series}

theorem contains_of_get? {held : HeldSeries} (found : cache.held.get? series = some held) :
    cache.contains series = true := by
  rw [contains, SortedMap.contains, found]
  rfl

theorem contains_eq_false_iff :
    cache.contains series = false ↔ cache.held.get? series = none := by
  rw [contains, SortedMap.contains, Option.isSome_eq_false_iff, Option.isNone_iff_eq_none]

/-- A point of a metric that is not cached is ignored. -/
theorem store_of_uncached (uncached : cache.isUncached series.metric = true) (point : Point) :
    cache.store series point = (cache.ignorePoint series.metric, .ok ()) := by
  rw [store, if_pos uncached]

/-- A point of a series that is held is written to it. -/
theorem store_of_held (cached : cache.isUncached series.metric = false) {held : HeldSeries}
    (found : cache.held.get? series = some held) (point : Point) :
    cache.store series point = cache.write series held point := by
  rw [store, if_neg (by simp [cached]), found]

/-- A point of a series that is not held admits it, once there is room. -/
theorem store_of_absent (cached : cache.isUncached series.metric = false)
    (absent : cache.held.get? series = none) (point : Point) :
    cache.store series point
      = cache.makeRoom.tick.write series cache.makeRoom.newcomer point := by
  rw [store, if_neg (by simp [cached]), absent]

end Store

/-- The same series are held with the same logs under the same settings. -/
structure SameLogs (cache other : Cache) : Prop where
  settings : other.settings = cache.settings
  logs : ∀ series, (other.held.get? series).map HeldSeries.log
    = (cache.held.get? series).map HeldSeries.log

theorem SameLogs.refl (cache : Cache) : cache.SameLogs cache := ⟨rfl, fun _ => rfl⟩

theorem SameLogs.trans {first second third : Cache} (one : first.SameLogs second)
    (two : second.SameLogs third) : first.SameLogs third :=
  ⟨two.settings.trans one.settings, fun series => (two.logs series).trans (one.logs series)⟩

theorem sameLogs_touch (cache : Cache) (series : Series) : cache.SameLogs (cache.touch series) := by
  unfold touch
  cases found : cache.held.get? series with
  | none => exact .refl cache
  | some held =>
      refine ⟨rfl, fun wanted => ?_⟩
      simp only [get?_hold]
      split
      case isTrue same => rw [same, found]; rfl
      case isFalse => rfl

/-- What every touch of a series leaves alone, a query leaves alone. -/
theorem related_ask {related : Cache → Cache → Prop} (refl : ∀ cache, related cache cache)
    (trans : ∀ {first second third}, related first second → related second third →
      related first third)
    (touched : ∀ cache series, related cache (touch cache series)) (cache : Cache) (query : Query)
    (now : Timestamp) : related cache (cache.ask query now).1 := by
  have folded : ∀ {α : Type} {step : Cache → α → Cache},
      (∀ cache item, related cache (step cache item)) → ∀ (items : List α) (cache : Cache),
        related cache (items.foldl step cache) := by
    intro α step same items
    induction items with
    | nil => exact refl
    | cons item items ih => exact fun cache => trans (same cache item) (ih (step cache item))
  show related cache (cache.touchedBy query now)
  unfold touchedBy
  split
  · refine folded (fun cache subquery => ?_) query.subqueries cache
    unfold touchedBySubquery
    split
    · exact folded touched _ cache
    · exact refl cache
  · exact refl cache

/-- A query changes no log. -/
theorem sameLogs_ask (cache : Cache) (query : Query) (now : Timestamp) :
    cache.SameLogs (cache.ask query now).1 :=
  related_ask SameLogs.refl SameLogs.trans sameLogs_touch cache query now

/-- The same metrics are cached under the same settings. -/
structure SameScope (cache other : Cache) : Prop where
  settings : other.settings = cache.settings
  exclusions : other.exclusions = cache.exclusions
  uncached : other.uncached = cache.uncached

theorem SameScope.refl (cache : Cache) : cache.SameScope cache := ⟨rfl, rfl, rfl⟩

theorem SameScope.trans {first second third : Cache} (one : first.SameScope second)
    (two : second.SameScope third) : first.SameScope third :=
  ⟨two.settings.trans one.settings, two.exclusions.trans one.exclusions,
    two.uncached.trans one.uncached⟩

theorem sameScope_write (cache : Cache) (series : Series) (held : HeldSeries) (point : Point) :
    cache.SameScope (cache.write series held point).1 := by
  unfold write
  split <;> exact ⟨rfl, rfl, rfl⟩

theorem sameScope_makeRoom (cache : Cache) : cache.SameScope cache.makeRoom := by
  unfold makeRoom
  split
  · unfold evict
    split <;> exact ⟨rfl, rfl, rfl⟩
  · exact .refl cache

/-- A store of a metric that is cached leaves alone which metrics are. -/
theorem sameScope_store {cache : Cache} {series : Series}
    (cached : cache.isUncached series.metric = false) (point : Point) :
    cache.SameScope (cache.store series point).1 := by
  cases found : cache.held.get? series with
  | some held =>
      rw [store_of_held cached found]
      exact sameScope_write cache series held point
  | none =>
      rw [store_of_absent cached found]
      have room := cache.sameScope_makeRoom
      have ticked : cache.SameScope cache.makeRoom.tick :=
        ⟨room.settings, room.exclusions, room.uncached⟩
      exact ticked.trans (sameScope_write _ series _ point)

theorem sameScope_touch (cache : Cache) (series : Series) :
    cache.SameScope (cache.touch series) := by
  unfold touch
  split <;> exact ⟨rfl, rfl, rfl⟩

/-- A query leaves alone which metrics are cached. -/
theorem sameScope_ask (cache : Cache) (query : Query) (now : Timestamp) :
    cache.SameScope (cache.ask query now).1 :=
  related_ask SameScope.refl SameScope.trans sameScope_touch cache query now

/-- Making room keeps the other series as they are. -/
theorem get?_makeRoom {cache : Cache} {series : Series} {held : HeldSeries}
    (found : cache.makeRoom.held.get? series = some held) :
    cache.held.get? series = some held := by
  unfold makeRoom at found
  split at found
  · cases chosen : cache.victim? with
    | none =>
        rw [evict, chosen] at found
        exact found
    | some victim =>
        rw [get?_evict chosen] at found
        split at found
        · cases found
        · exact found
  · exact found

theorem settings_makeRoom (cache : Cache) : cache.makeRoom.settings = cache.settings := by
  unfold makeRoom
  split
  · unfold evict
    split <;> rfl
  · rfl

theorem settings_write (cache : Cache) (series : Series) (held : HeldSeries) (point : Point) :
    (cache.write series held point).1.settings = cache.settings := by
  unfold write
  split <;> rfl

/-- Writing holds the series, touched at this moment, with the point if its log takes it. -/
theorem get?_written (cache : Cache) (series : Series) (held : HeldSeries) (point : Point)
    (wanted : Series) :
    (cache.write series held point).1.held.get? wanted
      = if wanted = series then
          some ⟨(held.log.add point).toOption.getD held.log, held.admitted, cache.clock⟩
        else cache.held.get? wanted := by
  unfold write
  cases added : held.log.add point with
  | ok log => exact get?_hold cache series wanted { held with log := log }
  | error failure => exact get?_hold cache series wanted held

/-- Writing holds the series with the point, if its log takes it. -/
theorem get?_write (cache : Cache) (series : Series) (held : HeldSeries) (point : Point)
    (wanted : Series) :
    ((cache.write series held point).1.held.get? wanted).map HeldSeries.log
      = if wanted = series then some ((held.log.add point).toOption.getD held.log)
        else (cache.held.get? wanted).map HeldSeries.log := by
  rw [get?_written]
  split <;> rfl

theorem isOk_write (cache : Cache) (series : Series) (held : HeldSeries) (point : Point) :
    (cache.write series held point).2.isOk = (held.log.add point).isOk := by
  unfold write
  cases held.log.add point <;> rfl

end Cache

/-! ## The invariant of a run -/

namespace CacheRun

variable {run : CacheRun} {settings : CacheSettings} {clocks : List Timestamp}

/-- A log that was written to keeps what was accepted before, and the point if it was accepted. -/
theorem keeps_written {log : SeriesLog} {accepted : List Point} {retention : Timestamp}
    (keeps : log.Keeps accepted retention clocks) (point : Point) :
    ((log.add point).toOption.getD log).Keeps
      (if (log.add point).isOk then accepted ++ [point] else accepted) retention clocks := by
  cases added : log.add point with
  | ok next => exact keeps.add added
  | error failure => exact keeps

/-- What was held before and is not written to keeps what was accepted. -/
theorem record_of_held {series : Series} {held : HeldSeries}
    (found : run.cache.held.get? series = some held) {event : CacheEvent}
    (other : ∀ point, event ≠ .store series point) :
    run.cache.record run.accepted event series = run.accepted series := by
  unfold Cache.record
  rw [if_pos (Cache.contains_of_get? found)]
  split
  case _ target point =>
      rw [if_neg]
      rintro ⟨rfl, _⟩
      exact other point rfl
  · rfl

/-- A run stays sound as a point is ignored, and so is the attempt. -/
theorem Sound.ignore (sound : run.Sound settings clocks) {series : Series}
    (uncached : run.cache.isUncached series.metric = true) (point : Point) :
    (run.next (.store series point)).Sound settings clocks := by
  have ignored := Cache.store_of_uncached uncached point
  refine ⟨?_, ?_⟩
  · show (run.cache.store series point).1.settings = settings
    rw [ignored]
    exact sound.under
  · intro wanted held found
    have old : run.cache.held.get? wanted = some held := by
      have same : (run.cache.store series point).1.held = run.cache.held := by
        rw [ignored]
        rfl
      rw [← same]
      exact found
    have refused : run.cache.accepts series point = false := by
      rw [Cache.accepts, uncached]
      rfl
    have before := Cache.contains_of_get? old
    show SeriesLog.Keeps _ (run.cache.record run.accepted (.store series point) wanted) _ _
    simp only [Cache.record, before, refused, if_true, Bool.false_eq_true, and_false, if_false]
    exact sound.logs wanted held old

/-- A run stays sound as a point is written to what keeps the points accepted in its series, in a
cache that holds nothing else than before. -/
theorem Sound.write (sound : run.Sound settings clocks) {series : Series} {point : Point}
    {cache : Cache} {held : HeldSeries} {accepted : List Point}
    (same : cache.settings = settings)
    (among : ∀ other kept, cache.held.get? other = some kept →
      run.cache.held.get? other = some kept)
    (keeps : held.log.Keeps accepted (settings.retention.forMetric series.metric) clocks)
    (before : (if run.cache.contains series then run.accepted series else []) = accepted)
    (cached : run.cache.isUncached series.metric = false)
    (stored : run.cache.store series point = cache.write series held point) :
    (run.next (.store series point)).Sound settings clocks := by
  refine ⟨?_, ?_⟩
  · show (run.cache.store series point).1.settings = settings
    rw [stored, Cache.settings_write, same]
  · intro wanted found held_now
    have log : ((cache.write series held point).1.held.get? wanted).map HeldSeries.log
        = some found.log := by
      rw [← stored]
      exact congrArg (Option.map HeldSeries.log) held_now
    rw [Cache.get?_write] at log
    by_cases here : wanted = series
    · subst here
      rw [if_pos rfl, Option.some.injEq] at log
      have accepts : run.cache.accepts wanted point = (held.log.add point).isOk := by
        rw [Cache.accepts, cached, stored, Cache.isOk_write]
        rfl
      show SeriesLog.Keeps _ (run.cache.record run.accepted (.store wanted point) wanted) _ _
      rw [← log]
      simp only [Cache.record, before, accepts, true_and]
      exact keeps_written keeps point
    · rw [if_neg here, Option.map_eq_some_iff] at log
      obtain ⟨kept, there, log⟩ := log
      have old := among wanted kept there
      show SeriesLog.Keeps _ (run.cache.record run.accepted (.store series point) wanted) _ _
      rw [record_of_held old (by rintro _ ⟨⟩; exact here rfl), ← log]
      exact sound.logs wanted kept old

/-- A run stays sound as points are stored. -/
theorem Sound.store (sound : run.Sound settings clocks) (series : Series) (point : Point) :
    (run.next (.store series point)).Sound settings clocks := by
  by_cases uncached : run.cache.isUncached series.metric = true
  · exact sound.ignore uncached point
  · have cached : run.cache.isUncached series.metric = false := by simpa using uncached
    cases found : run.cache.held.get? series with
    | some held =>
        refine sound.write sound.under (fun _ _ same => same) (sound.logs series held found) ?_
          cached (Cache.store_of_held cached found point)
        rw [Cache.contains_of_get? found]
        rfl
    | none =>
        have keeps : run.cache.makeRoom.newcomer.log.Keeps []
            (settings.retention.forMetric series.metric) clocks := SeriesLog.keeps_empty _ _ _
        have stored := Cache.store_of_absent cached found point
        have before : (if run.cache.contains series then run.accepted series else []) = [] := by
          rw [Cache.contains_eq_false_iff.mpr found]
          rfl
        have among : ∀ other kept, run.cache.makeRoom.tick.held.get? other = some kept →
            run.cache.held.get? other = some kept := fun _ _ same => Cache.get?_makeRoom same
        have same : run.cache.makeRoom.tick.settings = settings :=
          (Cache.settings_makeRoom run.cache).trans sound.under
        exact sound.write same among keeps before cached stored

theorem Sound.ask (sound : run.Sound settings clocks) (query : Query) (now : Timestamp) :
    (run.next (.ask query now)).Sound settings clocks := by
  have same := run.cache.sameLogs_ask query now
  refine ⟨same.settings.trans sound.under, ?_⟩
  intro series held found
  have log := same.logs series
  have found_after : (run.cache.ask query now).1.held.get? series = some held := found
  rw [found_after, Option.map_some, eq_comm, Option.map_eq_some_iff] at log
  obtain ⟨kept, old, log⟩ := log
  show SeriesLog.Keeps _ (run.cache.record run.accepted (.ask query now) series) _ _
  rw [record_of_held old (by rintro _ ⟨⟩), ← log]
  exact sound.logs series kept old

theorem Sound.shutdown (sound : run.Sound settings clocks) :
    (run.next .shutdown).Sound settings clocks := by
  refine ⟨sound.under, ?_⟩
  intro series held found
  have archived : run.cache.archive.held.get? series = some held := found
  rw [Cache.archive, SortedMap.get?_mapValues, Option.map_eq_some_iff] at archived
  obtain ⟨kept, old, rfl⟩ := archived
  show SeriesLog.Keeps _ (run.cache.record run.accepted .shutdown series) _ _
  rw [record_of_held old (by rintro _ ⟨⟩)]
  exact (sound.logs series kept old).archive

/-- Every series that maintenance leaves was held before, and its log was archived and aged off. -/
theorem get?_maintain {cache : Cache} {now : Timestamp} {series : Series} {held : HeldSeries}
    (found : (cache.maintain now).1.held.get? series = some held) :
    ∃ kept, cache.held.get? series = some kept
      ∧ held = kept.archive.ageOff now (cache.settings.retention.forMetric series.metric) := by
  simp only [Cache.maintain, SortedMap.get?_filter, Option.filter_eq_some_iff] at found
  have remaining := found.1.1
  rw [SortedMap.get?_mapValues, Cache.archive, SortedMap.get?_mapValues, Option.map_map,
    Option.map_eq_some_iff] at remaining
  obtain ⟨kept, old, rfl⟩ := remaining
  exact ⟨kept, old, rfl⟩

theorem Sound.maintain (sound : run.Sound settings clocks) (now : Timestamp) :
    (run.next (.maintain now)).Sound settings (now :: clocks) := by
  refine ⟨sound.under, ?_⟩
  intro series held found
  obtain ⟨kept, old, rfl⟩ := get?_maintain found
  show SeriesLog.Keeps _ (run.cache.record run.accepted (.maintain now) series) _ _
  rw [record_of_held old (by rintro _ ⟨⟩), sound.under]
  exact (sound.logs series kept old).archive.ageOff now

/-- A run stays sound with every event. -/
theorem Sound.next (sound : run.Sound settings clocks) (event : CacheEvent) :
    (run.next event).Sound settings (event.addClock clocks) := by
  cases event with
  | store series point => exact sound.store series point
  | ask query now => exact sound.ask query now
  | maintain now => exact sound.maintain now
  | shutdown => exact sound.shutdown

theorem sound_foldl (sound : run.Sound settings clocks) (events : List CacheEvent) :
    (run.after events).Sound settings (events.foldl CacheEvent.addClock clocks) := by
  induction events generalizing run clocks with
  | nil => exact sound
  | cons event events ih => exact ih (sound.next event)

/-- A new cache: its settings are valid, and it holds nothing and has counted nothing. -/
theorem eq_of_ofSettings {settings : CacheSettings} {cache : Cache}
    (created : Cache.ofSettings settings = .ok cache) :
    settings.validate = .ok () ∧ ∃ patterns, settings.exclusions = .ok patterns
      ∧ cache = ⟨settings, patterns, .empty, .empty, 0, ⟨0, 0, 0, 0, 0, 0⟩⟩ := by
  unfold Cache.ofSettings at created
  cases valid : settings.validate with
  | error failure => rw [valid] at created; cases created
  | ok _ =>
      rw [valid] at created
      cases read : settings.exclusions with
      | error failure => rw [read] at created; cases created
      | ok patterns =>
          rw [read] at created
          exact ⟨rfl, patterns, rfl, (Except.ok.inj created).symm⟩

theorem settings_ofSettings {settings : CacheSettings} {cache : Cache}
    (created : Cache.ofSettings settings = .ok cache) :
    settings.validate = .ok () ∧ cache.settings = settings ∧ cache.held = .empty := by
  obtain ⟨valid, patterns, _, rfl⟩ := eq_of_ofSettings created
  exact ⟨valid, rfl, rfl⟩

/-- Every run that starts with a new cache is sound. -/
theorem sound_after {cache : Cache} (created : Cache.ofSettings settings = .ok cache)
    (events : List CacheEvent) :
    ((start cache).after events).Sound settings (CacheEvent.clocks events) := by
  obtain ⟨_, same, nothing⟩ := settings_ofSettings created
  have initial : (start cache).Sound settings [] := by
    refine ⟨same, ?_⟩
    intro series held found
    have absent : cache.held.get? series = some held := found
    rw [nothing] at absent
    cases absent
  exact sound_foldl initial events

end CacheRun

end TimeSeries
