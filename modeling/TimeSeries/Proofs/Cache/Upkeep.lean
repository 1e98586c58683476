import TimeSeries.Proofs.Cache.LaterAnswers
import TimeSeries.Proofs.Log.History

/-!
# Upkeep goes unnoticed

Maintenance and shutdown archive open blocks, maintenance drops old blocks and the series that have
nothing left, and what is dropped changes which points are accepted later: a log that starts anew
takes points that the old one would have refused.  Under settings without further limits, none of
this shows in the answer to a query that asks for points or rates at the time of the last
maintenance or later.

The reason is that such a query looks at no point from before a cutoff, and of the points from the
cutoff on a log need only know which ones it took.  A point before the cutoff is in front of them
all, and whether it was taken has no influence on which of them are; and a log that is dropped has
none of them.  So the recent points of a series can be told from the points that were stored alone
(`Cache.recalls_afterAll`), and answers can be told from the recent points (`Recalls.answer_eq`).

Main statement: `Cache.ask_after_upkeep`.
-/

set_option autoImplicit false

namespace TimeSeries

/-! ## Recent points of a log -/

/-- The point is not before the cutoff. -/
def Point.isSince (cutoff : Timestamp) (point : Point) : Bool := cutoff ≤ point.timestamp

/-- The recent points after one more was offered: it is one of them unless it lies before the cutoff
or before another one. -/
def takeRecent (cutoff : Timestamp) (recent : List Point) (point : Point) : List Point :=
  if point.isSince cutoff ∧ ∀ earlier ∈ recent, earlier.timestamp ≤ point.timestamp then
    recent ++ [point]
  else
    recent

/-- Of the points from the cutoff on, the log has taken the given ones, and it holds them all. -/
def SeriesLog.Recalls (log : SeriesLog) (cutoff : Timestamp) (recent : List Point) : Prop :=
  ∃ contents : LogContents, log.Holds contents
    ∧ contents.taken.filter (Point.isSince cutoff) = recent
    ∧ ∀ point ∈ contents.dropped, point.timestamp < cutoff

namespace SeriesLog

variable {log : SeriesLog} {cutoff : Timestamp} {recent : List Point}

theorem recalls_empty (blockLimit : Nat) (cutoff : Timestamp) :
    (empty blockLimit).Recalls cutoff [] :=
  ⟨_, holds_empty blockLimit, rfl, by simp⟩

/-- Offered a point, a log takes it for a recent one exactly if that follows the recent ones. -/
theorem Recalls.offer (recalls : log.Recalls cutoff recent) (point : Point) :
    ((log.add point).toOption.getD log).Recalls cutoff (takeRecent cutoff recent point) := by
  obtain ⟨contents, holds, rfl, dropped⟩ := recalls
  by_cases inOrder : ∀ newest ∈ log.newest, newest ≤ point.timestamp
  · obtain ⟨grown, later, added, grownHolds, taken, same, _⟩ := holds.add inOrder
    rw [holds.inOrder_iff] at inOrder
    rw [added]
    refine ⟨later, grownHolds, ?_, by rw [same]; exact dropped⟩
    rw [taken, List.filter_append, takeRecent]
    by_cases since : point.isSince cutoff = true
    · have recentInOrder : ∀ earlier ∈ contents.taken.filter (Point.isSince cutoff),
          earlier.timestamp ≤ point.timestamp :=
        fun earlier member => inOrder earlier (List.mem_filter.mp member).1
      rw [if_pos ⟨since, recentInOrder⟩, List.filter_cons_of_pos since, List.filter_nil]
    · rw [if_neg fun both => since both.1, List.filter_cons_of_neg since, List.filter_nil,
        List.append_nil]
  · obtain ⟨failure, refused⟩ := refused_of_early inOrder
    rw [refused]
    refine ⟨contents, holds, ?_, dropped⟩
    rw [takeRecent, if_neg]
    rintro ⟨since, recentInOrder⟩
    rw [Point.isSince, decide_eq_true_iff] at since
    -- what is in order among the recent points is so among all, for the others are before them
    refine inOrder ((holds.inOrder_iff point).mpr fun earlier member => ?_)
    by_cases old : cutoff ≤ earlier.timestamp
    · exact recentInOrder earlier (List.mem_filter.mpr ⟨member, decide_eq_true old⟩)
    · exact Int64.le_of_lt (Int64.lt_of_lt_of_le (Int64.not_le.mp old) since)

theorem Recalls.archive (recalls : log.Recalls cutoff recent) :
    log.archive.Recalls cutoff recent := by
  obtain ⟨contents, holds, rfl, dropped⟩ := recalls
  exact ⟨_, holds.archive, by rw [taken_archive], dropped⟩

/-- A drop of old blocks with an earlier cutoff drops nothing recent. -/
theorem Recalls.ageOff (recalls : log.Recalls cutoff recent) {clock retention : Timestamp}
    (early : clock.saturatingSub retention ≤ cutoff) :
    (log.ageOff clock retention).Recalls cutoff recent := by
  obtain ⟨contents, holds, rfl, dropped⟩ := recalls
  obtain ⟨later, older, aged, same, split, before⟩ := holds.ageOff clock retention
  refine ⟨later, aged, by rw [same], fun point member => ?_⟩
  rw [split] at member
  rcases List.mem_append.mp member with old | new
  · exact dropped point old
  · exact Int64.lt_of_lt_of_le (before point new) early

/-- A log without points recalls none. -/
theorem Recalls.eq_nil_of_isEmpty (recalls : log.Recalls cutoff recent)
    (nothing : log.isEmpty = true) : recent = [] := by
  obtain ⟨contents, holds, rfl, dropped⟩ := recalls
  rw [LogContents.taken, holds.isEmpty_iff.mp nothing, List.append_nil, List.filter_eq_nil_iff]
  intro point member since
  rw [Point.isSince, decide_eq_true_iff] at since
  exact absurd (dropped point member) (Int64.not_lt.mpr since)

/-- In a span from the cutoff on, a log holds the recent points. -/
theorem Recalls.filter_kept (recalls : log.Recalls cutoff recent) (start stop : Timestamp)
    (reach : cutoff ≤ start) :
    ∃ contents, log.Holds contents
      ∧ contents.kept.filter (Point.isWithin start stop)
        = recent.filter (Point.isWithin start stop) := by
  obtain ⟨contents, holds, rfl, dropped⟩ := recalls
  refine ⟨contents, holds, ?_⟩
  have recent_of_within : ∀ point : Point, point.isWithin start stop = true →
      cutoff ≤ point.timestamp := by
    intro point within
    rw [Point.isWithin, Bool.and_eq_true, decide_eq_true_iff] at within
    exact Int64.le_trans reach within.1
  have none_dropped : contents.dropped.filter (Point.isWithin start stop) = [] := by
    rw [List.filter_eq_nil_iff]
    intro point member within
    exact absurd (dropped point member) (Int64.not_lt.mpr (recent_of_within point within))
  rw [List.filter_filter, LogContents.taken, List.filter_append]
  have both : ∀ point : Point, (point.isWithin start stop && point.isSince cutoff)
      = point.isWithin start stop := by
    intro point
    cases within : point.isWithin start stop with
    | false => rfl
    | true => exact decide_eq_true (recent_of_within point within)
  simp only [both, none_dropped, List.nil_append]

end SeriesLog

/-! ## Recent points of a cache -/

/-- Series are held for as long as they have points: there is no limit to their number, and no
series is dropped because it is stale. -/
structure CacheSettings.Unlimited (settings : CacheSettings) : Prop where
  series : settings.seriesLimit = 0
  staleness : settings.staleness = none
  tagSets : settings.tagSetLimit = 0

/-- The event is a maintenance or a shutdown. -/
def CacheEvent.isUpkeep : CacheEvent → Bool
  | maintain _ => true
  | shutdown => true
  | _ => false

/-- The recent points of each series after one more event: only stores make a difference, and those
of metrics that are excluded make none. -/
def CacheEvent.remember (exclusions : List Pattern) (cutoff : Series → Timestamp)
    (recent : Series → List Point) : CacheEvent → Series → List Point
  | store target point, series =>
      if target = series ∧ (exclusions.any fun pattern => pattern.isFoundIn series.metric) = false
      then takeRecent (cutoff series) (recent series) point
      else recent series
  | _, series => recent series

/-- The recent points of each series after some events. -/
def CacheEvent.recentOf (exclusions : List Pattern) (cutoff : Series → Timestamp)
    (events : List CacheEvent) : Series → List Point :=
  events.foldl (remember exclusions cutoff) fun _ => []

/-- Upkeep makes no difference to recent points. -/
theorem CacheEvent.recentOf_filter (exclusions : List Pattern) (cutoff : Series → Timestamp)
    (events : List CacheEvent) :
    recentOf exclusions cutoff (events.filter fun event => !event.isUpkeep)
      = recentOf exclusions cutoff events := by
  rw [recentOf, recentOf, List.foldl_filter]
  congr 1
  funext recent event
  cases event <;> rfl

namespace Cache

/-- The log of a series; a series that is not held has one without points. -/
def logOf (cache : Cache) (series : Series) : SeriesLog :=
  ((cache.held.get? series).map HeldSeries.log).getD (.empty cache.settings.blockLimit)

/-- Caches with the same logs have the same log of every series, held or not. -/
theorem SameLogs.logOf_eq {cache other : Cache} (same : cache.SameLogs other) (series : Series) :
    other.logOf series = cache.logOf series := by
  rw [logOf, logOf, same.logs, same.settings]

/-- The cache recalls the recent points of each series, and caches all metrics that are not
excluded. -/
structure Recalls (cache : Cache) (settings : CacheSettings) (exclusions : List Pattern)
    (now : Timestamp) (recent : Series → List Point) : Prop where
  under : cache.settings = settings
  excluding : cache.exclusions = exclusions
  uncached : ∀ metric, cache.uncached.contains metric = true →
    (exclusions.any fun pattern => pattern.isFoundIn metric) = true
  logs : ∀ series, (cache.logOf series).Recalls
    (settings.retention.oldestRetained series.metric now) (recent series)

variable {cache : Cache} {settings : CacheSettings} {exclusions : List Pattern} {now : Timestamp}
  {recent : Series → List Point}

theorem logOf_of_get? {series : Series} {held : HeldSeries}
    (found : cache.held.get? series = some held) : cache.logOf series = held.log := by
  rw [logOf, found]
  rfl

theorem Recalls.isUncached (recalls : cache.Recalls settings exclusions now recent)
    (metric : String) :
    cache.isUncached metric = exclusions.any fun pattern => pattern.isFoundIn metric := by
  rw [Cache.isUncached, recalls.excluding]
  cases known : cache.uncached.contains metric with
  | false => exact Bool.false_or _
  | true =>
      rw [recalls.uncached metric known]
      rfl

/-- What leaves scope and logs alone leaves what is recalled. -/
theorem Recalls.of_sameScope (recalls : cache.Recalls settings exclusions now recent)
    {other : Cache} (scope : cache.SameScope other) {later : Series → List Point}
    (logs : ∀ series, (other.logOf series).Recalls
      (settings.retention.oldestRetained series.metric now) (later series)) :
    other.Recalls settings exclusions now later :=
  ⟨scope.settings.trans recalls.under, scope.exclusions.trans recalls.excluding,
    by rw [scope.uncached]; exact recalls.uncached, logs⟩

/-- Where nothing limits the number of series, a store writes to what the log of its series is, and
changes nothing else but the moment. -/
theorem exists_write (unlimited : cache.settings.seriesLimit = 0) {series : Series}
    (cached : cache.isUncached series.metric = false) (point : Point) :
    ∃ (target : Cache) (held : HeldSeries),
      cache.store series point = target.write series held point
      ∧ target.held = cache.held ∧ cache.SameScope target ∧ target.counters = cache.counters
      ∧ held.log = cache.logOf series := by
  have room : cache.makeRoom = cache := by
    rw [makeRoom, isFull, unlimited]
    rfl
  cases found : cache.held.get? series with
  | some held =>
      exact ⟨cache, held, store_of_held cached found point, rfl, .refl cache, rfl,
        (logOf_of_get? found).symm⟩
  | none =>
      refine ⟨cache.tick, cache.newcomer, ?_, rfl, ⟨rfl, rfl, rfl⟩, rfl, by rw [logOf, found]; rfl⟩
      rw [store_of_absent cached found, room]

/-- Where nothing limits the number of series, a store offers the point to the log of its series. -/
theorem logOf_store (unlimited : cache.settings.seriesLimit = 0) {series : Series}
    (cached : cache.isUncached series.metric = false) (point : Point) (wanted : Series) :
    (cache.store series point).1.logOf wanted
      = if wanted = series then ((cache.logOf series).add point).toOption.getD (cache.logOf series)
        else cache.logOf wanted := by
  obtain ⟨target, held, stored, same, scope, _, log⟩ := exists_write unlimited cached point
  rw [stored, logOf, get?_write, settings_write, scope.settings, same, log]
  split
  · rfl
  · rfl

theorem Recalls.store (recalls : cache.Recalls settings exclusions now recent)
    (unlimited : settings.Unlimited) (series : Series) (point : Point) :
    (cache.after (.store series point)).Recalls settings exclusions now
      (CacheEvent.remember exclusions
        (fun series => settings.retention.oldestRetained series.metric now) recent
        (.store series point)) := by
  by_cases excluded : cache.isUncached series.metric = true
  · -- the point is ignored, and its metric is remembered as one that is excluded
    have ignored : cache.after (.store series point) = cache.ignorePoint series.metric := by
      rw [Cache.after, store_of_uncached excluded]
    rw [recalls.isUncached] at excluded
    rw [ignored]
    refine ⟨recalls.under, recalls.excluding, fun metric known => ?_, fun wanted => ?_⟩
    · by_cases same : metric = series.metric
      · rw [same, excluded]
      · refine recalls.uncached metric ?_
        rw [ignorePoint, SortedMap.contains, SortedMap.get?_insert, if_neg same] at known
        exact known
    · have out : ¬ (series = wanted
          ∧ (exclusions.any fun pattern => pattern.isFoundIn wanted.metric) = false) := by
        rintro ⟨rfl, cached⟩
        rw [excluded] at cached
        cases cached
      rw [CacheEvent.remember, if_neg out]
      exact recalls.logs wanted
  · rw [Bool.not_eq_true] at excluded
    refine recalls.of_sameScope (sameScope_store excluded point) fun wanted => ?_
    rw [logOf_store (by rw [recalls.under]; exact unlimited.series) excluded, CacheEvent.remember]
    rw [recalls.isUncached] at excluded
    split
    case isTrue here =>
        rw [here, if_pos ⟨rfl, excluded⟩]
        exact (recalls.logs series).offer point
    case isFalse apart =>
        rw [if_neg fun both => apart both.1.symm]
        exact recalls.logs wanted

theorem Recalls.ask (recalls : cache.Recalls settings exclusions now recent) (query : Query)
    (clock : Timestamp) :
    (cache.after (.ask query clock)).Recalls settings exclusions now recent := by
  refine recalls.of_sameScope (cache.sameScope_ask query clock) fun series => ?_
  show ((cache.ask query clock).1.logOf series).Recalls _ _
  rw [(cache.sameLogs_ask query clock).logOf_eq]
  exact recalls.logs series

theorem Recalls.shutdown (recalls : cache.Recalls settings exclusions now recent) :
    (cache.after .shutdown).Recalls settings exclusions now recent := by
  have scope : cache.SameScope cache.archive := ⟨rfl, rfl, rfl⟩
  refine recalls.of_sameScope scope fun series => ?_
  have recalled := recalls.logs series
  rw [logOf, Cache.archive, SortedMap.get?_mapValues]
  cases found : cache.held.get? series with
  | none =>
      rw [logOf, found] at recalled
      exact recalled
  | some held =>
      rw [logOf_of_get? found] at recalled
      exact recalled.archive

/-- No metric is too wide if there is no limit. -/
theorem wideMetrics_zero (held : SortedMap Series HeldSeries) : wideMetrics 0 held = .empty := by
  rw [wideMetrics, if_pos rfl]

/-- Where nothing else limits how long series are held, maintenance drops those without points. -/
theorem get?_maintain_of_unlimited (tagSets : cache.settings.tagSetLimit = 0)
    (staleness : cache.settings.staleness = none) (clock : Timestamp) (series : Series) :
    (cache.maintain clock).1.held.get? series
      = ((cache.held.get? series).map fun held => held.archive.ageOff clock
          (cache.settings.retention.forMetric series.metric)).filter
        fun held => !held.log.isEmpty := by
  have none_wide : ∀ metric, (SortedMap.empty : SortedSet String).contains metric = false :=
    fun _ => rfl
  have all : ∀ remaining : Option HeldSeries, remaining.filter (fun _ => true) = remaining := by
    intro remaining
    cases remaining <;> rfl
  simp only [Cache.maintain, tagSets, wideMetrics_zero, SortedMap.get?_filter,
    SortedMap.get?_mapValues, Cache.archive, Option.map_map, isExpired, HeldSeries.isStale,
    staleness, Bool.false_or, none_wide, Bool.not_false]
  exact all _

theorem Recalls.maintain (recalls : cache.Recalls settings exclusions now recent)
    (unlimited : settings.Unlimited) {clock : Timestamp} (early : clock ≤ now) :
    (cache.after (.maintain clock)).Recalls settings exclusions now recent := by
  have under := recalls.under
  have tagSets : cache.settings.tagSetLimit = 0 := by rw [under, unlimited.tagSets]
  have staleness : cache.settings.staleness = none := by rw [under, unlimited.staleness]
  have scope : cache.SameScope (cache.maintain clock).1 := by
    refine ⟨rfl, rfl, ?_⟩
    simp only [Cache.maintain, tagSets, wideMetrics_zero]
    rfl
  refine recalls.of_sameScope scope fun series => ?_
  have recalled := recalls.logs series
  rw [logOf, get?_maintain_of_unlimited tagSets staleness, under]
  cases found : cache.held.get? series with
  | none =>
      rw [logOf, found] at recalled
      rw [scope.settings]
      exact recalled
  | some held =>
      rw [logOf_of_get? found] at recalled
      have aged := recalled.archive.ageOff
        (Timestamp.saturatingSub_le early (settings.retention.forMetric series.metric))
      rw [Option.map_some, Option.filter_some]
      split
      · exact aged
      case isFalse nothing =>
          -- what was dropped had nothing recent, so a log that starts anew recalls as much
          rw [Bool.not_eq_true, Bool.not_eq_false'] at nothing
          rw [aged.eq_nil_of_isEmpty nothing]
          exact SeriesLog.recalls_empty _ _

/-- **One event** of a cache without limits leaves it with the recent points of the event. -/
theorem Recalls.after (recalls : cache.Recalls settings exclusions now recent)
    (unlimited : settings.Unlimited) {event : CacheEvent}
    (early : ∀ clock, event = .maintain clock → clock ≤ now) :
    (cache.after event).Recalls settings exclusions now
      (event.remember exclusions
        (fun series => settings.retention.oldestRetained series.metric now) recent) := by
  cases event with
  | store series point => exact recalls.store unlimited series point
  | ask query clock => exact recalls.ask query clock
  | maintain clock => exact recalls.maintain unlimited (early clock rfl)
  | shutdown => exact recalls.shutdown

/-- After any events without maintenance later than a given time, a cache without limits recalls
the recent points of the events. -/
theorem recalls_afterAll (created : Cache.ofSettings settings = .ok cache)
    (unlimited : settings.Unlimited) {events : List CacheEvent}
    (early : ∀ clock, .maintain clock ∈ events → clock ≤ now) :
    (cache.afterAll events).Recalls settings cache.exclusions now
      (CacheEvent.recentOf cache.exclusions
        (fun series => settings.retention.oldestRetained series.metric now) events) := by
  induction events using List.reverseRecOn with
  | nil =>
      obtain ⟨_, patterns, _, rfl⟩ := CacheRun.eq_of_ofSettings created
      refine ⟨rfl, rfl, fun metric known => ?_, fun series => SeriesLog.recalls_empty _ _⟩
      cases known
  | append_singleton events event ih =>
      have before := ih fun clock member => early clock (List.mem_append_left _ member)
      rw [afterAll, CacheEvent.recentOf, List.foldl_append, List.foldl_append]
      exact before.after unlimited fun clock here =>
        early clock (List.mem_append_right _ (here ▸ List.mem_cons_self))

end Cache

/-! ## Answers -/

/-- Over no entries the layer presents none. -/
theorem Filtered.finds_nil {σ : Type} [Cursor σ] {cursor : Filtered σ} {range : KeyRange}
    (found : Cursor.Finds cursor.below range []) : Cursor.Finds cursor range [] := by
  obtain ⟨sought, moved, presents⟩ := found
  cases presents with
  | finished nothing =>
      let started : Filtered σ := { cursor with below := sought, windows := .empty }
      have filled : fill started none = ({ started with top := none }, none) := by
        rw [fill.eq_def]
        split
        · rfl
        case _ here => rw [nothing] at here; cases here
      refine ⟨{ started with top := none }, ?_, .finished rfl⟩
      show Filtered.seek range cursor = _
      unfold Filtered.seek
      rw [moved]
      exact filled

/-- Of no entries there is none to read, in buckets or not. -/
theorem Cursor.readDownsampled_nil {σ : Type} [Cursor σ] {cursor : σ}
    (nothing : Cursor.Finds cursor .all []) (downsampling : Option Downsampling) :
    Cursor.readDownsampled downsampling cursor = .ok [] := by
  cases downsampling with
  | none => exact Cursor.readAll_of_finds nothing
  | some spec =>
      have smooth : Combined.Smooth (.aggregate spec.aggregator)
          (.aligned spec.period spec.period_pos) [] := by
        intro run member
        rw [Window.cut] at member
        cases member
      have combined := Combined.finds nothing smooth
      rw [Combined.combine, Window.cut, List.flatMap_nil] at combined
      exact Cursor.readAll_of_finds combined

/-- Of no entries a subquery makes none. -/
theorem Subquery.process_nil (subquery : Subquery) (downsampling : Option Downsampling) :
    subquery.process downsampling [] = .ok [] := by
  have nothing : Cursor.Finds (SortedEntries.ofList []) .all [] := by
    simpa using SortedEntries.finds_ofList []
  unfold Subquery.process
  split
  · have rates : Cursor.Finds (Filtered.rates subquery.rateOptions (SortedEntries.ofList [])) .all
        [] := Filtered.finds_nil nothing
    exact Cursor.readDownsampled_nil rates downsampling
  · exact Cursor.readDownsampled_nil nothing downsampling

namespace Scan

/-- What a scan makes of the recent points of a series. -/
def madeOf (scan : Scan) (series : Series) (recent : List Point) : Except Failure TimedValues := do
  let within := recent.filter (Point.isWithin scan.start scan.stop)
  timedValues (← scan.subquery.process scan.downsampling (within.map (HeldSeries.entryOf series)))

/-- Of a log a scan makes what it makes of the recent points, if it starts no earlier than these. -/
theorem pointsOf_of_recalls {scan : Scan} {held : HeldSeries} {cutoff : Timestamp}
    {recent : List Point} (recalls : held.log.Recalls cutoff recent)
    (reach : cutoff ≤ scan.start) (series : Series) :
    scan.pointsOf series held = scan.madeOf series recent
      ∧ ∃ values, scan.madeOf series recent = .ok values := by
  obtain ⟨contents, holds, same⟩ := recalls.filter_kept scan.start scan.stop reach
  have made : scan.pointsOf series held = scan.madeOf series recent := by
    rw [pointsOf, HeldSeries.entriesWithin_of_holds holds, same]
    rfl
  exact ⟨made, made ▸ scan.pointsOf_of_holds holds series⟩

/-- Of no points a scan makes none. -/
theorem madeOf_nil (scan : Scan) (series : Series) : scan.madeOf series [] = .ok .empty := by
  rw [madeOf]
  show (scan.subquery.process scan.downsampling [] >>= timedValues) = _
  rw [Subquery.process_nil]
  rfl

end Scan

namespace Cache

variable {cache other : Cache} {settings : CacheSettings} {exclusions : List Pattern}
  {now : Timestamp} {recent : Series → List Point} {query : Query} {subquery : Subquery}

/-- The series that a scan selects and that have points, with their points. -/
def foundBy (cache : Cache) (scan : Scan) (points : Series → TimedValues) :
    SortedMap Series TimedValues :=
  (cache.held.mapValues fun series _ => points series).filter fun series values =>
    scan.selects series && !values.isEmpty

theorem filter_selected (cache : Cache) (scan : Scan) (points : Series → TimedValues) :
    ((cache.selected scan).map fun pair => (pair.1, points pair.1)).filter
        (fun pair => !pair.2.isEmpty)
      = (cache.foundBy scan points).toList := by
  show _ = ((cache.held.toList.map fun pair => (pair.1, points pair.1)).filter fun pair =>
    scan.selects pair.1 && !pair.2.isEmpty)
  rw [selected, List.filter_map, List.filter_filter, List.filter_map]
  congr 1
  refine List.filter_congr fun pair _ => ?_
  exact Bool.and_comm _ _

/-- What a scan answers in a cache can be told from the series that it finds. -/
theorem answer_of_foundBy (cache : Cache) (scan : Scan) (divisor : Timestamp)
    (points : Series → TimedValues)
    (made : ∀ pair ∈ cache.selected scan, scan.pointsOf pair.1 pair.2 = .ok (points pair.1)) :
    scan.answer divisor (cache.selected scan)
      = ⟨(scan.groupMembers (cache.foundBy scan points).toList).toList.map fun group =>
          ⟨scan.subquery.metric, group.1,
            inUnits divisor (mergeMembers scan.subquery.aggregator group.2)⟩, []⟩ := by
  have twice : scan.groupMembers ((cache.selected scan).map fun pair => (pair.1, points pair.1))
      = scan.groupMembers (cache.foundBy scan points).toList := by
    rw [Scan.groupMembers, Scan.groupMembers, ← filter_selected, List.filter_filter]
    simp only [Bool.and_self]
  rw [scan.answer_of_points divisor points made, twice]

/-- Where a series that is not held has no points, the series that a scan finds are the selected
ones with points, held or not. -/
theorem get?_foundBy (scan : Scan) {points : Series → TimedValues}
    (nothing : ∀ series, cache.held.get? series = none → points series = .empty)
    (series : Series) :
    (cache.foundBy scan points).get? series
      = (some (points series)).filter fun values => scan.selects series && !values.isEmpty := by
  rw [foundBy, SortedMap.get?_filter, SortedMap.get?_mapValues]
  cases found : cache.held.get? series with
  | some held => rfl
  | none =>
      rw [nothing series found, Option.map_none, Option.filter_none, Option.filter_some, if_neg]
      rw [show (SortedMap.empty : TimedValues).isEmpty = true from rfl, Bool.not_true,
        Bool.and_false]
      exact Bool.false_ne_true

/-- What a scan makes of the points of a series. -/
def pointsBy (scan : Scan) (points : Series → List Point) (series : Series) : TimedValues :=
  (scan.madeOf series (points series)).toOption.getD .empty

theorem pointsBy_of_nil (scan : Scan) {points : Series → List Point} {series : Series}
    (nothing : points series = []) : pointsBy scan points series = .empty := by
  rw [pointsBy, nothing, Scan.madeOf_nil]
  rfl

/-- That is what it makes of the logs of the cache. -/
theorem Recalls.pointsOf (recalls : cache.Recalls settings exclusions now recent) {scan : Scan}
    (reach : settings.retention.oldestRetained scan.subquery.metric now ≤ scan.start)
    {pair : Series × HeldSeries} (member : pair ∈ cache.selected scan) :
    scan.pointsOf pair.1 pair.2 = .ok (pointsBy scan recent pair.1) := by
  obtain ⟨found, selects⟩ := CacheRun.get?_of_mem_selected member
  rw [Scan.selects, Bool.and_eq_true, beq_iff_eq] at selects
  have recalled := recalls.logs pair.1
  rw [logOf_of_get? found, selects.1] at recalled
  obtain ⟨same, values, made⟩ := Scan.pointsOf_of_recalls recalled reach pair.1
  rw [same, pointsBy, made]
  rfl

/-- A series that is not held has no recent points. -/
theorem Recalls.eq_nil (recalls : cache.Recalls settings exclusions now recent) {series : Series}
    (absent : cache.held.get? series = none) : recent series = [] := by
  have recalled := recalls.logs series
  rw [logOf, absent] at recalled
  exact recalled.eq_nil_of_isEmpty rfl

/-- Caches that recall the same points answer a scan that starts no earlier alike. -/
theorem Recalls.answer_scan_eq (recalls : cache.Recalls settings exclusions now recent)
    (others : other.Recalls settings exclusions now recent) {scan : Scan}
    (reach : settings.retention.oldestRetained scan.subquery.metric now ≤ scan.start)
    (divisor : Timestamp) :
    scan.answer divisor (cache.selected scan) = scan.answer divisor (other.selected scan) := by
  have same : cache.foundBy scan (pointsBy scan recent)
      = other.foundBy scan (pointsBy scan recent) := by
    apply SortedMap.ext_get?
    intro series
    rw [get?_foundBy scan fun series absent => pointsBy_of_nil scan (recalls.eq_nil absent),
      get?_foundBy scan fun series absent => pointsBy_of_nil scan (others.eq_nil absent)]
  rw [answer_of_foundBy cache scan divisor _ fun _ => recalls.pointsOf reach,
    answer_of_foundBy other scan divisor _ fun _ => others.pointsOf reach, same]

/-- The scan of a subquery without buckets starts no earlier than what is retained. -/
theorem start_of_scan? (whole : subquery.downsampling = none) {scan : Scan}
    (scanned : cache.scan? query subquery now = .ok (some scan)) :
    scan.subquery = subquery
      ∧ cache.settings.retention.oldestRetained subquery.metric now ≤ scan.start := by
  cases compiled : subquery.tagFilter with
  | error failure =>
      rw [scan?, compiled] at scanned
      cases scanned
  | ok filter =>
      rw [CacheRun.scan?_of_whole cache whole compiled] at scanned
      split at scanned
      · cases scanned
      · rw [← Option.some.inj (Except.ok.inj scanned)]
        exact ⟨rfl, (Timestamp.max_le_iff.mp (Int64.le_refl _)).2⟩

/-- Caches under the same settings that answer each scan of a query alike answer the query alike. -/
theorem answer_eq_of_scans (under : other.settings = cache.settings)
    (alike : ∀ subquery ∈ query.subqueries, ∀ scan,
      cache.scan? query subquery now = .ok (some scan) →
        scan.answer query.divisor (cache.selected scan)
          = scan.answer query.divisor (other.selected scan)) :
    cache.answer query now = other.answer query now := by
  have each : ∀ subquery ∈ query.subqueries,
      cache.answerSubquery query subquery now = other.answerSubquery query subquery now := by
    intro subquery member
    have scanned : other.scan? query subquery now = cache.scan? query subquery now := by
      rw [scan?, scan?, under]
    rw [answerSubquery, answerSubquery, scanned]
    split
    case _ scan here => exact alike subquery member scan here
    · rfl
    · rfl
  rw [answer, answer, List.map_congr_left each]

/-- Caches that recall the same points answer a query without buckets alike. -/
theorem Recalls.answer_eq (recalls : cache.Recalls settings exclusions now recent)
    (others : other.Recalls settings exclusions now recent)
    (whole : ∀ subquery ∈ query.subqueries, subquery.downsampling = none) :
    cache.answer query now = other.answer query now := by
  refine answer_eq_of_scans (others.under.trans recalls.under.symm) fun subquery member scan here =>
    ?_
  obtain ⟨rfl, reach⟩ := start_of_scan? (whole subquery member) here
  rw [recalls.under] at reach
  exact recalls.answer_scan_eq others reach query.divisor

/-- **Upkeep goes unnoticed.**  In a cache that holds series for as long as they have points, a
query for points or rates is answered as if no maintenance and no shutdown had happened, provided
that it is asked no earlier than the last maintenance. -/
theorem ask_after_upkeep (created : Cache.ofSettings settings = .ok cache)
    (unlimited : settings.Unlimited) {events : List CacheEvent}
    (early : ∀ clock, .maintain clock ∈ events → clock ≤ now)
    (whole : ∀ subquery ∈ query.subqueries, subquery.downsampling = none) :
    ((cache.afterAll events).ask query now).2
      = ((cache.afterAll (events.filter fun event => !event.isUpkeep)).ask query now).2 := by
  have recalls := recalls_afterAll created unlimited early
  have others := recalls_afterAll created unlimited
    (show ∀ clock, .maintain clock ∈ events.filter (fun event => !event.isUpkeep) → clock ≤ now from
      fun clock member => early clock (List.mem_filter.mp member).1)
  rw [CacheEvent.recentOf_filter] at others
  exact recalls.answer_eq others whole

/-- A maintenance drops a series, so an older point of it is accepted that would be refused
otherwise; rates of the series do not show it. -/
theorem ask_after_upkeep_of_dropped :
    let settings : CacheSettings :=
      { CacheSettings.standard with seriesLimit := 0, tagSetLimit := 0, retention := .ofDefault 10 }
    let series : Series := .ofMetric "load"
    let query : Query := ⟨0, 100, true, [(Subquery.ofMetric "load").withRate .standard]⟩
    ∃ cache, Cache.ofSettings settings = .ok cache
      ∧ ((cache.afterAll [.store series ⟨5, ⟨1⟩⟩, .maintain 20, .store series ⟨3, ⟨2⟩⟩,
          .store series ⟨30, ⟨3⟩⟩, .shutdown, .store series ⟨31, ⟨4⟩⟩]).ask query 40).2
        = ((cache.afterAll [.store series ⟨5, ⟨1⟩⟩, .store series ⟨3, ⟨2⟩⟩,
          .store series ⟨30, ⟨3⟩⟩, .store series ⟨31, ⟨4⟩⟩]).ask query 40).2 := by
  intro settings series query
  have created : Cache.ofSettings settings
      = .ok ⟨settings, [], .empty, .empty, 0, ⟨0, 0, 0, 0, 0, 0⟩⟩ := rfl
  refine ⟨_, created, ask_after_upkeep created ⟨rfl, rfl, rfl⟩ (fun clock member => ?_) ?_⟩
  · simp only [List.mem_cons, List.not_mem_nil, or_false, reduceCtorEq, false_or,
      CacheEvent.maintain.injEq] at member
    rw [member]
    decide
  · intro subquery member
    rw [List.mem_singleton.mp member]
    rfl

end Cache

end TimeSeries
