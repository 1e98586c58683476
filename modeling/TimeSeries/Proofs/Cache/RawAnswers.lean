import TimeSeries.Proofs.Cache.History
import TimeSeries.Proofs.Cursor.Plain
import TimeSeries.Proofs.Entries.Strands

/-!
# What scans make of logs

A scan looks up the points of a series that its log still holds within a span.  Whatever is asked
for, it makes something of them (`Scan.pointsOf_of_holds`); without rates and buckets it makes the
points themselves, where of several points with one timestamp the last one counts
(`Scan.pointsOf_raw`).

The span of a scan starts no earlier than the oldest timestamp that is retained, so of the points
that were ever accepted the log still holds all that the query reaches
(`SeriesLog.Keeps.filter_kept`).

Main statement: `Scan.answer_of_points` gives the answer of a scan when something is made of each
selected series.
-/

set_option autoImplicit false

namespace TimeSeries

/-- The value of the last of some points with a given timestamp. -/
def lastValue? (points : List Point) (timestamp : Timestamp) : Option Binary64 :=
  (points.reverse.find? fun point => point.timestamp = timestamp).map Point.value

/-- Points by timestamp; of several with one timestamp the last counts. -/
def TimedValues.ofPoints (points : List Point) : TimedValues :=
  .ofList (points.map fun point => (point.timestamp, point.value))

theorem TimedValues.get?_ofPoints (points : List Point) (timestamp : Timestamp) :
    (ofPoints points).get? timestamp = lastValue? points timestamp := by
  rw [ofPoints, SortedMap.get?_ofList, ← List.map_reverse, lastValue?]
  induction points.reverse with
  | nil => rfl
  | cons point points ih =>
      rw [List.map_cons]
      by_cases same : point.timestamp = timestamp
      · rw [← same, SortedMap.lookup_cons_self, List.find?_cons_of_pos (by simp)]
        rfl
      · rw [SortedMap.lookup_cons_of_ne _ _ (Ne.symm same), ih,
          List.find?_cons_of_neg (by simpa using same)]

/-- Only the points with a timestamp matter to its last value. -/
theorem lastValue?_filter (points : List Point) (keep : Timestamp → Bool) (timestamp : Timestamp) :
    lastValue? (points.filter fun point => keep point.timestamp) timestamp
      = if keep timestamp then lastValue? points timestamp else none := by
  rw [← TimedValues.get?_ofPoints, ← TimedValues.get?_ofPoints, TimedValues.ofPoints,
    TimedValues.ofPoints, SortedMap.get?_ofList, SortedMap.get?_ofList, ← List.map_reverse,
    ← SortedMap.lookup_filter, ← List.filter_reverse, ← List.map_reverse, List.filter_map]
  rfl

/-- Of points in turn, those behind count first. -/
theorem lastValue?_append (front back : List Point) (timestamp : Timestamp) :
    lastValue? (front ++ back) timestamp
      = (lastValue? back timestamp).or (lastValue? front timestamp) := by
  rw [lastValue?, lastValue?, lastValue?, List.reverse_append, List.find?_append, Option.map_or]

/-- The first point counts only if no other has its timestamp. -/
theorem lastValue?_cons (first : Point) (rest : List Point) (timestamp : Timestamp) :
    lastValue? (first :: rest) timestamp
      = (lastValue? rest timestamp).or
        (if first.timestamp = timestamp then some first.value else none) := by
  rw [← List.singleton_append, lastValue?_append]
  congr 1
  by_cases here : first.timestamp = timestamp
  · rw [lastValue?, List.reverse_singleton, List.find?_cons_of_pos (by simpa using here),
      if_pos here]
    rfl
  · rw [lastValue?, List.reverse_singleton, List.find?_cons_of_neg (by simpa using here),
      if_neg here]
    rfl

/-- Points have no value at a timestamp that none of them has. -/
theorem lastValue?_eq_none_iff {points : List Point} {timestamp : Timestamp} :
    lastValue? points timestamp = none ↔ ∀ point ∈ points, point.timestamp ≠ timestamp := by
  rw [lastValue?, Option.map_eq_none_iff, List.find?_eq_none]
  simp only [List.mem_reverse, decide_eq_true_eq, ne_eq]

/-! ## The points of one series -/

namespace HeldSeries

/-- The entry of a point of a series. -/
def entryOf (series : Series) (point : Point) : Entry :=
  ⟨(Sample.mk series point).keyAt (Column.join series.tags.toList) "", point.value.toBytes⟩

theorem plain_entryOf (series : Series) (point : Point) : (entryOf series point).Plain where
  single := point.value.length_toBytes
  named := ⟨series.metric, Row.metric_ofPoint series.metric point.timestamp⟩

theorem plain_of_mem_entries {series : Series} {points : List Point} {entry : Entry}
    (member : entry ∈ points.map (entryOf series)) : entry.Plain := by
  obtain ⟨point, _, rfl⟩ := List.mem_map.mp member
  exact plain_entryOf series point

/-- The entries of a span are those of the points that the log still holds there. -/
theorem entriesWithin_of_holds {held : HeldSeries} {contents : LogContents}
    (holds : held.log.Holds contents) (series : Series) (start stop : Timestamp) :
    held.entriesWithin series start stop
      = .ok ((contents.kept.filter (Point.isWithin start stop)).map (entryOf series)) := by
  obtain ⟨found, read, same⟩ := holds.pointsWithin start stop
  rw [entriesWithin, read, ← same]
  rfl

/-- The entries of points in time order are in key order. -/
theorem sorted_entries (series : Series) {points : List Point}
    (ordered : points.Pairwise Point.NotAfter) :
    (points.map (entryOf series)).mergeSort SortedEntries.precedes
      = points.map (entryOf series) := by
  refine List.mergeSort_of_pairwise ?_
  rw [List.pairwise_map]
  refine ordered.imp fun {first second} notAfter => ?_
  let strand : Strand := ⟨series.metric, Column.join series.tags.toList, "",
    series.visibility.getD ""⟩
  show (compare (strand.key first.timestamp) (strand.key second.timestamp)).isLE = true
  rw [strand.compare_key]
  exact Std.isLE_compare.mpr notAfter

/-- Sorting them finds them as they are. -/
theorem finds_entries (series : Series) {points : List Point}
    (ordered : points.Pairwise Point.NotAfter) :
    Cursor.Finds (SortedEntries.ofList (points.map (entryOf series))) .all
      (points.map (entryOf series)) := by
  have found := SortedEntries.finds_ofList (points.map (entryOf series))
  rwa [sorted_entries series ordered] at found

theorem timedValues_entries (series : Series) (points : List Point) :
    timedValues (points.map (entryOf series)) = .ok (TimedValues.ofPoints points) := by
  have read : (points.map (entryOf series)).mapM (fun entry => do
      return (entry.key.timestamp, ← Binary64.ofBytes entry.value))
        = (.ok (points.map fun point => (point.timestamp, point.value)) :
          Except Failure (List (Timestamp × Binary64))) := by
    induction points with
    | nil => rfl
    | cons point points ih =>
        rw [List.map_cons, List.mapM_cons, ih]
        show (Binary64.ofBytes point.value.toBytes >>= _) >>= _ = _
        rw [Binary64.ofBytes_toBytes]
        rfl
  rw [timedValues, read]
  rfl

end HeldSeries

/-- Plain entries have values by timestamp. -/
theorem timedValues_of_plain {entries : List Entry} (plain : ∀ entry ∈ entries, entry.Plain) :
    ∃ values, timedValues entries = .ok values := by
  have read : ∃ pairs : List (Timestamp × Binary64), entries.mapM (fun entry => do
      return (entry.key.timestamp, ← Binary64.ofBytes entry.value)) = Except.ok pairs := by
    induction entries with
    | nil => exact ⟨[], rfl⟩
    | cons entry entries ih =>
        obtain ⟨entryPlain, restPlain⟩ := List.forall_mem_cons.mp plain
        obtain ⟨value, read⟩ := Binary64.ofBytes_of_length entryPlain.single
        obtain ⟨pairs, others⟩ := ih restPlain
        refine ⟨(entry.key.timestamp, value) :: pairs, ?_⟩
        rw [List.mapM_cons, others, read]
        rfl
  obtain ⟨pairs, read⟩ := read
  exact ⟨.ofList pairs, by rw [timedValues, read]; rfl⟩

/-! ## The points that a scan makes something of -/

namespace Scan

variable {scan : Scan} {held : HeldSeries} {contents : LogContents}

/-- A scan always makes something of a series that is held. -/
theorem pointsOf_of_holds (scan : Scan) (holds : held.log.Holds contents) (series : Series) :
    ∃ values, scan.pointsOf series held = .ok values := by
  obtain ⟨output, processed, outputPlain⟩ := scan.subquery.process_of_plain scan.downsampling
    fun _ => HeldSeries.plain_of_mem_entries
  obtain ⟨values, read⟩ := timedValues_of_plain outputPlain
  refine ⟨values, ?_⟩
  rw [pointsOf, HeldSeries.entriesWithin_of_holds holds]
  show (scan.subquery.process scan.downsampling _ >>= timedValues) = _
  rw [processed]
  exact read

/-- If the subquery makes entries of some points of the entries of a span, the scan makes these
points. -/
theorem pointsOf_of_process (holds : held.log.Holds contents) (series : Series)
    {made : List Point}
    (processed : (contents.kept.filter (Point.isWithin scan.start scan.stop)).Pairwise
        Point.NotAfter →
      scan.subquery.process scan.downsampling ((contents.kept.filter
          (Point.isWithin scan.start scan.stop)).map (HeldSeries.entryOf series))
        = .ok (made.map (HeldSeries.entryOf series))) :
    scan.pointsOf series held = .ok (.ofPoints made) := by
  rw [pointsOf, HeldSeries.entriesWithin_of_holds holds]
  show (scan.subquery.process scan.downsampling _ >>= timedValues) = _
  rw [processed (holds.ordered_kept.filter _)]
  exact HeldSeries.timedValues_entries series _

/-- Without rates and buckets these are the points that the log still holds. -/
theorem pointsOf_raw (raw : scan.subquery.rate = false) (whole : scan.downsampling = none)
    (holds : held.log.Holds contents) (series : Series) :
    scan.pointsOf series held
      = .ok (.ofPoints (contents.kept.filter (Point.isWithin scan.start scan.stop))) := by
  refine pointsOf_of_process holds series fun ordered => ?_
  rw [whole, Subquery.process_raw raw, HeldSeries.sorted_entries series ordered]

end Scan

/-! ## The reach of a query -/

/-- The query reaches a timestamp: it lies in the span of the query, and not before the given time
less the retention. -/
def Query.Reaches (query : Query) (retention now timestamp : Timestamp) : Prop :=
  query.start ≤ timestamp ∧ now.toInt - retention.toInt ≤ timestamp.toInt
    ∧ timestamp ≤ query.stop

instance (query : Query) (retention now timestamp : Timestamp) :
    Decidable (query.Reaches retention now timestamp) :=
  inferInstanceAs (Decidable (_ ∧ _ ∧ _))

namespace Timestamp

theorem toInt_saturatingSub (left right : Timestamp) :
    (left.saturatingSub right).toInt
      = max earliest.toInt (min latest.toInt (left.toInt - right.toInt)) :=
  toInt_clamp _

/-- What is past retention at some time is so at every later time. -/
theorem saturatingSub_le {clock now : Timestamp} (later : clock ≤ now) (retention : Timestamp) :
    clock.saturatingSub retention ≤ now.saturatingSub retention := by
  rw [Int64.le_iff_toInt_le] at later
  rw [Int64.le_iff_toInt_le, toInt_saturatingSub, toInt_saturatingSub]
  omega

/-- Of lengths of time that are not negative, staying at the end of the range excludes nothing. -/
theorem saturatingSub_le_iff {now retention timestamp : Timestamp} (positive : 0 ≤ retention) :
    now.saturatingSub retention ≤ timestamp ↔ now.toInt - retention.toInt ≤ timestamp.toInt := by
  have low := timestamp.le_toInt
  have high := now.toInt_lt
  have zero : (0 : Timestamp).toInt = 0 := rfl
  have least : earliest.toInt = -2 ^ 63 := by decide
  have greatest : latest.toInt = 2 ^ 63 - 1 := by decide
  rw [Int64.le_iff_toInt_le, zero] at positive
  rw [Int64.le_iff_toInt_le, toInt_saturatingSub, least, greatest]
  omega

theorem max_le_iff {first second timestamp : Timestamp} :
    max first second ≤ timestamp ↔ first ≤ timestamp ∧ second ≤ timestamp := by
  show (if first ≤ second then second else first) ≤ timestamp ↔ _
  split
  case isTrue below => exact ⟨fun above => ⟨Int64.le_trans below above, above⟩, And.right⟩
  case isFalse above =>
      exact ⟨fun below => ⟨below, Int64.le_trans (Int64.le_of_lt (Int64.not_le.mp above)) below⟩,
        And.left⟩

end Timestamp

/-- The points of the widest span that a raw subquery looks up are those that it reaches. -/
theorem Point.isWithin_iff_reaches {query : Query} {retention now : Timestamp}
    (positive : 0 ≤ retention) (point : Point) :
    point.isWithin (max query.start (now.saturatingSub retention)) query.stop = true
      ↔ query.Reaches retention now point.timestamp := by
  rw [Point.isWithin, Bool.and_eq_true, decide_eq_true_eq, decide_eq_true_eq,
    Timestamp.max_le_iff, Timestamp.saturatingSub_le_iff positive, Query.Reaches, and_assoc]

/-- Valid settings have no negative retention. -/
theorem Retention.forMetric_nonneg {retention : Retention} (valid : retention.validate = .ok ())
    (metric : String) : 0 ≤ retention.forMetric metric := by
  unfold Retention.validate at valid
  split at valid
  · cases valid
  case isFalse standard =>
      split at valid
      · cases valid
      case _ overrides =>
        unfold Retention.forMetric
        cases found : retention.overrides.get? metric with
        | none => exact Int64.not_lt.mp standard
        | some override =>
            have member := (SortedMap.mem_toList_iff _ _ _).mpr found
            have notNegative := List.find?_eq_none.mp overrides _ member
            rw [decide_eq_true_eq] at notNegative
            exact Int64.not_lt.mp notNegative

theorem CacheSettings.validate_retention {settings : CacheSettings}
    (valid : settings.validate = .ok ()) : settings.retention.validate = .ok () := by
  unfold CacheSettings.validate at valid
  cases retention : settings.retention.validate with
  | error failure => rw [retention] at valid; cases valid
  | ok _ => rfl

/-- Of the points accepted, a log still holds all that a later query reaches. -/
theorem SeriesLog.Keeps.filter_kept {log : SeriesLog} {accepted : List Point}
    {retention now : Timestamp} {clocks : List Timestamp}
    (keeps : log.Keeps accepted retention clocks) (later : ∀ clock ∈ clocks, clock ≤ now)
    (start stop : Timestamp) (reach : now.saturatingSub retention ≤ start) :
    ∃ contents, log.Holds contents
      ∧ contents.kept.filter (Point.isWithin start stop)
        = accepted.filter (Point.isWithin start stop) := by
  obtain ⟨contents, holds, rfl, dropped⟩ := keeps
  refine ⟨contents, holds, ?_⟩
  have past : contents.dropped.filter (Point.isWithin start stop) = [] := by
    rw [List.filter_eq_nil_iff]
    intro point member within
    obtain ⟨clock, known, before⟩ := dropped point member
    rw [Point.isWithin, Bool.and_eq_true, decide_eq_true_eq] at within
    have cutoff := Timestamp.saturatingSub_le (later clock known) retention
    exact Int64.not_le.mpr before (Int64.le_trans cutoff (Int64.le_trans reach within.1))
  rw [LogContents.taken, List.filter_append, past, List.nil_append]

/-! ## Groups -/

theorem TimedValues.isEmpty_ofPoints (points : List Point) :
    (ofPoints points).isEmpty = points.isEmpty := by
  cases points with
  | nil => rfl
  | cons point points =>
      cases nothing : (ofPoints (point :: points)).isEmpty with
      | false => rfl
      | true =>
          have absent : (ofPoints (point :: points)).get? point.timestamp = none := by
            rw [SortedMap.get?, List.isEmpty_iff.mp nothing]
            rfl
          rw [get?_ofPoints, lastValue?_eq_none_iff] at absent
          exact absurd rfl (absent point List.mem_cons_self)

/-- In milliseconds the timestamps of an answer are those of the points. -/
theorem inUnits_one (points : TimedValues) : inUnits 1 points = points := by
  have same : points.toList.map (fun pair => (Timestamp.quotient pair.1 1, pair.2))
      = points.toList := by
    refine (List.map_congr_left fun pair _ => ?_).trans (List.map_id _)
    have whole : Timestamp.quotient pair.1 1 = pair.1 := by
      rw [Timestamp.quotient, show (1 : Timestamp).toInt = 1 from rfl, Int.ediv_one,
        Int64.ofInt_toInt]
    rw [whole]
    rfl
  show SortedMap.ofList (points.toList.map fun pair => (Timestamp.quotient pair.1 1, pair.2)) = _
  rw [same, SortedMap.ofList_toList]

namespace Scan

/-- The members of a group are the series with points whose filtered tags are those of the group. -/
theorem get?_groupMembers (scan : Scan) (selected : List (Series × HeldSeries))
    (points : Series → TimedValues) (tags : Tags) :
    (scan.groupMembers (selected.map fun pair => (pair.1, points pair.1))).get? tags
      = if (selected.filter fun pair => decide (scan.filter.groupOf pair.1.tags = tags)
            && !(points pair.1).isEmpty) = [] then none
        else some ((selected.filter fun pair => decide (scan.filter.groupOf pair.1.tags = tags)
            && !(points pair.1).isEmpty).map fun pair => points pair.1) := by
  have grouped := SortedMap.get?_foldl_alter_empty
    (fun pair : Series × TimedValues => scan.filter.groupOf pair.1.tags) Prod.snd
    ((selected.map fun pair => (pair.1, points pair.1)).filter fun pair => !pair.2.isEmpty) tags
  have members : (((selected.map fun pair => (pair.1, points pair.1)).filter
        fun pair => !pair.2.isEmpty).filter
          fun pair => decide (scan.filter.groupOf pair.1.tags = tags))
      = (selected.filter fun pair => decide (scan.filter.groupOf pair.1.tags = tags)
          && !(points pair.1).isEmpty).map fun pair => (pair.1, points pair.1) := by
    rw [List.filter_filter, List.filter_map]
    rfl
  rw [members, List.map_map] at grouped
  simp only [List.map_eq_nil_iff] at grouped
  exact grouped

/-- What a scan answers when something is made of each selected series. -/
theorem answer_of_points (scan : Scan) (divisor : Timestamp) (points : Series → TimedValues)
    {selected : List (Series × HeldSeries)}
    (made : ∀ pair ∈ selected, scan.pointsOf pair.1 pair.2 = .ok (points pair.1)) :
    scan.answer divisor selected
      = ⟨(scan.groupMembers (selected.map fun pair => (pair.1, points pair.1))).toList.map
          fun group => ⟨scan.subquery.metric, group.1,
            inUnits divisor (mergeMembers scan.subquery.aggregator group.2)⟩, []⟩ := by
  have found : (selected.map fun pair => (pair.1, scan.pointsOf pair.1 pair.2))
      = selected.map fun pair => (pair.1, Except.ok (points pair.1)) :=
    List.map_congr_left fun pair member => by rw [made pair member]
  show (⟨(scan.groupMembers ((selected.map fun pair =>
      (pair.1, scan.pointsOf pair.1 pair.2)).filterMap _)).toList.map _,
      (selected.map fun pair => (pair.1, scan.pointsOf pair.1 pair.2)).filterMap _⟩ : Answer) = _
  rw [found, List.filterMap_map, List.filterMap_map]
  congr 1
  · congr 3
    exact congrFun List.filterMap_eq_map selected
  · exact List.filterMap_eq_nil_iff.mpr fun _ _ => rfl

/-- A scan of series with something made of each leaves none out. -/
theorem omissions_answer (scan : Scan) (divisor : Timestamp)
    {selected : List (Series × HeldSeries)}
    (made : ∀ pair ∈ selected, ∃ values, scan.pointsOf pair.1 pair.2 = .ok values) :
    (scan.answer divisor selected).omissions = [] := by
  show (selected.map fun pair => (pair.1, scan.pointsOf pair.1 pair.2)).filterMap _ = []
  rw [List.filterMap_map, List.filterMap_eq_nil_iff]
  intro pair member
  obtain ⟨values, read⟩ := made pair member
  simp only [Function.comp_apply, read]

end Scan

/-! ## Whole queries -/

theorem Query.validate_of_le {query : Query} (spans : query.start ≤ query.stop) :
    query.validate = .ok () := by
  rw [validate, if_neg (Int64.not_lt.mpr spans)]

/-- A query whose span does not end before it starts is answered subquery by subquery. -/
theorem Cache.ask_eq (cache : Cache) {query : Query} {now : Timestamp}
    (spans : query.start ≤ query.stop) :
    (cache.ask query now).2
      = .ok (.concat (query.subqueries.map fun subquery =>
        cache.answerSubquery query subquery now)) := by
  show cache.answer query now = _
  rw [answer, Query.validate_of_le spans]
  rfl

end TimeSeries
