import TimeSeries.Proofs.Cache.RawAnswers

/-!
# Answers after a run

What a cache answers after a run is told from the record of the run: a series contributes to a group
if it is held, selected for the group and has an accepted point that the query reaches.  The points
of a group with one such series are the accepted points of this series that the query reaches, each
timestamp with the value that was accepted last.

Main statement: `CacheRun.ask_after`.
-/

set_option autoImplicit false

namespace TimeSeries.CacheRun

/-- The points accepted for a series that a query reaches. -/
def reached (run : CacheRun) (query : Query) (now : Timestamp) (series : Series) : List Point :=
  (run.accepted series).filter fun point =>
    query.Reaches (run.cache.settings.retention.forMetric series.metric) now point.timestamp

/-- The series is held, a subquery selects it for the group of some tags, and the query reaches one
of its points. -/
structure Contributes (run : CacheRun) (query : Query) (subquery : Subquery) (filter : TagFilter)
    (now : Timestamp) (tags : Tags) (series : Series) : Prop where
  held : run.cache.contains series = true
  metric : series.metric = subquery.metric
  accepted : filter.accepts series.tags = true
  group : filter.groupOf series.tags = tags
  reached : run.reached query now series ≠ []

/-- The groups are those to which series contribute, and a group of a single series has, at each
timestamp that the query reaches, the value that was accepted last, and nothing else. -/
structure GroupsTell (run : CacheRun) (query : Query) (subquery : Subquery) (filter : TagFilter)
    (now : Timestamp) (groups : List GroupAnswer) : Prop where
  metric : ∀ group ∈ groups, group.metric = subquery.metric
  contributed : ∀ group ∈ groups, ∃ series,
    run.Contributes query subquery filter now group.tags series
  complete : ∀ tags series, run.Contributes query subquery filter now tags series →
    ∃ group ∈ groups, group.tags = tags
  single : ∀ group ∈ groups, ∀ series,
    (∀ other, run.Contributes query subquery filter now group.tags other ↔ other = series) →
    ∀ timestamp value, group.points.get? timestamp = some value
      ↔ query.Reaches (run.cache.settings.retention.forMetric series.metric) now timestamp
        ∧ lastValue? (run.accepted series) timestamp = some value

/-- The query is answered subquery by subquery, no series is left out of the answer, and the answers
to subqueries for points as they are, in milliseconds, tell what was accepted. -/
structure AnswersTell (run : CacheRun) (query : Query) (now : Timestamp) : Prop where
  answered : (run.cache.ask query now).2
    = .ok (.concat (query.subqueries.map fun subquery =>
      run.cache.answerSubquery query subquery now))
  complete : ∀ subquery ∈ query.subqueries,
    ∀ omission ∈ (run.cache.answerSubquery query subquery now).omissions,
      ∃ cause, omission = .subquery subquery.metric cause
  raw : query.inMilliseconds = true → ∀ subquery ∈ query.subqueries,
    subquery.rate = false → subquery.downsampling = none →
      ∀ filter, subquery.tagFilter = .ok filter →
        (run.cache.answerSubquery query subquery now).omissions = []
        ∧ GroupsTell run query subquery filter now
          (run.cache.answerSubquery query subquery now).groups

variable {run : CacheRun} {settings : CacheSettings} {clocks : List Timestamp} {now : Timestamp}
  {query : Query} {subquery : Subquery} {filter : TagFilter}

theorem lastValue?_reached (series : Series) (timestamp : Timestamp) (value : Binary64) :
    lastValue? (run.reached query now series) timestamp = some value
      ↔ query.Reaches (run.cache.settings.retention.forMetric series.metric) now timestamp
        ∧ lastValue? (run.accepted series) timestamp = some value := by
  rw [reached, lastValue?_filter _ fun timestamp => decide (query.Reaches _ now timestamp)]
  split
  case isTrue within => exact ⟨fun found => ⟨of_decide_eq_true within, found⟩, And.right⟩
  case isFalse outside =>
      have none_within : ¬ query.Reaches
          (run.cache.settings.retention.forMetric series.metric) now timestamp :=
        fun within => outside (decide_eq_true within)
      simp [none_within]

/-! ## Selected series -/

theorem get?_of_mem_selected {cache : Cache} {scan : Scan} {pair : Series × HeldSeries}
    (member : pair ∈ cache.selected scan) :
    cache.held.get? pair.1 = some pair.2 ∧ scan.selects pair.1 = true := by
  obtain ⟨held, selects⟩ := List.mem_filter.mp member
  exact ⟨(SortedMap.mem_toList_iff _ _ _).mp held, selects⟩

/-- A scan makes something of every selected series. -/
theorem Sound.pointsOf (sound : run.Sound settings clocks) (scan : Scan)
    {pair : Series × HeldSeries} (member : pair ∈ run.cache.selected scan) :
    ∃ values, scan.pointsOf pair.1 pair.2 = .ok values := by
  obtain ⟨contents, holds, _⟩ := sound.logs pair.1 pair.2 (get?_of_mem_selected member).1
  exact scan.pointsOf_of_holds holds pair.1

/-- Without rates and buckets it makes of them the accepted points that the query reaches. -/
theorem Sound.pointsOf_raw (sound : run.Sound settings clocks)
    (valid : settings.retention.validate = .ok ()) (later : ∀ clock ∈ clocks, clock ≤ now)
    (raw : subquery.rate = false) {pair : Series × HeldSeries}
    (member : pair ∈ run.cache.selected ⟨subquery, filter, none,
      max query.start (run.cache.settings.retention.oldestRetained subquery.metric now),
      query.stop⟩) :
    Scan.pointsOf ⟨subquery, filter, none,
        max query.start (run.cache.settings.retention.oldestRetained subquery.metric now),
        query.stop⟩ pair.1 pair.2
      = .ok (.ofPoints (run.reached query now pair.1)) := by
  obtain ⟨found, selects⟩ := get?_of_mem_selected member
  rw [Scan.selects, Bool.and_eq_true, beq_iff_eq] at selects
  have positive := Retention.forMetric_nonneg valid pair.1.metric
  have keeps := sound.logs pair.1 pair.2 found
  rw [sound.under, Retention.oldestRetained, ← selects.1]
  obtain ⟨contents, holds, same⟩ := keeps.filter_kept later
    (max query.start (now.saturatingSub (settings.retention.forMetric pair.1.metric))) query.stop
    (Timestamp.max_le_iff.mp (Int64.le_refl _)).2
  rw [Scan.pointsOf_raw raw rfl holds, same, reached, sound.under]
  congr 2
  refine List.filter_congr fun point _ => ?_
  rw [Bool.eq_iff_iff, Point.isWithin_iff_reaches positive, decide_eq_true_eq]

/-! ## Groups -/

/-- The selected series with filtered tags and points that make them members of a group. -/
def members (run : CacheRun) (query : Query) (now : Timestamp) (scan : Scan) (tags : Tags) :
    List (Series × HeldSeries) :=
  (run.cache.selected scan).filter fun pair =>
    decide (scan.filter.groupOf pair.1.tags = tags)
      && !(TimedValues.ofPoints (run.reached query now pair.1)).isEmpty

/-- The members of a group are the series that contribute to it. -/
theorem mem_members_iff {scan : Scan} {tags : Tags} {pair : Series × HeldSeries} :
    pair ∈ run.members query now scan tags
      ↔ run.cache.held.get? pair.1 = some pair.2
        ∧ run.Contributes query scan.subquery scan.filter now tags pair.1 := by
  simp only [members, Cache.selected, List.mem_filter, Bool.and_eq_true, decide_eq_true_eq,
    Scan.selects, beq_iff_eq, TimedValues.isEmpty_ofPoints, Bool.not_eq_true',
    List.isEmpty_eq_false_iff]
  rw [SortedMap.mem_toList_iff run.cache.held pair.1 pair.2]
  constructor
  · rintro ⟨⟨found, metric, accepted⟩, group, reached⟩
    refine ⟨found, ?_, metric, accepted, group, reached⟩
    rw [Cache.contains, SortedMap.contains, found]
    rfl
  · rintro ⟨found, _, metric, accepted, group, reached⟩
    exact ⟨⟨found, metric, accepted⟩, group, reached⟩

/-- A series that alone contributes to a group is its only member. -/
theorem members_eq_singleton {scan : Scan} {tags : Tags} {series : Series}
    (only : ∀ other, run.Contributes query scan.subquery scan.filter now tags other
      ↔ other = series) :
    ∃ held, run.members query now scan tags = [(series, held)] := by
  have contributes := (only series).mpr rfl
  obtain ⟨held, found⟩ := Option.isSome_iff_exists.mp contributes.held
  refine ⟨held, ?_⟩
  have member : (series, held) ∈ run.members query now scan tags :=
    mem_members_iff.mpr ⟨found, contributes⟩
  rw [members, Cache.selected, List.filter_filter] at member ⊢
  refine SortedMap.filter_toList_eq_singleton (fun series =>
    (decide (scan.filter.groupOf series.tags = tags)
      && !(TimedValues.ofPoints (run.reached query now series)).isEmpty)
      && scan.selects series) found (List.mem_filter.mp member).2 ?_
  intro other there kept
  obtain ⟨entry, there⟩ := Option.isSome_iff_exists.mp there
  have among : (other, entry) ∈ run.members query now scan tags := by
    rw [members, Cache.selected, List.filter_filter]
    exact List.mem_filter.mpr ⟨(SortedMap.mem_toList_iff _ _ _).mpr there, kept⟩
  exact (only other).mp (mem_members_iff.mp among).2

/-- What a raw scan answers tells what was accepted. -/
theorem groupsTell_of_scan (scan : Scan)
    (made : ∀ pair ∈ run.cache.selected scan,
      scan.pointsOf pair.1 pair.2 = .ok (.ofPoints (run.reached query now pair.1))) :
    GroupsTell run query scan.subquery scan.filter now
      (scan.answer 1 (run.cache.selected scan)).groups := by
  rw [scan.answer_of_points 1 (fun series => .ofPoints (run.reached query now series)) made]
  have grouped : ∀ tags, (scan.groupMembers ((run.cache.selected scan).map fun pair =>
      (pair.1, TimedValues.ofPoints (run.reached query now pair.1)))).get? tags
        = if run.members query now scan tags = [] then none
          else some ((run.members query now scan tags).map fun pair =>
            TimedValues.ofPoints (run.reached query now pair.1)) :=
    Scan.get?_groupMembers scan (run.cache.selected scan) fun series =>
      TimedValues.ofPoints (run.reached query now series)
  refine ⟨?_, ?_, ?_, ?_⟩
  · intro group member
    obtain ⟨pair, _, rfl⟩ := List.mem_map.mp member
    rfl
  · intro group member
    obtain ⟨⟨tags, held⟩, found, rfl⟩ := List.mem_map.mp member
    rw [SortedMap.mem_toList_iff, grouped] at found
    split at found
    · cases found
    case isFalse some_members =>
        obtain ⟨pair, among⟩ := List.exists_mem_of_ne_nil _ some_members
        exact ⟨pair.1, (mem_members_iff.mp among).2⟩
  · intro tags series contributes
    obtain ⟨held, found⟩ := Option.isSome_iff_exists.mp contributes.held
    have among : (series, held) ∈ run.members query now scan tags :=
      mem_members_iff.mpr ⟨found, contributes⟩
    have group := grouped tags
    rw [if_neg (List.ne_nil_of_mem among)] at group
    exact ⟨_, List.mem_map.mpr ⟨_, (SortedMap.mem_toList_iff _ _ _).mpr group, rfl⟩, rfl⟩
  · intro group member series only timestamp value
    obtain ⟨⟨tags, held⟩, found, rfl⟩ := List.mem_map.mp member
    obtain ⟨entry, single⟩ := members_eq_singleton only
    rw [SortedMap.mem_toList_iff, grouped, single, if_neg (List.cons_ne_nil _ _)] at found
    rw [← Option.some.inj found, ← lastValue?_reached, ← TimedValues.get?_ofPoints]
    show (inUnits 1 (mergeMembers _ [TimedValues.ofPoints (run.reached query now series)])).get?
      timestamp = some value ↔ _
    rw [mergeMembers, inUnits_one]

/-! ## Answers -/

/-- Where the span of a query is past retention as a whole, nothing is reached. -/
theorem reached_of_stop_lt (sound : run.Sound settings clocks)
    (valid : settings.retention.validate = .ok ()) {series : Series}
    (past : query.stop < max query.start
      (run.cache.settings.retention.oldestRetained series.metric now)) :
    run.reached query now series = [] := by
  rw [reached, List.filter_eq_nil_iff]
  intro point _ within
  rw [decide_eq_true_eq, sound.under] at within
  rw [sound.under, Retention.oldestRetained] at past
  have positive := Retention.forMetric_nonneg valid series.metric
  have held := (Point.isWithin_iff_reaches positive point).mpr within
  rw [Point.isWithin, Bool.and_eq_true, decide_eq_true_eq, decide_eq_true_eq] at held
  exact Int64.not_le.mpr past (Int64.le_trans held.1 held.2)

/-- A subquery leaves no series out, whatever it asks for. -/
theorem Sound.omissions_answerSubquery (sound : run.Sound settings clocks) (query : Query)
    (subquery : Subquery) (now : Timestamp) :
    ∀ omission ∈ (run.cache.answerSubquery query subquery now).omissions,
      ∃ cause, omission = .subquery subquery.metric cause := by
  intro omission member
  unfold Cache.answerSubquery at member
  split at member
  case _ scan _ =>
      rw [scan.omissions_answer _ fun pair among => sound.pointsOf scan among] at member
      cases member
  · cases member
  case _ cause _ => exact ⟨cause, List.mem_singleton.mp member⟩

/-- What a subquery without buckets looks up. -/
theorem scan?_of_whole (cache : Cache) (whole : subquery.downsampling = none)
    (compiled : subquery.tagFilter = .ok filter) :
    cache.scan? query subquery now
      = if query.stop < max query.start
            (cache.settings.retention.oldestRetained subquery.metric now) then .ok none
        else .ok (some ⟨subquery, filter, none, max query.start
          (cache.settings.retention.oldestRetained subquery.metric now), query.stop⟩) := by
  rw [Cache.scan?, compiled, Subquery.parsedDownsampling, whole]
  rfl

/-- The answer to a raw subquery in milliseconds tells what was accepted. -/
theorem Sound.groupsTell (sound : run.Sound settings clocks)
    (valid : settings.retention.validate = .ok ()) (later : ∀ clock ∈ clocks, clock ≤ now)
    (exact : query.inMilliseconds = true) (raw : subquery.rate = false)
    (whole : subquery.downsampling = none) (compiled : subquery.tagFilter = .ok filter) :
    (run.cache.answerSubquery query subquery now).omissions = []
      ∧ GroupsTell run query subquery filter now
        (run.cache.answerSubquery query subquery now).groups := by
  have divisor : query.divisor = 1 := by rw [Query.divisor, if_pos exact]
  rw [Cache.answerSubquery, scan?_of_whole run.cache whole compiled, divisor]
  split_ifs with past
  · have nobody : ∀ tags series, ¬ run.Contributes query subquery filter now tags series := by
      intro tags series contributes
      rw [← contributes.metric] at past
      exact contributes.reached (reached_of_stop_lt sound valid past)
    refine ⟨rfl, by simp, by simp, ?_, by simp⟩
    intro tags series contributes
    exact absurd contributes (nobody tags series)
  · refine ⟨Scan.omissions_answer _ 1 fun pair among => sound.pointsOf _ among, ?_⟩
    exact groupsTell_of_scan _ fun pair among => sound.pointsOf_raw valid later raw among

/-- **What a cache answers after any run.**  Whatever was stored, asked and maintained, a later
query is answered, and its answer tells what was accepted: no series is left out, and where a
subquery asks for points as they are, each group of a single series has exactly the points accepted
since the series was admitted that the query reaches, the last value of each timestamp. -/
theorem ask_after {cache : Cache} (created : Cache.ofSettings settings = .ok cache)
    (events : List CacheEvent) (later : ∀ clock ∈ CacheEvent.clocks events, clock ≤ now)
    (spans : query.start ≤ query.stop) :
    AnswersTell ((start cache).after events) query now := by
  have sound := sound_after created events
  have valid := CacheSettings.validate_retention (settings_ofSettings created).1
  refine ⟨?_, fun subquery _ => sound.omissions_answerSubquery query subquery now, ?_⟩
  · have inOrder : query.validate = .ok () := by
      rw [Query.validate, if_neg (Int64.not_lt.mpr spans)]
    show Cache.answer _ query now = _
    rw [Cache.answer, inOrder]
    rfl
  · intro exact subquery _ raw whole filter compiled
    exact sound.groupsTell valid later exact raw whole compiled

/-- Two values for one timestamp, then a maintenance that archives them. -/
theorem ask_after_overwriting :
    ∃ cache, Cache.ofSettings .standard = .ok cache
      ∧ AnswersTell ((start cache).after
          [.store (.ofMetric "load") ⟨5, ⟨1⟩⟩, .store (.ofMetric "load") ⟨5, ⟨2⟩⟩, .maintain 10,
            .shutdown]) ⟨0, 100, true, [.ofMetric "load"]⟩ 20 := by
  have created : Cache.ofSettings .standard
      = .ok ⟨.standard, [], .empty, .empty, 0, ⟨0, 0, 0, 0, 0, 0⟩⟩ := rfl
  refine ⟨_, created, ask_after created _ (fun clock member => ?_) (by decide)⟩
  rw [List.mem_singleton.mp (show clock ∈ [10] from member)]
  decide

end TimeSeries.CacheRun
