import TimeSeries.Proofs.Cache.Contributors
import TimeSeries.Proofs.Rates.Values

/-!
# Answers with rates

A subquery without buckets asks for the values of series or for their rates.  Either way it looks up
the same points of the same series, so where one series contributes to a group alone, the rates of
the group can be told from its values: each value but the first has the rate from its neighbour
(`RateOptions.RateAt`).

Values do not tell everything, because rates go over all points that were stored.  Where several of
them share a timestamp, the values show the last one and the rate is zero, even at the first
timestamp of all (`not_rates_of_neighbours`).

Main statement: `Cache.answersRates_afterAll`.
-/

set_option autoImplicit false

namespace TimeSeries

/-- The subquery, asking for values as they are. -/
def Subquery.ofValues (subquery : Subquery) : Subquery :=
  { subquery with rate := false, downsampling := none }

/-- The subquery, asking for rates alone. -/
def Subquery.ofRates (subquery : Subquery) : Subquery :=
  { subquery with rate := true, downsampling := none }

/-- The query, asking nothing but one subquery. -/
def Query.asking (query : Query) (subquery : Subquery) : Query :=
  { query with subqueries := [subquery] }

/-! ## Scans without buckets -/

namespace Scan

variable {scan : Scan}

theorem makes_values (raw : scan.subquery.rate = false) (whole : scan.downsampling = none) :
    scan.Makes id where
  nothing := rfl
  made holds series := pointsOf_raw raw whole holds series

theorem makes_rates (rated : scan.subquery.rate = true) (whole : scan.downsampling = none) :
    scan.Makes scan.subquery.rateOptions.ratesOf where
  nothing := rfl
  made holds series := pointsOf_rates rated whole holds series

end Scan

namespace Cache

variable {cache : Cache} {query : Query} {subquery : Subquery} {filter : TagFilter}
  {now : Timestamp}

/-- What a subquery without buckets looks up. -/
def wholeScan (cache : Cache) (query : Query) (subquery : Subquery) (filter : TagFilter)
    (now : Timestamp) : Scan :=
  ⟨subquery, filter, none, cache.firstAsked query subquery now, query.stop⟩

theorem scan?_whole (compiled : subquery.tagFilter = .ok filter)
    (whole : subquery.downsampling = none) :
    cache.scan? query subquery now
      = if query.stop < cache.firstAsked query subquery now then .ok none
        else .ok (some (cache.wholeScan query subquery filter now)) := by
  have parsed : subquery.parsedDownsampling = .ok none := by
    rw [Subquery.parsedDownsampling, whole]
    rfl
  exact scan?_eq compiled parsed

/-- A valid query that asks one subquery is answered as this subquery is. -/
theorem ask_asking (cache : Cache) (query : Query) (subquery : Subquery) (now : Timestamp) :
    (cache.ask (query.asking subquery) now).2
      = query.validate.map fun _ => cache.answerSubquery query subquery now := by
  show (query.validate >>= fun _ => Except.ok (Answer.concat
    [cache.answerSubquery (query.asking subquery) subquery now])) = _
  rw [Answer.concat, List.flatMap_singleton, List.flatMap_singleton]
  cases query.validate <;> rfl

/-! ## Rates and values of one series -/

/-- The query is answered for values and for rates, and where one series contributes to a group of
values alone, the rates of the group are told from these values.  A group has rates if it has two
values, or if several of the points looked up share a timestamp. -/
structure AnswersRates (cache : Cache) (query : Query) (subquery : Subquery) (now : Timestamp) :
    Prop where
  answered : ∀ asked ∈ [subquery.ofValues, subquery.ofRates],
    (cache.ask (query.asking asked) now).2
      = query.validate.map fun _ => cache.answerSubquery query asked now
  shown : ∀ filter, subquery.tagFilter = .ok filter →
    ∀ values ∈ (cache.answerSubquery query subquery.ofValues now).groups, ∀ series,
      let scan := cache.wholeScan query subquery.ofValues filter now
      cache.contributors scan values.tags = [series] →
        ((∃ rates ∈ (cache.answerSubquery query subquery.ofRates now).groups,
            rates.tags = values.tags)
          ↔ 2 ≤ values.points.size
            ∨ ∃ timestamp, SharedAt (cache.lookedUp scan series) timestamp)
  single : ∀ filter, subquery.tagFilter = .ok filter →
    ∀ values ∈ (cache.answerSubquery query subquery.ofValues now).groups, ∀ series,
      let scan := cache.wholeScan query subquery.ofValues filter now
      cache.contributors scan values.tags = [series] →
        ∀ rates ∈ (cache.answerSubquery query subquery.ofRates now).groups,
          rates.tags = values.tags →
            rates.metric = values.metric ∧ ∀ timestamp rate,
              rates.points.get? timestamp = some rate
                ↔ subquery.rateOptions.RateAt (cache.lookedUp scan series) values.points
                  timestamp rate

section Groups

variable {series : Series}

/-- A group of values to which one series contributes has the values of the points looked up. -/
theorem Legible.points_of_values (legible : cache.Legible) (exact : query.inMilliseconds = true)
    (compiled : subquery.tagFilter = .ok filter) {values : GroupAnswer}
    (member : values ∈ (cache.answerSubquery query subquery.ofValues now).groups)
    (single : cache.contributors (cache.wholeScan query subquery.ofValues filter now) values.tags
      = [series]) :
    cache.firstAsked query subquery now ≤ query.stop ∧ values.metric = subquery.metric
      ∧ values.points = .ofPoints
          (cache.lookedUp (cache.wholeScan query subquery.ofValues filter now) series) := by
  have makes : (cache.wholeScan query subquery.ofValues filter now).Makes id :=
    Scan.makes_values rfl rfl
  obtain ⟨asked, _, metric, points⟩ := (legible.mem_groups_iff_of_makes exact
    (scan?_whole (show subquery.ofValues.tagFilter = .ok filter from compiled) rfl) makes).mp member
  have all := remaining_eq_contributors cache (cache.wholeScan query subquery.ofValues filter now)
    (show ∀ points : List Point, (id points).isEmpty = points.isEmpty from fun _ => rfl) values.tags
  rw [all, single] at points
  exact ⟨asked, metric, points⟩

/-- The one contributor to a group has rates if something is left of its points. -/
theorem Legible.mem_rates_iff (legible : cache.Legible) (exact : query.inMilliseconds = true)
    (compiled : subquery.tagFilter = .ok filter) {rates : GroupAnswer}
    (single : cache.contributors (cache.wholeScan query subquery.ofValues filter now) rates.tags
      = [series]) :
    let points := cache.lookedUp (cache.wholeScan query subquery.ofValues filter now) series
    rates ∈ (cache.answerSubquery query subquery.ofRates now).groups
      ↔ cache.firstAsked query subquery now ≤ query.stop
        ∧ subquery.rateOptions.ratesOf points ≠ [] ∧ rates.metric = subquery.metric
        ∧ rates.points = .ofPoints (subquery.rateOptions.ratesOf points) := by
  intro points
  let scan := cache.wholeScan query subquery.ofRates filter now
  have makes : scan.Makes subquery.rateOptions.ratesOf := Scan.makes_rates rfl rfl
  have left : cache.remaining scan subquery.rateOptions.ratesOf rates.tags
      = if subquery.rateOptions.ratesOf points = [] then [] else [series] := by
    have alone : cache.contributors scan rates.tags = [series] := single
    rw [remaining, alone, List.filter_singleton]
    show (bif !(subquery.rateOptions.ratesOf points).isEmpty then [series] else []) = _
    cases subquery.rateOptions.ratesOf points <;> rfl
  rw [legible.mem_groups_iff_of_makes exact
    (scan?_whole (show subquery.ofRates.tagFilter = .ok filter from compiled) rfl) makes]
  refine and_congr Iff.rfl ?_
  rw [left]
  by_cases nothing : subquery.rateOptions.ratesOf points = []
  · simp [nothing]
  · rw [if_neg nothing]
    exact and_congr (iff_of_true (List.cons_ne_nil _ _) nothing) Iff.rfl

end Groups

theorem Legible.answersRates (legible : cache.Legible) (exact : query.inMilliseconds = true) :
    cache.AnswersRates query subquery now := by
  refine ⟨fun asked _ => ask_asking cache query asked now, ?_, ?_⟩
  case refine_1 =>
    intro filter compiled values member series scan single
    obtain ⟨asked, _, points⟩ := legible.points_of_values exact compiled member single
    have ordered : (cache.lookedUp scan series).Pairwise Point.NotAfter :=
      (legible.ordered series).filter _
    rw [points, ← subquery.rateOptions.ratesOf_ne_nil_iff ordered]
    constructor
    · rintro ⟨rates, rated, tags⟩
      exact ((legible.mem_rates_iff exact compiled (tags ▸ single)).mp rated).2.1
    · intro some_rates
      let rates : GroupAnswer := ⟨subquery.metric, values.tags,
        .ofPoints (subquery.rateOptions.ratesOf (cache.lookedUp scan series))⟩
      have alone : cache.contributors scan rates.tags = [series] := single
      exact ⟨rates, (legible.mem_rates_iff exact compiled alone).mpr
        ⟨asked, some_rates, rfl, rfl⟩, rfl⟩
  case refine_2 =>
    intro filter compiled values member series scan single rates rated tags
    obtain ⟨_, metric, points⟩ := legible.points_of_values exact compiled member single
    obtain ⟨_, _, sameMetric, found⟩ :=
      (legible.mem_rates_iff exact compiled (tags ▸ single)).mp rated
    have ordered : (cache.lookedUp scan series).Pairwise Point.NotAfter :=
      (legible.ordered series).filter _
    refine ⟨sameMetric.trans metric.symm, fun timestamp rate => ?_⟩
    rw [found, points]
    exact subquery.rateOptions.get?_ratesOf_iff ordered timestamp rate

/-- **Rates are told from values**, in whatever state a cache is: where one series contributes to a
group, each value has the rate from its neighbour, unless several points share its timestamp and
the rate is zero. -/
theorem answersRates_afterAll {settings : CacheSettings}
    (created : Cache.ofSettings settings = .ok cache) (events : List CacheEvent)
    (exact : query.inMilliseconds = true) :
    (cache.afterAll events).AnswersRates query subquery now :=
  (legible_afterAll created events).answersRates exact

/-- Of four points two share a timestamp in the middle. -/
theorem answersRates_afterAll_of_shared :
    let load := Subquery.ofMetric "load"
    let query : Query := ⟨0, 5000, true, []⟩
    ∃ cache, Cache.ofSettings .standard = .ok cache
      ∧ let later := cache.afterAll [.store (.ofMetric "load") ⟨1000, ⟨1⟩⟩,
          .store (.ofMetric "load") ⟨2000, ⟨2⟩⟩, .store (.ofMetric "load") ⟨2000, ⟨4⟩⟩,
          .store (.ofMetric "load") ⟨3000, ⟨5⟩⟩]
        later.contributors (later.wholeScan query load.ofValues ⟨[]⟩ 5000) .empty
            = [.ofMetric "load"]
          ∧ SharedAt (later.lookedUp (later.wholeScan query load.ofValues ⟨[]⟩ 5000)
            (.ofMetric "load")) 2000
          ∧ later.AnswersRates query load 5000 := by
  intro load query
  have created : Cache.ofSettings .standard
      = .ok ⟨.standard, [], .empty, .empty, 0, ⟨0, 0, 0, 0, 0, 0⟩⟩ := rfl
  exact ⟨_, created, by decide +kernel, by decide +kernel, answersRates_afterAll created _ rfl⟩

/-- Values alone do not tell rates: of two points at one timestamp there is one value, without a
neighbour, and yet a rate. -/
theorem not_rates_of_neighbours :
    let load := Subquery.ofMetric "load"
    let query : Query := ⟨0, 2000, true, []⟩
    ∃ cache, Cache.ofSettings .standard = .ok cache
      ∧ let later := cache.afterAll [.store (.ofMetric "load") ⟨1000, ⟨1⟩⟩,
          .store (.ofMetric "load") ⟨1000, ⟨2⟩⟩]
        ¬ ∀ values ∈ (later.answerSubquery query load.ofValues 2000).groups, ∀ series,
          later.contributors (later.wholeScan query load.ofValues ⟨[]⟩ 2000) values.tags
              = [series] →
            ((∃ rates ∈ (later.answerSubquery query load.ofRates 2000).groups,
                rates.tags = values.tags) ↔ 2 ≤ values.points.size)
              ∧ ∀ rates ∈ (later.answerSubquery query load.ofRates 2000).groups,
                rates.tags = values.tags → ∀ timestamp rate,
                  rates.points.get? timestamp = some rate
                    ↔ load.rateOptions.FromNeighbour values.points timestamp rate := by
  intro load query
  let cache : Cache := ⟨.standard, [], .empty, .empty, 0, ⟨0, 0, 0, 0, 0, 0⟩⟩
  have created : Cache.ofSettings .standard = .ok cache := rfl
  refine ⟨cache, created, ?_⟩
  intro later claimed
  let scan := later.wholeScan query load.ofValues ⟨[]⟩ 2000
  have legible : later.Legible := legible_afterAll created _
  have compiled : load.tagFilter = .ok ⟨[]⟩ := rfl
  have asked : later.firstAsked query load.ofValues 2000 ≤ query.stop := by decide +kernel
  have single : later.contributors scan .empty = [.ofMetric "load"] := by decide +kernel
  have looked : later.lookedUp scan (.ofMetric "load") = [⟨1000, ⟨1⟩⟩, ⟨1000, ⟨2⟩⟩] := by
    decide +kernel
  have left : later.remaining scan id .empty ≠ [] := by
    rw [remaining_eq_contributors later scan
      (show ∀ points : List Point, (id points).isEmpty = points.isEmpty from fun _ => rfl), single]
    exact List.cons_ne_nil _ _
  obtain ⟨values, member, tags⟩ := legible.exists_group_of_makes rfl
    (scan?_whole (show load.ofValues.tagFilter = .ok ⟨[]⟩ from compiled) rfl)
    (Scan.makes_values rfl rfl) asked left
  rw [← tags] at single
  have answers : later.AnswersRates query load 2000 := legible.answersRates rfl
  have shared : SharedAt (later.lookedUp scan (.ofMetric "load")) 1000 := by rw [looked]; decide
  have rated := (answers.shown _ compiled values member _ single).mpr (Or.inr ⟨1000, shared⟩)
  have several := ((claimed values member _ single).1).mp rated
  obtain ⟨_, _, points⟩ := legible.points_of_values rfl compiled member single
  rw [points, looked] at several
  exact absurd several (by decide)

end Cache

end TimeSeries
