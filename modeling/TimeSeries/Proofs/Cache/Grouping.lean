import TimeSeries.Proofs.Cache.Contributors
import TimeSeries.Proofs.Patterns.Filters

/-!
# Groups partition the series

A tag filter that was compiled accepts the tags that have a matching value for each key of a
pattern, and groups them by these keys (`TagFilter.accepts_iff`, `TagFilter.groupOf_eq`).

The held series of a metric whose tags match and of which a subquery makes some points contribute to
its answer.  The groups of the answer are in the order of their tags, no two with the same, and each
has exactly the keys of the patterns.  Every series that contributes is a member of one group, that
of its own tags with these keys, and nothing else goes into the points of a group than what is made
of its members, in their order.

Main statement: `Cache.Legible.partitions`.
-/

set_option autoImplicit false

namespace TimeSeries

/-! ## Tag filters -/

namespace Subquery

/-- For each key of a pattern the tags have a value that has the pattern as a whole. -/
def Matches (subquery : Subquery) (tags : Tags) : Prop :=
  ∀ key text, subquery.patterns.get? key = some text →
    ∃ pattern value, Pattern.ofWhole? text = some pattern ∧ tags.get? key = some value
      ∧ pattern.isFoundIn value = true

/-- The tags whose keys have a pattern. -/
def restrict (subquery : Subquery) (tags : Tags) : Tags :=
  tags.filter fun key _ => subquery.patterns.contains key

/-- Matching tags are restricted to the keys of the patterns, all of them. -/
theorem keys_restrict {subquery : Subquery} {tags : Tags} (matching : subquery.Matches tags) :
    (subquery.restrict tags).keys = subquery.patterns.keys := by
  refine SortedMap.keys_eq_of_contains fun key => ?_
  rw [SortedMap.contains, restrict, SortedMap.get?_filter, Bool.eq_iff_iff]
  cases asked : subquery.patterns.get? key with
  | none => simp [SortedMap.contains, asked]
  | some text =>
      obtain ⟨_, value, _, found, _⟩ := matching key text asked
      simp [SortedMap.contains, asked, found]

end Subquery

namespace TagFilter

variable {subquery : Subquery} {filter : TagFilter} {tags : Tags}

/-- A compiled filter accepts the tags that match. -/
theorem accepts_iff (compiled : subquery.tagFilter = .ok filter) :
    filter.accepts tags = true ↔ subquery.Matches tags :=
  accepts_iff_of_compile compiled

/-- It groups tags by the keys of the patterns. -/
theorem groupOf_eq (compiled : subquery.tagFilter = .ok filter) :
    filter.groupOf tags = subquery.restrict tags := by
  have keys : ∀ key, (filter.patterns.any fun pattern => pattern.1 == key)
      = subquery.patterns.contains key := by
    intro key
    rw [Bool.eq_iff_iff, List.any_eq_true, SortedMap.contains, Option.isSome_iff_exists]
    constructor
    · rintro ⟨⟨named, pattern⟩, member, same⟩
      obtain ⟨text, asked, _⟩ := (mem_patterns_iff compiled).mp member
      exact ⟨text, beq_iff_eq.mp same ▸ asked⟩
    · rintro ⟨text, asked⟩
      obtain ⟨pattern, member⟩ := exists_mem_patterns compiled asked
      exact ⟨_, member, beq_self_eq_true key⟩
  rw [groupOf, Subquery.restrict]
  simp only [keys]

end TagFilter

namespace Cache

/-! ## Contributing series -/

/-- What a subquery makes of the points of a series; nothing if there is no span to look up. -/
def outputOf (cache : Cache) (query : Query) (subquery : Subquery) (now : Timestamp)
    (series : Series) : TimedValues :=
  match cache.scan? query subquery now with
  | .ok (some scan) => pointsBy scan cache.pointsHeld series
  | _ => .empty

/-- The series is held, is one of the metric, has matching tags, and some points are made of its
own. -/
structure Contributes (cache : Cache) (query : Query) (subquery : Subquery) (now : Timestamp)
    (series : Series) : Prop where
  held : cache.held.contains series = true
  metric : series.metric = subquery.metric
  tags : subquery.Matches series.tags
  output : (cache.outputOf query subquery now series).isEmpty = false

/-- The groups partition the series that contribute to the answer to a subquery. -/
structure Partitions (cache : Cache) (query : Query) (subquery : Subquery) (now : Timestamp)
    (groups : List GroupAnswer) : Prop where
  ordered : groups.Pairwise fun first second => compare first.tags second.tags = .lt
  keys : ∀ group ∈ groups, group.metric = subquery.metric
    ∧ group.tags.keys = subquery.patterns.keys
  /-- A group is made of its members, the contributing series with its tags, in order. -/
  members : ∀ group ∈ groups, ∃ members : List Series, members ≠ []
    ∧ (members.Pairwise fun first second => compare first second = .lt)
    ∧ (∀ series, series ∈ members ↔ cache.Contributes query subquery now series
      ∧ subquery.restrict series.tags = group.tags)
    ∧ group.points = inUnits query.divisor (mergeMembers subquery.aggregator
      (members.map (cache.outputOf query subquery now)))
  /-- No contributing series is without a group, and none has two. -/
  unique : ∀ series, cache.Contributes query subquery now series →
    ∃! group, group ∈ groups ∧ group.tags = subquery.restrict series.tags

variable {cache : Cache} {query : Query} {subquery : Subquery} {now : Timestamp} {scan : Scan}

/-! ## Groups -/

/-- The groups of a scan are in the order of their tags. -/
theorem ordered_groups (scan : Scan) (divisor : Timestamp)
    (selected : List (Series × HeldSeries)) :
    (scan.answer divisor selected).groups.Pairwise fun first second =>
      compare first.tags second.tags = .lt := by
  rw [Scan.groups_answer, List.pairwise_map]
  exact (scan.groupMembers _).ascending

/-- A scan of a subquery whose filter is compiled selects the series of its metric with matching
tags. -/
theorem selects_iff {filter : TagFilter} (compiled : subquery.tagFilter = .ok filter)
    {downsampling : Option Downsampling} {start stop : Timestamp} {series : Series} :
    (Scan.mk subquery filter downsampling start stop).selects series = true
      ↔ series.metric = subquery.metric ∧ subquery.Matches series.tags := by
  rw [Scan.selects, Bool.and_eq_true, beq_iff_eq, TagFilter.accepts_iff compiled]

theorem outputOf_of_scan (scanned : cache.scan? query subquery now = .ok (some scan)) :
    cache.outputOf query subquery now = pointsBy scan cache.pointsHeld := by
  funext series
  rw [outputOf, scanned]

/-- The series that provide the points of a group are those with its tags that contribute. -/
theorem mem_providers_iff {filter : TagFilter} (compiled : subquery.tagFilter = .ok filter)
    (scanned : cache.scan? query subquery now = .ok (some scan)) {series : Series} {tags : Tags} :
    series ∈ cache.providers scan tags
      ↔ cache.Contributes query subquery now series ∧ subquery.restrict series.tags = tags := by
  rw [providers, List.mem_filter, Bool.and_eq_true, Bool.and_eq_true, decide_eq_true_eq,
    Bool.not_eq_true', SortedMap.mem_keys_iff, ← outputOf_of_scan scanned]
  obtain ⟨other, downsampling, same, _, _, rfl⟩ := eq_of_scan? scanned
  cases compiled.symm.trans same
  rw [selects_iff compiled, TagFilter.groupOf_eq compiled]
  constructor
  · rintro ⟨held, ⟨metric, tags⟩, same, output⟩
    exact ⟨⟨held, metric, tags, output⟩, same⟩
  · rintro ⟨⟨held, metric, tags, output⟩, same⟩
    exact ⟨held, ⟨metric, tags⟩, same, output⟩

/-- The groups of a scan are those of the series that provide their points. -/
theorem Legible.mem_groups_iff_providers (legible : cache.Legible)
    (scanned : cache.scan? query subquery now = .ok (some scan)) {group : GroupAnswer} :
    group ∈ (scan.answer query.divisor (cache.selected scan)).groups
      ↔ cache.providers scan group.tags ≠ [] ∧ group.metric = subquery.metric
        ∧ group.points = inUnits query.divisor (mergeMembers subquery.aggregator
          ((cache.providers scan group.tags).map (cache.outputOf query subquery now))) := by
  rw [outputOf_of_scan scanned]
  obtain ⟨_, _, _, _, _, rfl⟩ := eq_of_scan? scanned
  rw [Scan.mem_groups_iff, legible.membersOf, List.map_map, Ne, List.map_eq_nil_iff]
  rfl

/-- The groups of a scan partition the series that contribute. -/
theorem Legible.partitions_of_scan (legible : cache.Legible) {filter : TagFilter}
    (compiled : subquery.tagFilter = .ok filter)
    (scanned : cache.scan? query subquery now = .ok (some scan)) :
    cache.Partitions query subquery now
      (scan.answer query.divisor (cache.selected scan)).groups where
  ordered := ordered_groups scan _ _
  keys := by
    intro group member
    obtain ⟨filled, metric, _⟩ := (legible.mem_groups_iff_providers scanned).mp member
    obtain ⟨series, among⟩ := List.exists_mem_of_ne_nil _ filled
    obtain ⟨contributes, same⟩ := (mem_providers_iff compiled scanned).mp among
    exact ⟨metric, same ▸ Subquery.keys_restrict contributes.tags⟩
  members := by
    intro group member
    obtain ⟨filled, _, points⟩ := (legible.mem_groups_iff_providers scanned).mp member
    have ascending : cache.held.keys.Pairwise fun first second => compare first second = .lt :=
      List.pairwise_map.mpr cache.held.ascending
    exact ⟨cache.providers scan group.tags, filled, ascending.filter _,
      fun series => mem_providers_iff compiled scanned, points⟩
  unique := by
    intro series contributes
    have provides := (mem_providers_iff compiled scanned).mpr
      ⟨contributes, (rfl : subquery.restrict series.tags = _)⟩
    let points := inUnits query.divisor (mergeMembers subquery.aggregator
      ((cache.providers scan (subquery.restrict series.tags)).map
        (cache.outputOf query subquery now)))
    refine ⟨⟨subquery.metric, subquery.restrict series.tags, points⟩,
      ⟨(legible.mem_groups_iff_providers scanned).mpr ⟨List.ne_nil_of_mem provides, rfl, rfl⟩,
        rfl⟩, ?_⟩
    rintro ⟨metric, _, points⟩ ⟨member, rfl⟩
    obtain ⟨_, rfl, same⟩ := (legible.mem_groups_iff_providers scanned).mp member
    exact congrArg (GroupAnswer.mk subquery.metric _) same

/-- **Groups partition the series.**  A subquery that can be read has an answer without omissions,
whose groups partition the series that contribute. -/
theorem Legible.partitions (legible : cache.Legible) {filter : TagFilter}
    {downsampling : Option Downsampling} (compiled : subquery.tagFilter = .ok filter)
    (parsed : subquery.parsedDownsampling = .ok downsampling) :
    (cache.answerSubquery query subquery now).omissions = []
      ∧ cache.Partitions query subquery now (cache.answerSubquery query subquery now).groups := by
  cases scanned : cache.scan? query subquery now with
  | error cause =>
      rw [scan?_eq compiled parsed] at scanned
      split at scanned <;> cases scanned
  | ok found =>
      cases found with
      | none =>
          have answered : cache.answerSubquery query subquery now = ⟨[], []⟩ := by
            rw [answerSubquery, scanned]
          rw [answered]
          refine ⟨rfl, .nil, by simp, by simp, fun series contributes => ?_⟩
          have output := contributes.output
          rw [outputOf, scanned] at output
          cases output
      | some scan =>
          have answered : cache.answerSubquery query subquery now
              = scan.answer query.divisor (cache.selected scan) := by
            rw [answerSubquery, scanned]
          rw [answered]
          exact ⟨scan.omissions_answer _ fun pair member => ⟨_, legible.pointsOf member⟩,
            legible.partitions_of_scan compiled scanned⟩

end Cache

end TimeSeries
