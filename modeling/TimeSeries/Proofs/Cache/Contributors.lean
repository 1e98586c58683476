import TimeSeries.Proofs.Cache.Groups
import TimeSeries.Proofs.Cache.Holdings

/-!
# Contributors to groups

What a scan makes of the points of a series depends on its subquery: the points themselves, the
values of their buckets, or their rates.  Whatever it is (`Scan.Makes`), the groups of an answer are
told from it alone.  The series of which a scan looks up points contribute to the group of their
tags; a group is there if something is made of the points of a contributor, and its points are those
of its contributors merged.

Main statements: `Legible.mem_groups_iff_of_makes` and `Legible.exists_group_of_makes`.
-/

set_option autoImplicit false

namespace TimeSeries

/-- What a scan makes of the points of a series that it looks up. -/
structure Scan.Makes (scan : Scan) (make : List Point → List Point) : Prop where
  nothing : make [] = []
  made : ∀ {held : HeldSeries} {contents : LogContents}, held.log.Holds contents →
    ∀ series, scan.pointsOf series held
      = .ok (.ofPoints (make (contents.kept.filter (Point.isWithin scan.start scan.stop))))

namespace Cache

variable {cache : Cache} {query : Query} {subquery : Subquery} {now : Timestamp} {scan : Scan}

/-! ## Contributors -/

/-- The points of a series that a scan looks up. -/
def lookedUp (cache : Cache) (scan : Scan) (series : Series) : List Point :=
  (cache.pointsHeld series).filter (Point.isWithin scan.start scan.stop)

/-- The series that contribute to the group of some tags, in order: those that are held, that the
scan selects for the group, and of which it looks up some points. -/
def contributors (cache : Cache) (scan : Scan) (tags : Tags) : List Series :=
  cache.held.keys.filter fun series =>
    scan.selects series && (decide (scan.filter.groupOf series.tags = tags)
      && !(cache.lookedUp scan series).isEmpty)

/-- The contributors that are left once something is made of the points looked up. -/
def remaining (cache : Cache) (scan : Scan) (make : List Point → List Point) (tags : Tags) :
    List Series :=
  (cache.contributors scan tags).filter fun series => !(make (cache.lookedUp scan series)).isEmpty

/-- No series is left of which nothing is looked up. -/
theorem remaining_eq {make : List Point → List Point} (makes : scan.Makes make) (tags : Tags) :
    cache.remaining scan make tags = cache.held.keys.filter fun series =>
      scan.selects series && (decide (scan.filter.groupOf series.tags = tags)
        && !(make (cache.lookedUp scan series)).isEmpty) := by
  rw [remaining, contributors, List.filter_filter]
  refine List.filter_congr fun series _ => ?_
  cases looked : cache.lookedUp scan series with
  | nil => simp [makes.nothing]
  | cons => simp [Bool.and_comm, Bool.and_left_comm]

/-- The series that provide the points of the group of some tags, in order: those that are held,
that the scan selects for the group, and of which it makes something. -/
def providers (cache : Cache) (scan : Scan) (tags : Tags) : List Series :=
  cache.held.keys.filter fun series =>
    scan.selects series && (decide (scan.filter.groupOf series.tags = tags)
      && !(pointsBy scan cache.pointsHeld series).isEmpty)

/-- The members of a group are the series that provide its points. -/
theorem Legible.membersOf (legible : cache.Legible) (scan : Scan) (tags : Tags) :
    scan.membersOf (cache.selected scan) tags
      = (cache.providers scan tags).map fun series =>
          (series, pointsBy scan cache.pointsHeld series) := by
  have made : ∀ pair ∈ cache.selected scan,
      (scan.pointsOf pair.1 pair.2).toOption.map (fun points => (pair.1, points))
        = some (pair.1, pointsBy scan cache.pointsHeld pair.1) := by
    intro pair member
    rw [legible.pointsOf member]
    rfl
  rw [Scan.membersOf, List.filterMap_congr made, providers, SortedMap.keys, selected]
  rw [List.filterMap_eq_map', List.filter_map, List.filter_map, List.map_map, List.filter_filter]
  exact congrArg _ (List.filter_congr fun pair _ => Bool.and_comm _ _)

/-- What a scan makes of the points of a held series. -/
theorem Legible.pointsBy_of_makes (legible : cache.Legible) {make : List Point → List Point}
    (makes : scan.Makes make) {series : Series} (held : series ∈ cache.held.keys) :
    pointsBy scan cache.pointsHeld series = .ofPoints (make (cache.lookedUp scan series)) := by
  obtain ⟨pair, member, rfl⟩ := List.mem_map.mp held
  obtain ⟨contents, holds⟩ := legible pair.1
  have kept := kept_eq_pointsHeld holds
  rw [logOf_of_get? ((SortedMap.mem_toList_iff _ _ _).mp member)] at holds
  have made := makes.made holds pair.1
  rw [Scan.pointsOf, HeldSeries.entriesWithin_of_holds holds, kept] at made
  rw [pointsBy, Scan.madeOf]
  exact congrArg (fun values => values.toOption.getD .empty) made

/-- So they are the contributors that are left, with what is made of their points. -/
theorem Legible.membersOf_of_makes (legible : cache.Legible) {make : List Point → List Point}
    (makes : scan.Makes make) (tags : Tags) :
    scan.membersOf (cache.selected scan) tags
      = (cache.remaining scan make tags).map fun series =>
          (series, .ofPoints (make (cache.lookedUp scan series))) := by
  have made : ∀ series ∈ cache.held.keys, pointsBy scan cache.pointsHeld series
      = .ofPoints (make (cache.lookedUp scan series)) := fun series =>
    legible.pointsBy_of_makes makes
  rw [legible.membersOf, providers, remaining_eq makes]
  rw [List.filter_congr fun series held => by rw [made series held, TimedValues.isEmpty_ofPoints]]
  exact List.map_congr_left fun series member => by rw [made series (List.mem_filter.mp member).1]

/-- All contributors are left if something is made of any points. -/
theorem remaining_eq_contributors (cache : Cache) (scan : Scan) {make : List Point → List Point}
    (something : ∀ points, (make points).isEmpty = points.isEmpty) (tags : Tags) :
    cache.remaining scan make tags = cache.contributors scan tags := by
  refine List.filter_eq_self.mpr fun series member => ?_
  have within := (List.mem_filter.mp member).2
  rw [Bool.and_eq_true, Bool.and_eq_true] at within
  rw [something]
  exact within.2.2

/-! ## Groups -/

/-- The groups of an answer in milliseconds are those with contributors that are left, and their
points are those of the contributors merged. -/
theorem Legible.mem_groups_iff_of_makes (legible : cache.Legible)
    (exact : query.inMilliseconds = true)
    (scanned : cache.scan? query subquery now
      = if query.stop < cache.firstAsked query subquery now then .ok none else .ok (some scan))
    {make : List Point → List Point} (makes : scan.Makes make) {group : GroupAnswer} :
    group ∈ (cache.answerSubquery query subquery now).groups
      ↔ cache.firstAsked query subquery now ≤ query.stop
        ∧ cache.remaining scan make group.tags ≠ [] ∧ group.metric = scan.subquery.metric
        ∧ group.points = mergeMembers scan.subquery.aggregator
            ((cache.remaining scan make group.tags).map fun series =>
              .ofPoints (make (cache.lookedUp scan series))) := by
  have divisor : query.divisor = 1 := by rw [Query.divisor, if_pos exact]
  have members := legible.membersOf_of_makes makes group.tags
  rw [answerSubquery, scanned, divisor]
  by_cases spans : cache.firstAsked query subquery now ≤ query.stop
  · rw [if_neg (Int64.not_lt.mpr spans), Scan.mem_groups_iff, members, inUnits_one, List.map_map]
    simp only [ne_eq, List.map_eq_nil_iff, spans, true_and]
    rfl
  · rw [if_pos (Int64.not_le.mp spans)]
    exact ⟨fun member => absurd member List.not_mem_nil, fun within => absurd within.1 spans⟩

/-- All tags with contributors that are left have a group. -/
theorem Legible.exists_group_of_makes (legible : cache.Legible)
    (exact : query.inMilliseconds = true)
    (scanned : cache.scan? query subquery now
      = if query.stop < cache.firstAsked query subquery now then .ok none else .ok (some scan))
    {make : List Point → List Point} (makes : scan.Makes make)
    (asked : cache.firstAsked query subquery now ≤ query.stop) {tags : Tags}
    (left : cache.remaining scan make tags ≠ []) :
    ∃ group ∈ (cache.answerSubquery query subquery now).groups, group.tags = tags := by
  let points := mergeMembers scan.subquery.aggregator
    ((cache.remaining scan make tags).map fun series =>
      .ofPoints (make (cache.lookedUp scan series)))
  exact ⟨⟨scan.subquery.metric, tags, points⟩,
    (legible.mem_groups_iff_of_makes exact scanned makes).mpr ⟨asked, left, rfl, rfl⟩, rfl⟩

end Cache

end TimeSeries
