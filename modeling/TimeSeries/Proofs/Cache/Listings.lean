import Mathlib.Data.List.Perm.Basic
import TimeSeries.Cache.Status
import TimeSeries.Proofs.Cache.Groups
import TimeSeries.Proofs.Cache.Holdings

/-!
# Series in any order

A cache keeps its series in the order of their keys.  Nothing that is told about them depends on it:
if the series are listed in another order, answers are the same as long as those that a scan selects
are put in order first, and so is the status, which only counts, adds up and compares.

In the groups of an answer the members stand in the order of their keys, so `first` and `last`
choose the value of the lowest and of the highest key that has the timestamp.

Main statements: `Cache.indifferent` and `Cache.choosesByKey`.
-/

set_option autoImplicit false

namespace TimeSeries

/-! ## Lists in any order -/

/-- A sum does not depend on the order. -/
theorem total_of_perm {counts others : List Nat} (any : counts.Perm others) :
    total counts = total others :=
  any.foldr_eq 0

/-- Neither does the least timestamp. -/
theorem min?_of_perm {timestamps others : List Timestamp} (any : timestamps.Perm others) :
    timestamps.min? = others.min? := by
  apply Option.ext
  intro least
  rw [List.min?_eq_some_iff, List.min?_eq_some_iff, any.mem_iff]
  simp only [any.mem_iff]

/-- The greater of two timestamps is one of them and above both. -/
instance : Std.LawfulOrderMax Timestamp where
  max_le_iff _ _ _ := Timestamp.max_le_iff
  max_eq_or first second := by
    have chosen : max first second = if first ≤ second then second else first := rfl
    rw [chosen]
    split
    · exact Or.inr rfl
    · exact Or.inl rfl

/-- Nor does the greatest. -/
theorem max?_of_perm {timestamps others : List Timestamp} (any : timestamps.Perm others) :
    timestamps.max? = others.max? := by
  apply Option.ext
  intro greatest
  rw [List.max?_eq_some_iff, List.max?_eq_some_iff, any.mem_iff]
  simp only [any.mem_iff]

/-- Nor does a set of elements. -/
theorem SortedSet.ofElements_of_perm {elements others : List String} (any : elements.Perm others) :
    SortedSet.ofElements elements = SortedSet.ofElements others := by
  refine SortedMap.ext_contains fun element => ?_
  rw [Bool.eq_iff_iff, SortedMap.contains_ofElements, SortedMap.contains_ofElements, any.mem_iff]

/-- The series that a scan selects among those listed, put in order. -/
def Scan.selectedFrom (scan : Scan) (listed : List (Series × HeldSeries)) :
    List (Series × HeldSeries) :=
  (listed.filter fun pair => scan.selects pair.1).mergeSort fun first second =>
    (compare first.1 second.1).isLE

namespace Cache

/-! ## Answers and status of a listing -/

/-- The answer to a subquery from a listing of the series of a cache. -/
def answerSubqueryFrom (cache : Cache) (listed : List (Series × HeldSeries)) (query : Query)
    (subquery : Subquery) (now : Timestamp) : Answer :=
  match cache.scan? query subquery now with
  | .ok (some scan) => scan.answer query.divisor (scan.selectedFrom listed)
  | .ok none => ⟨[], []⟩
  | .error cause => ⟨[], [.subquery subquery.metric cause]⟩

/-- The answer to a query from a listing of the series of a cache. -/
def answerFrom (cache : Cache) (listed : List (Series × HeldSeries)) (query : Query)
    (now : Timestamp) : Except Failure Answer := do
  query.validate
  return .concat (query.subqueries.map fun subquery =>
    cache.answerSubqueryFrom listed query subquery now)

/-- The status of a cache from a listing of its series. -/
def statusFrom (cache : Cache) (listed : List (Series × HeldSeries)) : CacheStatus where
  series := listed.length
  metrics := (SortedSet.ofElements (listed.map fun pair => pair.1.metric)).keys
  uncachedMetrics := cache.uncached.keys
  points := total (listed.map fun pair => pair.2.log.size)
  archivedBlocks := total (listed.map fun pair => pair.2.log.archived.length)
  byteSize := total (listed.map fun pair => pair.2.log.byteSize)
  oldest := (listed.filterMap fun pair => pair.2.log.oldest?).min?
  newest := (listed.filterMap fun pair => pair.2.log.newest).max?
  counters := cache.counters

variable {cache : Cache} {listed : List (Series × HeldSeries)}

/-- Put in order, the selected series are the same in whatever order they were listed. -/
theorem selectedFrom_eq (any : listed.Perm cache.held.toList) (scan : Scan) :
    scan.selectedFrom listed = cache.selected scan := by
  have sorted : (scan.selectedFrom listed).Pairwise fun first second =>
      (compare first.1 second.1).isLE = true := by
    refine List.pairwise_mergeSort (fun _ _ _ => Std.TransCmp.isLE_trans) (fun first second => ?_) _
    have swapped : compare second.1 first.1 = (compare first.1 second.1).swap :=
      Std.OrientedCmp.eq_swap
    rw [swapped]
    cases compare first.1 second.1 <;> rfl
  have ascending : (cache.selected scan).Pairwise fun first second =>
      (compare first.1 second.1).isLE = true := by
    refine List.Pairwise.imp ?_ (cache.held.ascending.filter _)
    intro first second before
    rw [before]
    rfl
  have shuffled : (scan.selectedFrom listed).Perm (cache.selected scan) :=
    (List.mergeSort_perm _ _).trans (any.filter _)
  refine List.Perm.eq_of_pairwise ?_ sorted ascending shuffled
  intro first second among alsoAmong before after
  have one := (CacheRun.get?_of_mem_selected (shuffled.mem_iff.mp among)).1
  have another := (CacheRun.get?_of_mem_selected alsoAmong).1
  have same : first.1 = second.1 :=
    Std.LawfulEqCmp.eq_of_compare (Std.OrientedCmp.isLE_antisymm before after)
  rw [same, another] at one
  exact Prod.ext same (Option.some.inj one).symm

theorem answerFrom_eq (any : listed.Perm cache.held.toList) (query : Query) (now : Timestamp) :
    cache.answerFrom listed query now = cache.answer query now := by
  have each : ∀ subquery, cache.answerSubqueryFrom listed query subquery now
      = cache.answerSubquery query subquery now := by
    intro subquery
    rw [answerSubqueryFrom, answerSubquery]
    cases cache.scan? query subquery now with
    | error cause => rfl
    | ok scanned =>
        cases scanned with
        | none => rfl
        | some scan => exact congrArg (scan.answer query.divisor) (selectedFrom_eq any scan)
  simp only [answerFrom, answer, each]

theorem statusFrom_eq (any : listed.Perm cache.held.toList) :
    cache.statusFrom listed = cache.status := by
  have inOrder : cache.statusFrom cache.held.toList = cache.status := by
    simp only [statusFrom, status, size, SortedMap.size, SortedMap.keys, SortedMap.values,
      archivedBlocks, List.map_map, List.filterMap_map]
    rfl
  rw [← inOrder, statusFrom, statusFrom, any.length_eq,
    SortedSet.ofElements_of_perm (any.map _), total_of_perm (any.map _), total_of_perm (any.map _),
    total_of_perm (any.map _), min?_of_perm (any.filterMap _), max?_of_perm (any.filterMap _)]

/-- The order in which the series of a cache are listed makes no difference. -/
structure Indifferent (cache : Cache) : Prop where
  answers : ∀ listed : List (Series × HeldSeries), listed.Perm cache.held.toList →
    ∀ query now, cache.answerFrom listed query now = (cache.ask query now).2
  status : ∀ listed : List (Series × HeldSeries), listed.Perm cache.held.toList →
    cache.statusFrom listed = cache.status

theorem indifferent (cache : Cache) : cache.Indifferent :=
  ⟨fun _ any query now => answerFrom_eq any query now, fun _ any => statusFrom_eq any⟩

end Cache

/-! ## Choices by key -/

section Ends

variable {κ ν μ : Type} [Ord κ] {pairs : List (κ × ν)} {value : ν}

/-- What comes of ascending pairs under their own keys ascends. -/
theorem ascending_filterMap (ascending : Ascending pairs) (change : κ × ν → Option μ) :
    Ascending (pairs.filterMap fun pair => (change pair).map fun value => (pair.1, value)) := by
  rw [Ascending, List.pairwise_filterMap]
  refine ascending.imp fun {first second} before one found another alsoFound => ?_
  obtain ⟨_, _, rfl⟩ := Option.map_eq_some_iff.mp found
  obtain ⟨_, _, rfl⟩ := Option.map_eq_some_iff.mp alsoFound
  exact before

variable [Std.TransOrd κ]

/-- Of ascending pairs the first has the lowest key. -/
theorem head?_eq_some_iff_lowest (ascending : Ascending pairs) :
    pairs.head?.map Prod.snd = some value
      ↔ ∃ key, (key, value) ∈ pairs ∧ ∀ other ∈ pairs, (compare key other.1).isLE = true := by
  cases pairs with
  | nil => simp
  | cons first rest =>
      have above := (List.pairwise_cons.mp ascending).1
      rw [List.head?_cons, Option.map_some, Option.some.injEq]
      constructor
      · rintro rfl
        refine ⟨first.1, List.mem_cons_self, fun other among => ?_⟩
        rcases List.mem_cons.mp among with rfl | behind
        · rw [Std.ReflOrd.compare_self]
          rfl
        · rw [above other behind]
          rfl
      · rintro ⟨key, member, lowest⟩
        rcases List.mem_cons.mp member with rfl | behind
        · rfl
        · have below := lowest first List.mem_cons_self
          rw [Std.OrientedCmp.gt_of_lt (above _ behind)] at below
          cases below

/-- The last has the highest key. -/
theorem getLast?_eq_some_iff_highest (ascending : Ascending pairs) :
    pairs.getLast?.map Prod.snd = some value
      ↔ ∃ key, (key, value) ∈ pairs ∧ ∀ other ∈ pairs, (compare key other.1).isGE = true := by
  induction pairs using List.reverseRecOn with
  | nil => simp
  | append_singleton front last =>
      have below := (List.pairwise_append.mp ascending).2.2
      rw [List.getLast?_concat, Option.map_some, Option.some.injEq]
      constructor
      · rintro rfl
        refine ⟨last.1, by simp, fun other among => ?_⟩
        rcases List.mem_append.mp among with before | here
        · rw [Std.OrientedCmp.gt_of_lt (below other before last (List.mem_singleton_self _))]
          rfl
        · rw [List.mem_singleton.mp here, Std.ReflOrd.compare_self]
          rfl
      · rintro ⟨key, member, highest⟩
        rcases List.mem_append.mp member with before | here
        · have above := highest last (by simp)
          rw [below _ before last (List.mem_singleton_self _)] at above
          cases above
        · rw [← List.mem_singleton.mp here]

end Ends

/-- The value at a timestamp of a member whose key ranks before those of all members that have the
timestamp. -/
def IsChosenAt (ranks : Series → Series → Bool) (members : List (Series × TimedValues))
    (timestamp : Timestamp) (value : Binary64) : Prop :=
  ∃ series points, (series, points) ∈ members ∧ points.get? timestamp = some value
    ∧ ∀ other ∈ members, (other.2.get? timestamp).isSome → ranks series other.1 = true

section Chosen

variable {members : List (Series × TimedValues)}

/-- The values of members at a timestamp, with their keys. -/
def holders (members : List (Series × TimedValues)) (timestamp : Timestamp) :
    List (Series × Binary64) :=
  members.filterMap fun member => (member.2.get? timestamp).map fun value => (member.1, value)

theorem map_snd_holders (members : List (Series × TimedValues)) (timestamp : Timestamp) :
    (holders members timestamp).map Prod.snd
      = (members.map Prod.snd).filterMap fun member => member.get? timestamp := by
  rw [holders, List.map_filterMap, List.filterMap_map]
  simp only [Option.map_map, Function.comp_def, Option.map_id']

theorem mem_holders_iff {timestamp : Timestamp} {series : Series} {value : Binary64} :
    (series, value) ∈ holders members timestamp
      ↔ ∃ points, (series, points) ∈ members ∧ points.get? timestamp = some value := by
  rw [holders, List.mem_filterMap]
  constructor
  · rintro ⟨⟨other, points⟩, among, found⟩
    obtain ⟨held, here, same⟩ := Option.map_eq_some_iff.mp found
    obtain ⟨rfl, rfl⟩ := Prod.mk.inj same
    exact ⟨points, among, here⟩
  · rintro ⟨points, among, here⟩
    exact ⟨(series, points), among, by rw [here]; rfl⟩

/-- A value is chosen among the holders. -/
theorem isChosenAt_iff {ranks : Series → Series → Bool} {timestamp : Timestamp}
    {value : Binary64} :
    IsChosenAt ranks members timestamp value
      ↔ ∃ series, (series, value) ∈ holders members timestamp
        ∧ ∀ other ∈ holders members timestamp, ranks series other.1 = true := by
  constructor
  · rintro ⟨series, points, among, here, before⟩
    refine ⟨series, mem_holders_iff.mpr ⟨points, among, here⟩, fun other member => ?_⟩
    obtain ⟨others, alsoAmong, there⟩ := mem_holders_iff.mp member
    exact before (other.1, others) alsoAmong (by rw [there]; rfl)
  · rintro ⟨series, member, before⟩
    obtain ⟨points, among, here⟩ := mem_holders_iff.mp member
    refine ⟨series, points, among, here, fun other alsoAmong found => ?_⟩
    obtain ⟨others, there⟩ := Option.isSome_iff_exists.mp found
    exact before (other.1, others) (mem_holders_iff.mpr ⟨other.2, alsoAmong, there⟩)

/-- Under `first`, several members have the value of the lowest key. -/
theorem get?_first_iff (ascending : Ascending members) (several : 2 ≤ members.length)
    (few : members.length ≤ 2 ^ 63) (timestamp : Timestamp) (value : Binary64) :
    (mergeMembers .first (members.map Prod.snd)).get? timestamp = some value
      ↔ IsChosenAt (fun series other => (compare series other).isLE) members timestamp value := by
  have inOrder : Ascending (holders members timestamp) := ascending_filterMap ascending _
  rw [get?_mergeMembers_first (by rw [List.length_map]; omega) (by rwa [List.length_map]),
    ← map_snd_holders, List.head?_map, head?_eq_some_iff_lowest inOrder, isChosenAt_iff]

/-- Under `last` they have that of the highest key. -/
theorem get?_last_iff (ascending : Ascending members) (several : 2 ≤ members.length)
    (few : members.length ≤ 2 ^ 63) (timestamp : Timestamp) (value : Binary64) :
    (mergeMembers .last (members.map Prod.snd)).get? timestamp = some value
      ↔ IsChosenAt (fun series other => (compare series other).isGE) members timestamp value := by
  have inOrder : Ascending (holders members timestamp) := ascending_filterMap ascending _
  rw [get?_mergeMembers_last (by rw [List.length_map]; omega) (by rwa [List.length_map]),
    ← map_snd_holders, List.getLast?_map, getLast?_eq_some_iff_highest inOrder, isChosenAt_iff]

end Chosen

namespace Cache

/-- Members stand in the order of their keys. -/
theorem ascending_membersOf (cache : Cache) (scan : Scan) (tags : Tags) :
    Ascending (scan.membersOf (cache.selected scan) tags) := by
  have selected : Ascending (cache.selected scan) := cache.held.ascending.filter _
  exact (ascending_filterMap selected _).filter _

/-- In groups of several members, `first` and `last` give at each timestamp the value of the lowest
and of the highest key that has the timestamp.  There are not so many members that their places do
not fit into a word. -/
structure ChoosesByKey (cache : Cache) (query : Query) (subquery : Subquery) (scan : Scan)
    (group : GroupAnswer) : Prop where
  first : subquery.aggregator = .first → ∃ merged, group.points = inUnits query.divisor merged
    ∧ ∀ timestamp value, merged.get? timestamp = some value
      ↔ IsChosenAt (fun series other => (compare series other).isLE)
        (scan.membersOf (cache.selected scan) group.tags) timestamp value
  last : subquery.aggregator = .last → ∃ merged, group.points = inUnits query.divisor merged
    ∧ ∀ timestamp value, merged.get? timestamp = some value
      ↔ IsChosenAt (fun series other => (compare series other).isGE)
        (scan.membersOf (cache.selected scan) group.tags) timestamp value

theorem choosesByKey (cache : Cache) {query : Query} {subquery : Subquery} {now : Timestamp}
    {scan : Scan} (scanned : cache.scan? query subquery now = .ok (some scan))
    {group : GroupAnswer} (member : group ∈ (cache.answerSubquery query subquery now).groups)
    (several : 2 ≤ (scan.membersOf (cache.selected scan) group.tags).length)
    (few : (scan.membersOf (cache.selected scan) group.tags).length ≤ 2 ^ 63) :
    cache.ChoosesByKey query subquery scan group := by
  have ascending := cache.ascending_membersOf scan group.tags
  rw [answerSubquery, scanned] at member
  obtain ⟨_, _, points⟩ := Scan.mem_groups_iff.mp member
  obtain ⟨_, _, _, _, _, same⟩ := eq_of_scan? scanned
  have own : scan.subquery = subquery := by rw [same]
  rw [own] at points
  refine ⟨fun chosen => ?_, fun chosen => ?_⟩
  · rw [chosen] at points
    exact ⟨_, points, get?_first_iff ascending several few⟩
  · rw [chosen] at points
    exact ⟨_, points, get?_last_iff ascending several few⟩

end Cache

end TimeSeries
