import Mathlib.Algebra.Group.Nat.Defs
import TimeSeries.Proofs.Aggregator.Chosen
import TimeSeries.Proofs.Cache.RawAnswers

/-!
# Groups of series

The members of a group are the selected series of which a scan makes something and that have the
tags of the group, in the order of series.  A single member is the group as it is.  Several members
are merged timestamp by timestamp: the values that they have there are aggregated in their order,
each as a point at the place of its member (`get?_mergeMembers`).

Places ascend, as long as there are not so many members that a place does not fit into a word.
The aggregators that choose by time therefore choose by member: `first` takes the value of the
first member that has the timestamp, and `last` that of the last one.

Main statements: `get?_mergeMembers`, `Scan.mem_groups_iff`, and `get?_mergeMembers_first` and
`get?_mergeMembers_last`.
-/

set_option autoImplicit false

namespace TimeSeries

/-! ## Maps from maps -/

namespace SortedMap

variable {κ ν μ : Type} [Ord κ] [Std.TransOrd κ] [Std.LawfulEqOrd κ]

/-- A map made of what comes of the values of another one, where something does. -/
theorem get?_ofList_filterMap (map : SortedMap κ ν) (change : ν → Option μ) (key : κ) :
    (ofList (map.toList.filterMap fun pair =>
        (change pair.2).map fun value => (pair.1, value))).get? key
      = (map.get? key).bind change := by
  have mem_iff : ∀ value, (key, value) ∈ (map.toList.filterMap fun pair =>
      (change pair.2).map fun value => (pair.1, value))
        ↔ (map.get? key).bind change = some value := by
    intro value
    rw [List.mem_filterMap, Option.bind_eq_some_iff]
    constructor
    · rintro ⟨⟨held, old⟩, member, changed⟩
      rw [Option.map_eq_some_iff] at changed
      obtain ⟨new, changed, same⟩ := changed
      cases same
      exact ⟨old, (mem_toList_iff _ _ _).mp member, changed⟩
    · rintro ⟨old, found, changed⟩
      exact ⟨(key, old), (mem_toList_iff _ _ _).mpr found, by rw [changed]; rfl⟩
  rw [get?_ofList]
  apply Option.ext
  intro value
  rw [← mem_iff]
  constructor
  · intro found
    exact List.mem_reverse.mp (mem_of_lookup found)
  · intro member
    refine lookup_of_agreeing (List.mem_reverse.mpr member) fun other another => ?_
    have first := (mem_iff value).mp member
    have second := (mem_iff other).mp (List.mem_reverse.mp another)
    rw [first] at second
    exact (Option.some.inj second).symm

end SortedMap

/-! ## Merging -/

/-- The values that some members have, each as a point at the place of its member. -/
def inPlaces (values : List (Option Binary64)) : List Point :=
  values.zipIdx.filterMap fun place => place.1.map fun value => ⟨Int64.ofNat place.2, value⟩

/-- The values collected at a timestamp are those that the members have there. -/
theorem get?_collectMembers (members : List TimedValues) (timestamp : Timestamp) :
    (collectMembers members).get? timestamp
      = if inPlaces (members.map fun member => member.get? timestamp) = [] then none
        else some (inPlaces (members.map fun member => member.get? timestamp)) := by
  let items : List (Timestamp × Point) := members.zipIdx.flatMap fun place =>
    place.1.toList.map fun pair => (pair.1, ⟨Int64.ofNat place.2, pair.2⟩)
  have collected : collectMembers members = items.foldl (fun collected item =>
      collected.alter item.1 fun points => points.getD [] ++ [item.2]) .empty := by
    rw [List.foldl_flatMap]
    simp only [List.foldl_map]
    rfl
  have placed : ((items.filter fun item => item.1 = timestamp).map Prod.snd)
      = inPlaces (members.map fun member => member.get? timestamp) := by
    rw [List.filter_flatMap, List.map_flatMap, inPlaces, List.zipIdx_map, List.filterMap_map,
      List.filterMap_eq_flatMap_toList]
    congr 1
    funext place
    obtain ⟨member, index⟩ := place
    have own := SortedMap.filter_toList_key member timestamp
    rw [List.filter_map, List.map_map]
    simp only [Function.comp_def, Prod.map]
    rw [own]
    cases member.get? timestamp <;> rfl
  have found := SortedMap.get?_foldl_alter_empty Prod.fst Prod.snd items timestamp
  rw [placed] at found
  rw [collected, found]
  simp only [← placed, List.map_eq_nil_iff]

theorem Aggregator.aggregate_nil (aggregator : Aggregator) : aggregator.aggregate [] = none := by
  cases aggregator <;> rfl

/-- **Several members** have at a timestamp what their values there are aggregated to. -/
theorem get?_mergeMembers (aggregator : Aggregator) {members : List TimedValues}
    (several : members.length ≠ 1) (timestamp : Timestamp) :
    (mergeMembers aggregator members).get? timestamp
      = aggregator.aggregate (inPlaces (members.map fun member => member.get? timestamp)) := by
  have merged : mergeMembers aggregator members
      = .ofList ((collectMembers members).toList.filterMap fun pair =>
          (aggregator.aggregate pair.2).map fun value => (pair.1, value)) := by
    cases members with
    | nil => rfl
    | cons first rest =>
        cases rest with
        | nil => exact absurd rfl several
        | cons second rest => rfl
  rw [merged, SortedMap.get?_ofList_filterMap, get?_collectMembers]
  split
  case isTrue nothing => rw [nothing, aggregator.aggregate_nil, Option.bind_none]
  case isFalse => rw [Option.bind_some]

/-! ## First and last -/

theorem value_inPlaces (values : List (Option Binary64)) :
    (inPlaces values).map Point.value = values.filterMap id := by
  rw [inPlaces, List.map_filterMap]
  simp only [Option.map_map, Function.comp_def]
  conv_rhs => rw [← List.zipIdx_map_fst 0 values, List.filterMap_map]
  simp

/-- Several values have an aggregate if one of them is there. -/
theorem isSome_aggregate_inPlaces (aggregator : Aggregator) (values : List (Option Binary64)) :
    (aggregator.aggregate (inPlaces values)).isSome ↔ ∃ value ∈ values, value.isSome := by
  have nothing : inPlaces values = [] ↔ ∀ value ∈ values, value = none := by
    rw [← List.map_eq_nil_iff, value_inPlaces, List.filterMap_eq_nil_iff]
    rfl
  by_cases empty : inPlaces values = []
  · rw [empty, aggregator.aggregate_nil]
    refine ⟨fun found => absurd found Bool.false_ne_true, ?_⟩
    rintro ⟨value, member, found⟩
    rw [nothing.mp empty value member] at found
    exact found
  · refine ⟨fun _ => ?_, fun _ => aggregator.isSome_aggregate empty⟩
    rw [nothing] at empty
    simp only [not_forall] at empty
    obtain ⟨value, member, found⟩ := empty
    exact ⟨value, member, Option.isSome_iff_ne_none.mpr found⟩

/-- Places that fit into a word ascend. -/
theorem ascending_inPlaces {values : List (Option Binary64)} (few : values.length ≤ 2 ^ 63) :
    (inPlaces values).Pairwise fun earlier later => earlier.timestamp < later.timestamp := by
  have places : values.zipIdx.Pairwise fun earlier later => earlier.2 < later.2 := by
    rw [← List.pairwise_map, List.zipIdx_map_snd]
    exact List.pairwise_lt_range'
  rw [inPlaces, List.pairwise_filterMap]
  refine places.imp_of_mem fun {earlier later} _ member before first found second another => ?_
  obtain ⟨_, _, rfl⟩ := Option.map_eq_some_iff.mp found
  obtain ⟨_, _, rfl⟩ := Option.map_eq_some_iff.mp another
  have fits := List.snd_lt_of_mem_zipIdx member
  rw [Int64.lt_iff_toInt_lt, Int64.toInt_ofNat_of_lt (by omega), Int64.toInt_ofNat_of_lt (by omega)]
  exact Int.ofNat_lt.mpr before

section Chosen

variable {points : List Point}

/-- Of points at ascending times the first is the earliest. -/
theorem Aggregator.aggregate_first
    (ascending : points.Pairwise fun earlier later => earlier.timestamp < later.timestamp) :
    Aggregator.first.aggregate points = points.head?.map Point.value := by
  cases points with
  | nil => rfl
  | cons point behind =>
      obtain ⟨later, _⟩ := List.pairwise_cons.mp ascending
      exact Aggregator.aggregate_first_eq_some_iff.mpr ⟨[], point, behind, rfl, rfl,
        List.forall_mem_nil _, fun other member => Int64.le_of_lt (later other member)⟩

/-- The last is the latest. -/
theorem Aggregator.aggregate_last
    (ascending : points.Pairwise fun earlier later => earlier.timestamp < later.timestamp) :
    Aggregator.last.aggregate points = points.getLast?.map Point.value := by
  rcases List.eq_nil_or_concat points with rfl | ⟨before, point, rfl⟩
  · rfl
  · rw [List.concat_eq_append] at ascending ⊢
    obtain ⟨_, _, earlier⟩ := List.pairwise_append.mp ascending
    rw [List.getLast?_concat]
    exact Aggregator.aggregate_last_eq_some_iff.mpr ⟨before, point, [], rfl, rfl,
      fun other member =>
        Int64.le_of_lt (earlier other member point (List.mem_singleton_self point)),
      List.forall_mem_nil _⟩

end Chosen

/-- Several members have under `first` the value of the first member that has the timestamp. -/
theorem get?_mergeMembers_first {members : List TimedValues} (several : members.length ≠ 1)
    (few : members.length ≤ 2 ^ 63) (timestamp : Timestamp) :
    (mergeMembers .first members).get? timestamp
      = (members.filterMap fun member => member.get? timestamp).head? := by
  rw [get?_mergeMembers .first several, Aggregator.aggregate_first
    (ascending_inPlaces (by rwa [List.length_map])), ← List.head?_map, value_inPlaces,
    List.filterMap_map]
  rfl

/-- Under `last` they have the value of the last member that has it. -/
theorem get?_mergeMembers_last {members : List TimedValues} (several : members.length ≠ 1)
    (few : members.length ≤ 2 ^ 63) (timestamp : Timestamp) :
    (mergeMembers .last members).get? timestamp
      = (members.filterMap fun member => member.get? timestamp).getLast? := by
  rw [get?_mergeMembers .last several, Aggregator.aggregate_last
    (ascending_inPlaces (by rwa [List.length_map])), ← List.getLast?_map, value_inPlaces,
    List.filterMap_map]
  rfl

/-! ## The groups of an answer -/

namespace Scan

/-- The members of the group of some tags among selected series, with what the scan makes of
them. -/
def membersOf (scan : Scan) (selected : List (Series × HeldSeries)) (tags : Tags) :
    List (Series × TimedValues) :=
  (selected.filterMap fun pair => (scan.pointsOf pair.1 pair.2).toOption.map fun points =>
    (pair.1, points)).filter fun pair =>
      decide (scan.filter.groupOf pair.1.tags = tags) && !pair.2.isEmpty

variable {scan : Scan} {selected : List (Series × HeldSeries)} {tags : Tags}

/-- The members of each group, as the scan gathers them. -/
theorem get?_groupMembers_found (scan : Scan) (selected : List (Series × HeldSeries))
    (tags : Tags) :
    (scan.groupMembers (selected.filterMap fun pair =>
        (scan.pointsOf pair.1 pair.2).toOption.map fun points => (pair.1, points))).get? tags
      = if scan.membersOf selected tags = [] then none
        else some ((scan.membersOf selected tags).map Prod.snd) := by
  have grouped := SortedMap.get?_foldl_alter_empty
    (fun pair : Series × TimedValues => scan.filter.groupOf pair.1.tags) Prod.snd
    ((selected.filterMap fun pair => (scan.pointsOf pair.1 pair.2).toOption.map fun points =>
      (pair.1, points)).filter fun pair => !pair.2.isEmpty) tags
  rw [List.filter_filter] at grouped
  exact grouped

/-- The groups of an answer in the order of their tags. -/
theorem groups_answer (scan : Scan) (divisor : Timestamp) (selected : List (Series × HeldSeries)) :
    (scan.answer divisor selected).groups
      = (scan.groupMembers (selected.filterMap fun pair =>
          (scan.pointsOf pair.1 pair.2).toOption.map fun points => (pair.1, points))).toList.map
            fun group => ⟨scan.subquery.metric, group.1,
              inUnits divisor (mergeMembers scan.subquery.aggregator group.2)⟩ := by
  simp only [answer, List.filterMap_map]
  rfl

/-- **The groups of an answer.**  There is one for all tags that have members, and its points are
those of its members merged. -/
theorem mem_groups_iff {divisor : Timestamp} {group : GroupAnswer} :
    group ∈ (scan.answer divisor selected).groups
      ↔ scan.membersOf selected group.tags ≠ [] ∧ group.metric = scan.subquery.metric
        ∧ group.points = inUnits divisor (mergeMembers scan.subquery.aggregator
            ((scan.membersOf selected group.tags).map Prod.snd)) := by
  rw [groups_answer, List.mem_map]
  constructor
  · rintro ⟨⟨tags, members⟩, member, rfl⟩
    rw [SortedMap.mem_toList_iff, get?_groupMembers_found] at member
    split at member
    · cases member
    case isFalse some_members =>
        cases member
        exact ⟨some_members, rfl, rfl⟩
  · obtain ⟨metric, tags, points⟩ := group
    rintro ⟨some_members, rfl, same⟩
    refine ⟨(tags, (scan.membersOf selected tags).map Prod.snd), ?_,
      congrArg (GroupAnswer.mk scan.subquery.metric tags) same.symm⟩
    rw [SortedMap.mem_toList_iff, get?_groupMembers_found, if_neg some_members]

end Scan

end TimeSeries
