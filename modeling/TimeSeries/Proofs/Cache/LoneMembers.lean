import TimeSeries.Proofs.Cache.Groups

/-!
# Lone members

Several members of a group have at each timestamp the aggregate of the values that are there, in the
order of members, and a member without the timestamp does not count (`get?_mergeMembers_values`).  A
member that is alone is taken as it is, and nothing is aggregated.

The two ways of making a group agree exactly where the aggregate of a value alone is that value.
The aggregators that choose one of the values keep every value.  Those that compute one do not: a
count is one whatever was counted, and a sum, which starts from zero, makes a signalling
not-a-number quiet.  A group that shrinks to one member can therefore change its values although
the members that went had nothing there.

Main statements: `Aggregator.chooses_iff` and `combines_members`.
-/

set_option autoImplicit false

namespace TimeSeries

/-! ## Values one after the other -/

namespace Accumulator

/-- The accumulators that look at timestamps. -/
def timed : Accumulator → Bool
  | first _ => true
  | last _ => true
  | _ => false

theorem timed_add (point : Point) (accumulator : Accumulator) :
    (accumulator.add point).timed = accumulator.timed := by
  cases accumulator
  case least held => cases held <;> rfl
  case greatest held => cases held <;> rfl
  case first held => cases held <;> rfl
  case last held => cases held <;> rfl
  all_goals rfl

/-- Without timestamps only the value of a point counts. -/
theorem add_congr {accumulator : Accumulator} (untimed : accumulator.timed = false)
    {point other : Point} (same : point.value = other.value) :
    accumulator.add point = accumulator.add other := by
  cases accumulator
  case least held => cases held <;> rw [add, add, same]
  case greatest held => cases held <;> rw [add, add, same]
  case first => cases untimed
  case last => cases untimed
  case count => rfl
  all_goals rw [add, add, same]

theorem foldl_add_congr {points others : List Point}
    (same : points.map Point.value = others.map Point.value) {accumulator : Accumulator}
    (untimed : accumulator.timed = false) :
    points.foldl (fun accumulator point => accumulator.add point) accumulator
      = others.foldl (fun accumulator point => accumulator.add point) accumulator := by
  induction points generalizing others accumulator with
  | nil => rw [List.map_eq_nil_iff.mp same.symm]
  | cons point points ih =>
      obtain ⟨other, rest, rfl, value, onward⟩ := List.map_eq_cons_iff.mp same.symm
      rw [List.foldl_cons, List.foldl_cons, ih onward.symm ((timed_add _ _).trans untimed),
        add_congr untimed value.symm]

end Accumulator

namespace Aggregator

/-- The aggregate of values in the order in which they are given, each at its own place. -/
def ofValues (aggregator : Aggregator) (values : List Binary64) : Option Binary64 :=
  aggregator.aggregate (inPlaces (values.map some))

/-- Of points at ascending times only the values count. -/
theorem aggregate_congr (aggregator : Aggregator) {points others : List Point}
    (ascending : points.Pairwise fun earlier later => earlier.timestamp < later.timestamp)
    (alsoAscending : others.Pairwise fun earlier later => earlier.timestamp < later.timestamp)
    (same : points.map Point.value = others.map Point.value) :
    aggregator.aggregate points = aggregator.aggregate others := by
  cases aggregator
  case first =>
      rw [aggregate_first ascending, aggregate_first alsoAscending, ← List.head?_map, same,
        List.head?_map]
  case last =>
      rw [aggregate_last ascending, aggregate_last alsoAscending, ← List.getLast?_map, same,
        List.getLast?_map]
  all_goals exact congrArg Accumulator.result (Accumulator.foldl_add_congr same rfl)

/-- The places of the members do not matter, only their order does. -/
theorem aggregate_inPlaces (aggregator : Aggregator) {values : List (Option Binary64)}
    (few : values.length ≤ 2 ^ 63) :
    aggregator.aggregate (inPlaces values) = aggregator.ofValues (values.filterMap id) := by
  have fewer : ((values.filterMap id).map some).length ≤ 2 ^ 63 := by
    rw [List.length_map]
    exact (List.length_filterMap_le _ _).trans few
  refine aggregator.aggregate_congr (ascending_inPlaces few) (ascending_inPlaces fewer) ?_
  rw [value_inPlaces, value_inPlaces, List.filterMap_map]
  exact List.filterMap_some.symm

/-! ## A value alone -/

/-- The aggregate of the value alone is the value. -/
def Keeps (aggregator : Aggregator) (value : Binary64) : Prop :=
  aggregator.ofValues [value] = some value

/-- The aggregators whose results are among the values. -/
def chooses : Aggregator → Bool
  | mean => false
  | sum => false
  | count => false
  | deviation => false
  | least => true
  | greatest => true
  | first => true
  | last => true
  | percentile _ => true

end Aggregator

theorem Accumulator.nearestRank_singleton (percent : Percent) (value : Binary64) :
    nearestRank percent [value] = some value := by
  rw [nearestRank, List.mergeSort_singleton, List.length_singleton]
  -- Whatever the share is, the rank is kept within one value.
  generalize Binary64.ceilNat _ = share
  have rank : Nat.max 1 (Nat.min 1 share) - 1 = 0 := by
    have within : Nat.min 1 share ≤ 1 := Nat.min_le_left 1 share
    rw [Nat.sub_eq_zero_iff_le]
    exact Nat.max_le.mpr ⟨Nat.le_refl 1, within⟩
  rw [rank]
  rfl

namespace Binary64

/-- A not-a-number on the left passes through. -/
theorem lift_left (operation : Float → Float → Float) (left right : Binary64)
    (none : left.isNaN = true) : lift operation left right = left.quieted :=
  if_pos none

/-- On the right it passes through if the left side is a number. -/
theorem lift_right (operation : Float → Float → Float) (left right : Binary64)
    (number : left.isNaN = false) (none : right.isNaN = true) :
    lift operation left right = right.quieted := by
  rw [lift, if_neg (by rw [number]; exact Bool.false_ne_true), if_pos none]

/-- A not-a-number that is signalling. -/
def signalling : Binary64 := ⟨0x7ff0000000000001⟩

end Binary64

namespace Aggregator

/-- What is computed from a signalling not-a-number is a quiet one. -/
theorem ofValues_signalling {aggregator : Aggregator}
    (computes : aggregator = mean ∨ aggregator = sum ∨ aggregator = deviation) :
    aggregator.ofValues [.signalling] = some Binary64.signalling.quieted := by
  have added : Binary64.zero + Binary64.signalling = Binary64.signalling.quieted :=
    Binary64.lift_right Float.add .zero .signalling (by decide) (by decide)
  have quiet : Binary64.signalling.quieted.isNaN = true := by decide
  have still : Binary64.signalling.quieted.quieted = Binary64.signalling.quieted := by decide
  have divided : Binary64.signalling.quieted / Binary64.ofNat 1 = Binary64.signalling.quieted :=
    (Binary64.lift_left Float.div _ (Binary64.ofNat 1) quiet).trans still
  rcases computes with rfl | rfl | rfl
  · show some ((Binary64.zero + Binary64.signalling) / Binary64.ofNat 1) = _
    rw [added, divided]
  · exact congrArg some added
  · have distance : Binary64.signalling - Binary64.zero = Binary64.signalling.quieted :=
      Binary64.lift_left Float.sub .signalling .zero (by decide)
    have squares : ∀ other : Binary64,
        Binary64.zero + Binary64.signalling.quieted * other = Binary64.signalling.quieted := by
      intro other
      have product : Binary64.signalling.quieted * other = Binary64.signalling.quieted :=
        (Binary64.lift_left Float.mul _ other quiet).trans still
      rw [product]
      exact (Binary64.lift_right Float.add .zero _ (by decide) quiet).trans still
    show some (((Binary64.zero + (Binary64.signalling - Binary64.zero) * _) / Binary64.ofNat 1).sqrt)
      = _
    rw [distance, squares, divided, Binary64.sqrt, if_pos quiet, still]

/-- **The aggregators that keep every value** are those that choose one. -/
theorem chooses_iff (aggregator : Aggregator) :
    aggregator.chooses = true ↔ ∀ value, aggregator.Keeps value := by
  have computed : aggregator = mean ∨ aggregator = sum ∨ aggregator = deviation →
      ¬ ∀ value, aggregator.Keeps value := by
    intro computes keeps
    have same := keeps .signalling
    rw [Keeps, ofValues_signalling computes] at same
    exact absurd same (by decide)
  cases aggregator
  case mean => exact iff_of_false Bool.false_ne_true (computed (.inl rfl))
  case sum => exact iff_of_false Bool.false_ne_true (computed (.inr (.inl rfl)))
  case deviation => exact iff_of_false Bool.false_ne_true (computed (.inr (.inr rfl)))
  case count =>
      refine iff_of_false Bool.false_ne_true fun keeps => ?_
      -- A count does not depend on what is counted, so that it cannot keep two values.
      have zeroKept : some (Binary64.ofNat 1) = some .zero := keeps .zero
      have infinityKept : some (Binary64.ofNat 1) = some .infinity := keeps .infinity
      exact absurd (zeroKept.symm.trans infinityKept) (by decide)
  case least => exact iff_of_true rfl fun _ => rfl
  case greatest => exact iff_of_true rfl fun _ => rfl
  case first => exact iff_of_true rfl fun _ => rfl
  case last => exact iff_of_true rfl fun _ => rfl
  case percentile percent =>
      exact iff_of_true rfl fun value => Accumulator.nearestRank_singleton percent value

end Aggregator

/-! ## Merging -/

/-- The values that members have at a timestamp, in the order of members. -/
def valuesAt (members : List TimedValues) (timestamp : Timestamp) : List Binary64 :=
  members.filterMap fun member => member.get? timestamp

/-- Several members have at a timestamp the aggregate of the values that are there. -/
theorem get?_mergeMembers_values (aggregator : Aggregator) {members : List TimedValues}
    (several : members.length ≠ 1) (few : members.length ≤ 2 ^ 63) (timestamp : Timestamp) :
    (mergeMembers aggregator members).get? timestamp
      = aggregator.ofValues (valuesAt members timestamp) := by
  rw [get?_mergeMembers aggregator several,
    aggregator.aggregate_inPlaces (by rwa [List.length_map]), List.filterMap_map]
  rfl

/-- Where members have values, and only there, the values have an aggregate. -/
theorem contains_mergeMembers (aggregator : Aggregator) (members : List TimedValues)
    (timestamp : Timestamp) :
    (mergeMembers aggregator members).contains timestamp = true
      ↔ ∃ member ∈ members, member.contains timestamp = true := by
  by_cases alone : members.length = 1
  · obtain ⟨member, rfl⟩ := List.length_eq_one_iff.mp alone
    simp [mergeMembers]
  · rw [SortedMap.contains, get?_mergeMembers aggregator alone, isSome_aggregate_inPlaces]
    simp only [List.mem_map, exists_exists_and_eq_and]
    rfl

/-- A unit has the value of the last timestamp in it. -/
theorem get?_inUnits_eq_some_iff {divisor unit : Timestamp} {points : TimedValues}
    {value : Binary64} :
    (inUnits divisor points).get? unit = some value
      ↔ ∃ timestamp, points.get? timestamp = some value ∧ timestamp.quotient divisor = unit
        ∧ ∀ later, timestamp < later → later.quotient divisor = unit →
          points.contains later = false := by
  rw [inUnits, SortedMap.get?_ofList, SortedMap.lookup_reverse_eq_some_iff]
  constructor
  · rintro ⟨before, after, split, others⟩
    obtain ⟨front, rest, whole, rfl, onward⟩ := List.map_eq_append_iff.mp split
    obtain ⟨⟨timestamp, held⟩, back, rfl, here, rfl⟩ := List.map_eq_cons_iff.mp onward
    cases here
    refine ⟨timestamp, ?_, rfl, fun later behind same => ?_⟩
    · rw [← SortedMap.mem_toList_iff, whole]
      exact List.mem_append_right _ List.mem_cons_self
    · rw [← Bool.not_eq_true, SortedMap.contains, Option.isSome_iff_exists]
      rintro ⟨other, found⟩
      have order : compare timestamp later = .lt := Std.compare_eq_lt.mpr behind
      have late : (later, other) ∈ back := (SortedMap.mem_behind_iff whole).mpr ⟨found, order⟩
      exact others (later.quotient divisor, other) (List.mem_map.mpr ⟨_, late, rfl⟩) same
  · rintro ⟨timestamp, found, rfl, last⟩
    obtain ⟨front, back, whole⟩ := List.append_of_mem ((SortedMap.mem_toList_iff _ _ _).mpr found)
    refine ⟨front.map fun pair => (pair.1.quotient divisor, pair.2),
      back.map fun pair => (pair.1.quotient divisor, pair.2), by rw [whole, List.map_append]; rfl, ?_⟩
    rw [List.forall_mem_map]
    intro pair behind same
    obtain ⟨held, later⟩ := (SortedMap.mem_behind_iff whole).mp behind
    have order : timestamp < pair.1 := Std.compare_eq_lt.mp later
    have absent := last pair.1 order same
    rw [SortedMap.contains, held] at absent
    cases absent

/-! ## Both ways of making a group -/

/-- The members have at each timestamp the aggregate of the values that are there. -/
def Aggregator.Agrees (aggregator : Aggregator) (members : List TimedValues) : Prop :=
  ∀ timestamp, (mergeMembers aggregator members).get? timestamp
    = aggregator.ofValues (valuesAt members timestamp)

/-- If there is a single member, the values that it has at the given timestamps are kept. -/
def Aggregator.KeepsAlone (aggregator : Aggregator) (members : List TimedValues)
    (timestamps : Timestamp → Prop) : Prop :=
  ∀ member, members = [member] → ∀ timestamp, timestamps timestamp → ∀ value,
    member.get? timestamp = some value → aggregator.Keeps value

/-- What becomes of the members of a group.  The merged points are those at the timestamps of the
members; several members have there the aggregate of their values, and a single one is taken as it
is.  The two ways agree, and a further member without a timestamp does not change the value there,
exactly if a single member has values that the aggregator keeps; the aggregators that keep all
values are those that choose one.  In units of the divisor the last timestamp of each unit counts. -/
structure Combines (aggregator : Aggregator) (divisor : Timestamp) (members : List TimedValues) :
    Prop where
  occurs : ∀ timestamp, (mergeMembers aggregator members).contains timestamp = true
    ↔ ∃ member ∈ members, member.contains timestamp = true
  several : members.length ≠ 1 → aggregator.Agrees members
  alone : ∀ member, members = [member] → mergeMembers aggregator members = member
  agrees_iff : aggregator.Agrees members ↔ aggregator.KeepsAlone members fun _ => True
  joined : ∀ front back, members = front ++ back → members ≠ [] → ∀ extra timestamp,
    extra.get? timestamp = none →
      (mergeMembers aggregator (front ++ extra :: back)).get? timestamp
        = aggregator.ofValues (valuesAt members timestamp)
  joined_iff : ∀ front back, members = front ++ back → members ≠ [] → ∀ extra timestamp,
    extra.get? timestamp = none →
      ((mergeMembers aggregator (front ++ extra :: back)).get? timestamp
          = (mergeMembers aggregator members).get? timestamp
        ↔ aggregator.KeepsAlone members fun other => other = timestamp)
  chooses_iff : aggregator.chooses = true ↔ ∀ value, aggregator.Keeps value
  reported : ∀ unit value, (inUnits divisor (mergeMembers aggregator members)).get? unit = some value
    ↔ ∃ timestamp, (mergeMembers aggregator members).get? timestamp = some value
      ∧ timestamp.quotient divisor = unit
      ∧ ∀ later, timestamp < later → later.quotient divisor = unit →
        (mergeMembers aggregator members).contains later = false

section Members

variable {aggregator : Aggregator} {members : List TimedValues}

/-- At a timestamp the two ways agree if what a single member has there is kept. -/
theorem get?_mergeMembers_eq_iff (few : members.length < 2 ^ 63) (timestamp : Timestamp) :
    (mergeMembers aggregator members).get? timestamp
        = aggregator.ofValues (valuesAt members timestamp)
      ↔ aggregator.KeepsAlone members fun other => other = timestamp := by
  by_cases alone : members.length = 1
  · obtain ⟨member, rfl⟩ := List.length_eq_one_iff.mp alone
    have single : valuesAt [member] timestamp = (member.get? timestamp).toList := by
      cases found : member.get? timestamp <;> simp [valuesAt, found]
    rw [mergeMembers, single]
    constructor
    · rintro same _ ⟨⟩ _ rfl value found
      rw [found] at same
      exact same.symm
    · intro kept
      cases found : member.get? timestamp with
      | none => exact aggregator.aggregate_nil.symm
      | some value => exact (kept member rfl timestamp rfl value found).symm
  · refine iff_of_true (get?_mergeMembers_values aggregator alone few.le timestamp) ?_
    rintro member rfl
    exact absurd rfl alone

/-- A further member without the timestamp leaves the values there, and then there are several. -/
theorem get?_mergeMembers_joined {front back : List TimedValues} (few : (front ++ back).length < 2 ^ 63)
    (some_members : front ++ back ≠ []) {extra : TimedValues} {timestamp : Timestamp}
    (absent : extra.get? timestamp = none) :
    (mergeMembers aggregator (front ++ extra :: back)).get? timestamp
      = aggregator.ofValues (valuesAt (front ++ back) timestamp) := by
  have count : (front ++ extra :: back).length = (front ++ back).length + 1 := by
    simp only [List.length_append, List.length_cons]
    omega
  have positive := List.length_pos_iff.mpr some_members
  rw [get?_mergeMembers_values aggregator (by omega) (by omega)]
  congr 1
  rw [valuesAt, valuesAt, List.filterMap_append, List.filterMap_append, List.filterMap_cons, absent]

/-- **What the members of a group are combined to**, as long as there are less than `2 ^ 63` of
them; no list in memory is longer. -/
theorem combines_members (aggregator : Aggregator) (divisor : Timestamp)
    (few : members.length < 2 ^ 63) : Combines aggregator divisor members where
  occurs := contains_mergeMembers aggregator members
  several := fun several => get?_mergeMembers_values aggregator several few.le
  alone := by
    rintro member rfl
    rfl
  agrees_iff := by
    simp only [Aggregator.Agrees, get?_mergeMembers_eq_iff few]
    constructor
    · intro kept member same timestamp _
      exact kept timestamp member same timestamp rfl
    · intro kept timestamp member same other _
      exact kept member same other trivial
  joined := by
    rintro front back rfl some_members extra timestamp absent
    exact get?_mergeMembers_joined few some_members absent
  joined_iff := by
    rintro front back rfl some_members extra timestamp absent
    rw [get?_mergeMembers_joined few some_members absent, ← get?_mergeMembers_eq_iff few, eq_comm]
  chooses_iff := aggregator.chooses_iff
  reported := fun _ _ => get?_inUnits_eq_some_iff

end Members

/-- The count of a lone member is the value itself, and it becomes one as soon as there is another
member, also if that one has no value at the timestamp. -/
theorem combines_members_of_one :
    let member : TimedValues := .ofList [(1000, .infinity)]
    let extra : TimedValues := .ofList [(2000, .zero)]
    (mergeMembers .count [member]).get? 1000 = some .infinity
      ∧ (mergeMembers .count [member, extra]).get? 1000 = some (Binary64.ofNat 1) := by
  have combined : Combines .count 1000 [.ofList [(1000, .infinity)]] :=
    combines_members .count 1000 (by decide)
  refine ⟨?_, ?_⟩
  · rw [combined.alone _ rfl]
    rfl
  · exact combined.joined [_] [] rfl (List.cons_ne_nil _ _) _ 1000 rfl

end TimeSeries
