import TimeSeries.Aggregator.Accumulator
import TimeSeries.Proofs.Numbers.Rounding
import TimeSeries.Proofs.Percentiles.Ranks

/-!
# The rank of a percentile

The nearest rank of a percentage is the least one that has the percentage of the values, or more, up
to it (`Percent.nearest_le_iff`).  It is computed with doubles: a hundredth of the percentage, times
the number of values, rounded up.  Both steps round, and for up to `2 ^ 45` values what they change
is less than a hundredth (`Percent.exists_share`).  So the rank computed is the nearest one, except
that it may be the next one where the share is a whole number, which rounding can take the share
beyond.

A hundredth that is above the true one by no more than half of what rounding may change does not
take the share beyond a whole number (`Binary64.RoundsTo.le_of_slightly_above`).  The percentages
with another hundredth are twelve (`Percent.overshooting`), and each of them has numbers of values
for which the rank computed is the next one: 28 percent of 25 values are 7 values, the product of
doubles is slightly above 7, and the value shown is the eighth.

Main statement: `Aggregator.percentile_rank`.
-/

set_option autoImplicit false

namespace TimeSeries

open Binary64 (IsRanked)

namespace Percent

/-- The nearest rank: the least one that is the percentage of the count or more. -/
def nearest (percent count : ℕ) : ℕ :=
  (percent * count + 99) / 100

/-- The share of a percentage, as it is computed. -/
def share (percent count : ℕ) : Binary64 :=
  Binary64.ofNat percent / Binary64.ofNat 100 * Binary64.ofNat count

/-- The rank of a percentage, as it is computed. -/
def computed (percent count : ℕ) : ℕ :=
  Nat.max 1 (Nat.min count (share percent count).ceilNat)

/-- The percentages whose hundredth part is rounded up by more than one part in `2 ^ 54`. -/
def overshooting : List ℕ :=
  [7, 14, 17, 27, 28, 34, 54, 55, 56, 67, 68, 81]

variable {percent count : ℕ}

theorem nearest_le_iff {rank : ℕ} :
    nearest percent count ≤ rank ↔ percent * count ≤ 100 * rank := by
  unfold nearest
  omega

/-! ## The share of a percentage -/

/-- The bits of a hundredth part. -/
def hundredthBits (percent : ℕ) : ℕ :=
  (Binary64.ofNat percent / Binary64.ofNat 100).bits.toNat

/-- The hundredths of all percentages. -/
theorem hundredths : ∀ percent < 100, 0 < percent →
    let bits := hundredthBits percent
    let significand := bits % 2 ^ 52 + 2 ^ 52
    let scale := 1075 - bits / 2 ^ 52
    (75 ≤ bits / 2 ^ 52 ∧ bits / 2 ^ 52 ≤ 1075)
      ∧ 2 ^ 53 * (100 * significand) ≤ (2 ^ 53 + 1) * (percent * 2 ^ scale)
      ∧ 2 ^ 53 * (percent * 2 ^ scale) ≤ 2 ^ 53 * (100 * significand) + percent * 2 ^ scale
      ∧ (percent ∉ overshooting
          → 2 ^ 54 * (100 * significand) ≤ (2 ^ 54 + 1) * (percent * 2 ^ scale)) := by
  decide +kernel

theorem exists_hundredth (positive : 0 < percent) (below : percent < 100) :
    ∃ hundredth : ℚ, (Binary64.ofNat percent / Binary64.ofNat 100).Denotes hundredth
      ∧ |hundredth - percent / 100| ≤ percent / 100 / 2 ^ 53
      ∧ (percent ∉ overshooting → hundredth ≤ percent / 100 + percent / 100 / 2 ^ 54) := by
  obtain ⟨⟨least, most⟩, above, under, slightly⟩ := hundredths percent below positive
  generalize bits_eq : hundredthBits percent = bits at least most above under slightly
  generalize significand_eq : bits % 2 ^ 52 + 2 ^ 52 = significand at above under slightly
  generalize scale_eq : 1075 - bits / 2 ^ 52 = scale at above under slightly
  have normal : (Binary64.ofNat percent / Binary64.ofNat 100).IsNormal significand scale := by
    refine ⟨by omega, by omega, by omega, ?_⟩
    show hundredthBits percent = _
    omega
  have two_pow : (0 : ℚ) < 2 ^ scale := by positivity
  refine ⟨significand / 2 ^ scale, ⟨significand, scale, normal, rfl⟩, ?_, fun exempt => ?_⟩
  · have above_cast : (2 : ℚ) ^ 53 * (100 * significand)
        ≤ (2 ^ 53 + 1) * (percent * 2 ^ scale) := by
      exact_mod_cast above
    have under_cast : (2 : ℚ) ^ 53 * (percent * 2 ^ scale)
        ≤ 2 ^ 53 * (100 * significand) + percent * 2 ^ scale := by
      exact_mod_cast under
    rw [abs_le]
    constructor
    · rw [le_sub_iff_add_le, le_div_iff₀ two_pow]
      linarith
    · rw [sub_le_iff_le_add, div_le_iff₀ two_pow]
      linarith
  · have slightly_cast : (2 : ℚ) ^ 54 * (100 * significand)
        ≤ (2 ^ 54 + 1) * (percent * 2 ^ scale) := by
      exact_mod_cast slightly exempt
    rw [div_le_iff₀ two_pow]
    linarith

/-- The share computed is less than a hundredth away from the true one; most percentages do not take
it beyond a whole number. -/
theorem exists_share (positive : 0 < percent) (below : percent < 100) (some_values : 0 < count)
    (count_le : count ≤ 2 ^ 45) :
    ∃ number : ℚ, (share percent count).Denotes number
      ∧ |number - percent * count / 100| < 1 / 100
      ∧ (percent ∉ overshooting → ∀ rank : ℕ, percent * count ≤ 100 * rank → number ≤ rank) := by
  obtain ⟨hundredth, denotes, near, slightly⟩ := exists_hundredth positive below
  have count_denotes : (Binary64.ofNat count).Denotes count :=
    Binary64.denotes_ofNat some_values (Nat.lt_of_le_of_lt count_le (by decide))
  have one_le : (1 : ℚ) ≤ count := by exact_mod_cast some_values
  have count_le_cast : (count : ℚ) ≤ 2 ^ 45 := by exact_mod_cast count_le
  have one_le_percent : (1 : ℚ) ≤ percent := by exact_mod_cast positive
  have percent_le : (percent : ℚ) ≤ 99 := by exact_mod_cast Nat.le_of_lt_succ below
  obtain ⟨under, above⟩ := abs_le.mp near
  have hundredth_ge : 1 / 200 ≤ hundredth := by linarith
  have hundredth_le : hundredth ≤ 1 := by linarith
  have product_ge : 1 / 200 * 1 ≤ hundredth * count := by gcongr
  have product_le : hundredth * count ≤ 1 * 2 ^ 45 := by gcongr
  have true_le : (percent : ℚ) * count ≤ 99 * 2 ^ 45 := by gcongr
  obtain ⟨number, number_denotes, rounds⟩ := denotes.mul count_denotes
    (le_trans (by norm_num) product_ge) (lt_of_le_of_lt product_le (by norm_num))
  have count_nonneg : (0 : ℚ) ≤ count := le_trans zero_le_one one_le
  have product_under := mul_le_mul_of_nonneg_right under count_nonneg
  have product_above := mul_le_mul_of_nonneg_right above count_nonneg
  obtain ⟨rounds_under, rounds_above⟩ := abs_le.mp rounds.near
  refine ⟨number, number_denotes, ?_, fun exempt rank enough => ?_⟩
  · -- Each of the two roundings changes the share by less than a two hundredth.
    rw [abs_lt]
    constructor
    · linarith
    · linarith
  · have enough_cast : (percent : ℚ) * count ≤ 100 * rank := by exact_mod_cast enough
    refine rounds.le_of_slightly_above ?_
    have product_slightly := mul_le_mul_of_nonneg_right (slightly exempt) count_nonneg
    linarith

/-! ## The rank of a percentage -/

/-- The nearest rank is among the ranks of the values. -/
theorem nearest_mem (positive : 0 < percent) (below : percent < 100) (some_values : 0 < count) :
    1 ≤ nearest percent count ∧ nearest percent count ≤ count := by
  constructor
  · by_contra none
    have := nearest_le_iff.mp (Nat.lt_succ_iff.mp (Nat.not_le.mp none))
    have := Nat.mul_pos positive some_values
    omega
  · exact nearest_le_iff.mpr (Nat.mul_le_mul_right count (Nat.le_of_lt below))

/-- The rank computed is among the ranks of the values. -/
theorem computed_mem (some_values : 0 < count) :
    1 ≤ computed percent count ∧ computed percent count ≤ count :=
  ⟨Nat.le_max_left _ _, Nat.max_le.mpr ⟨some_values, Nat.min_le_left _ _⟩⟩

/-- The share rounded up is where it belongs, unless the true share is a whole number. -/
theorem ceilNat_share (positive : 0 < percent) (below : percent < 100) (some_values : 0 < count)
    (count_le : count ≤ 2 ^ 45) :
    (∀ rank, 100 * rank < percent * count → rank < (share percent count).ceilNat)
      ∧ (∀ rank, percent * count < 100 * rank → (share percent count).ceilNat ≤ rank)
      ∧ (percent ∉ overshooting →
          ∀ rank, percent * count ≤ 100 * rank → (share percent count).ceilNat ≤ rank) := by
  obtain ⟨number, denotes, near, exempt⟩ := exists_share positive below some_values count_le
  obtain ⟨under, above⟩ := abs_lt.mp near
  refine ⟨fun rank more => ?_, fun rank less => ?_, fun kept rank enough => ?_⟩
  · rw [← Nat.not_le, denotes.ceilNat_le_iff]
    have : (100 * rank : ℚ) + 1 ≤ percent * count := by exact_mod_cast more
    intro number_le
    linarith
  · rw [denotes.ceilNat_le_iff]
    have : (percent * count : ℚ) + 1 ≤ 100 * rank := by exact_mod_cast less
    linarith
  · exact denotes.ceilNat_le_iff.mpr (exempt kept rank enough)

/-- The rank computed is the nearest one, or, for a whole share, the next one. -/
theorem computed_cases (positive : 0 < percent) (below : percent < 100) (some_values : 0 < count)
    (count_le : count ≤ 2 ^ 45) :
    computed percent count = nearest percent count
      ∨ percent ∈ overshooting ∧ 100 ∣ percent * count
        ∧ computed percent count = nearest percent count + 1 := by
  obtain ⟨least, most, exempt⟩ := ceilNat_share positive below some_values count_le
  obtain ⟨nearest_ge, nearest_le⟩ := nearest_mem positive below some_values
  have covers : percent * count ≤ 100 * nearest percent count := nearest_le_iff.mp (Nat.le_refl _)
  have tight : 100 * (nearest percent count - 1) < percent * count := by
    rw [← Nat.not_le, ← nearest_le_iff]
    omega
  have ceil_ge := least _ tight
  have ceil_le := most (nearest percent count + 1) (by omega)
  have unfolded : computed percent count = max 1 (min count (share percent count).ceilNat) := rfl
  by_cases kept : (share percent count).ceilNat ≤ nearest percent count
  case pos => exact .inl (by omega)
  case neg =>
      have whole : percent * count = 100 * nearest percent count := by
        refine Nat.le_antisymm covers (Nat.not_lt.mp fun less => kept (most _ less))
      have overshoots : percent ∈ overshooting := by
        by_contra exempted
        exact kept (exempt exempted _ covers)
      have room : percent * count ≤ 99 * count := Nat.mul_le_mul_right count (by omega)
      exact .inr ⟨overshoots, ⟨_, whole⟩, by omega⟩

/-- Each of the overshooting percentages passes the nearest rank of some number of values. -/
theorem computed_of_overshooting : ∀ percent ∈ overshooting,
    ∃ count ∈ [25, 50, 75, 100, 150, 300, 450, 900, 1500],
      (0 < count ∧ count ≤ 2 ^ 45) ∧ computed percent count ≠ nearest percent count := by
  decide +kernel

end Percent

namespace Accumulator

theorem nearestRank_eq (percent : Percent) (values : List Binary64) :
    nearestRank percent values
      = (values.mergeSort Binary64.totalOrder)[
          Percent.computed percent.value values.length - 1]? := by
  rw [nearestRank, List.length_mergeSort]
  rfl

theorem foldl_add_percentile (percent : Percent) (values : List Binary64) (points : List Point) :
    points.foldl (fun (accumulator : Accumulator) point => accumulator.add point)
        (.percentile percent values)
      = .percentile percent ((points.map Point.value).reverse ++ values) := by
  induction points generalizing values with
  | nil => rfl
  | cons point rest ih =>
      rw [List.foldl_cons, List.map_cons, List.reverse_cons, List.append_assoc]
      exact ih (point.value :: values)

end Accumulator

namespace Aggregator

variable {percent : Percent} {points : List Point}

/-- A percentile of points is the value at a place of the sorted values. -/
theorem aggregate_percentile (some_points : points ≠ []) :
    (percentile percent).aggregate points
      = ((points.map Point.value).mergeSort Binary64.totalOrder)[
          Percent.computed percent.value points.length - 1]? := by
  have some_values : (points.map Point.value).reverse ≠ [] := by simpa using some_points
  rw [aggregate, accumulator, Accumulator.foldl_add_percentile, List.append_nil, Accumulator.result,
    if_neg (mt List.isEmpty_iff.mp some_values), Accumulator.nearestRank_eq, List.length_reverse,
    List.length_map, Binary64.mergeSort_eq_of_perm (List.reverse_perm _)]

theorem exists_isRanked (percent : Percent) (some_points : points ≠ []) :
    ∃ value, (percentile percent).aggregate points = some value
      ∧ IsRanked (points.map Point.value) (Percent.computed percent.value points.length) value := by
  obtain ⟨rank_ge, rank_le⟩ : 1 ≤ Percent.computed percent.value points.length
      ∧ Percent.computed percent.value points.length ≤ points.length :=
    Percent.computed_mem (List.length_pos_iff.mpr some_points)
  have within : Percent.computed percent.value points.length - 1
      < (points.map Point.value).length := by
    rw [List.length_map]
    omega
  obtain ⟨value, found, ranked⟩ := Binary64.isRanked_getElem (points.map Point.value) within
  rw [Nat.sub_add_cancel rank_ge] at ranked
  exact ⟨value, (aggregate_percentile some_points).trans found, ranked⟩

/-- The order of the points does not matter to a percentile. -/
theorem aggregate_percentile_of_perm {others : List Point} (some_points : points ≠ [])
    (perm : (others.map Point.value).Perm (points.map Point.value)) :
    (percentile percent).aggregate others = (percentile percent).aggregate points := by
  have lengths : others.length = points.length := by simpa using perm.length_eq
  have some_others : others ≠ [] := by
    rwa [← List.length_pos_iff, lengths, List.length_pos_iff]
  rw [aggregate_percentile some_points, aggregate_percentile some_others, lengths,
    Binary64.mergeSort_eq_of_perm perm]

/-- As many points, with different values. -/
def distinctPoints (count : ℕ) : List Point :=
  (List.range count).map fun number => ⟨0, ⟨UInt64.ofNat number⟩⟩

theorem length_distinctPoints (count : ℕ) : (distinctPoints count).length = count := by
  rw [distinctPoints, List.length_map, List.length_range]

theorem nodup_distinctPoints {count : ℕ} (count_le : count ≤ 2 ^ 45) :
    ((distinctPoints count).map Point.value).Nodup := by
  rw [distinctPoints, List.map_map]
  refine List.Nodup.map_on (fun first first_mem second second_mem same => ?_) List.nodup_range
  have bits : UInt64.ofNat first = UInt64.ofNat second := congrArg Binary64.bits same
  have first_lt := List.mem_range.mp first_mem
  have second_lt := List.mem_range.mp second_mem
  rw [← UInt64.toNat_inj, UInt64.toNat_ofNat', UInt64.toNat_ofNat', Nat.mod_eq_of_lt (by omega),
    Nat.mod_eq_of_lt (by omega)] at bits
  exact bits

/-- Different values have one rank each, so where the rank computed is another one than the nearest
it shows in the value. -/
theorem not_isRanked_distinctPoints {count : ℕ} (some_points : distinctPoints count ≠ [])
    (count_le : count ≤ 2 ^ 45)
    (passed : Percent.computed percent.value count ≠ Percent.nearest percent.value count)
    {value : Binary64}
    (shown : (percentile percent).aggregate (distinctPoints count) = some value) :
    ¬ IsRanked ((distinctPoints count).map Point.value)
        (Percent.nearest percent.value count) value := by
  obtain ⟨value', shown', ranked'⟩ := exists_isRanked percent some_points
  obtain rfl : value = value' := Option.some_inj.mp (shown.symm.trans shown')
  rw [length_distinctPoints] at ranked'
  exact fun ranked => passed (ranked'.rank_unique (nodup_distinctPoints count_le) ranked)

/-- **The rank of a percentile.**  Every percentile of some points is the value at a rank, whatever
the order of the points.  For up to `2 ^ 45` points, the values of which fill `2 ^ 48` bytes, the
rank is the nearest one, or the next one if the share of the percentage is a whole number of points.
It is always the nearest one for all percentages but twelve. -/
theorem percentile_rank (percent : Percent) :
    (∀ points : List Point, points ≠ [] → ∃ rank value,
        (percentile percent).aggregate points = some value
          ∧ IsRanked (points.map Point.value) rank value
          ∧ (points.length ≤ 2 ^ 45 →
              rank = Percent.nearest percent.value points.length
                ∨ 100 ∣ percent.value * points.length
                  ∧ rank = Percent.nearest percent.value points.length + 1)
          ∧ ∀ others : List Point, (others.map Point.value).Perm (points.map Point.value) →
              (percentile percent).aggregate others = some value)
      ∧ (percent.value ∉ Percent.overshooting ↔
          ∀ points : List Point, points ≠ [] → points.length ≤ 2 ^ 45 → ∃ value,
            (percentile percent).aggregate points = some value
              ∧ IsRanked (points.map Point.value)
                  (Percent.nearest percent.value points.length) value) := by
  have positive : 0 < percent.value := percent.one_le
  have below : percent.value < 100 := Nat.lt_succ_of_le percent.le_ninetyNine
  refine ⟨fun points some_points => ?_, fun kept points some_points length_le => ?_,
    fun always => ?_⟩
  · obtain ⟨value, shown, ranked⟩ := exists_isRanked percent some_points
    refine ⟨_, value, shown, ranked, fun length_le => ?_, fun others perm => ?_⟩
    · obtain nearest | ⟨-, whole, next⟩ :=
        Percent.computed_cases positive below (List.length_pos_iff.mpr some_points) length_le
      · exact .inl nearest
      · exact .inr ⟨whole, next⟩
    · rw [aggregate_percentile_of_perm some_points perm, shown]
  · obtain nearest | ⟨overshoots, -⟩ :=
      Percent.computed_cases positive below (List.length_pos_iff.mpr some_points) length_le
    · rw [← nearest]
      exact exists_isRanked percent some_points
    · exact absurd overshoots kept
  · intro overshoots
    obtain ⟨count, -, ⟨count_pos, count_le⟩, passed⟩ :=
      Percent.computed_of_overshooting _ overshoots
    have length_eq := length_distinctPoints count
    have some_points : distinctPoints count ≠ [] := by
      rwa [← List.length_pos_iff, length_eq]
    obtain ⟨value, shown, ranked⟩ := always _ some_points (by rwa [length_eq])
    rw [length_eq] at ranked
    exact not_isRanked_distinctPoints some_points count_le passed shown ranked

/-- Of 25 different values 28 percent are 7, and the value shown is the eighth. -/
theorem percentile_rank_passed :
    distinctPoints 25 ≠ []
      ∧ (percentile (Percent.clamp 28)).aggregate (distinctPoints 25) = some ⟨7⟩
      ∧ Percent.nearest 28 25 = 7
      ∧ IsRanked ((distinctPoints 25).map Point.value) 8 ⟨7⟩ := by
  have some_points : distinctPoints 25 ≠ [] := by decide
  have eighth : (percentile (Percent.clamp 28)).aggregate (distinctPoints 25) = some ⟨7⟩ := by
    rw [aggregate_percentile some_points, List.mergeSort_of_pairwise (by decide +kernel)]
    decide +kernel
  obtain ⟨rank, value, shown, ranked, near, -⟩ :=
    (percentile_rank (Percent.clamp 28)).1 (distinctPoints 25) some_points
  obtain rfl : value = ⟨7⟩ := Option.some_inj.mp (shown.symm.trans eighth)
  refine ⟨some_points, eighth, rfl, ?_⟩
  obtain rfl | ⟨-, rfl⟩ := near (by decide)
  · exact absurd ranked.below (by decide +kernel)
  · exact ranked

end Aggregator

end TimeSeries
