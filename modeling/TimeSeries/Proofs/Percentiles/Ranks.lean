import Mathlib.Data.List.Sort
import Mathlib.Data.Nat.Bitwise
import TimeSeries.Binary64

/-!
# Values at a rank

The value at a rank, counted from one and with multiplicity, has fewer values below it than the rank
says, and at least as many that are not above it (`IsRanked`).  The rank is the place of the value
in the sorted list (`isRanked_getElem`), and as different bit patterns have different places in the
total order (`Binary64.rank_injective`), the sorted list depends on the values alone, not on the
order in which they are given (`mergeSort_eq_of_perm`).
-/

set_option autoImplicit false

namespace TimeSeries

namespace Binary64

/-! ## The total order -/

theorem and_signBit_eq_zero_iff (bits : UInt64) :
    bits &&& signBit = 0 ↔ bits.toNat.testBit 63 = false := by
  rw [← UInt64.toNat_inj, UInt64.toNat_and]
  show bits.toNat &&& 2 ^ 63 = 0 ↔ _
  rw [Nat.and_two_pow]
  cases bits.toNat.testBit 63 <;> decide

/-- Patterns with the sign bit come first. -/
theorem testBit_rank (value : Binary64) :
    value.rank.toNat.testBit 63 = !value.bits.toNat.testBit 63 := by
  unfold rank
  split
  case isTrue positive =>
      rw [UInt64.toNat_xor, Nat.testBit_xor, show signBit.toNat.testBit 63 = true by decide,
        Bool.xor_true]
  case isFalse negative =>
      have complement : (~~~value.bits).toNat = 2 ^ 64 - (value.bits.toNat + 1) := by
        rw [UInt64.toNat_not]
        show 2 ^ 64 - 1 - value.bits.toNat = _
        omega
      rw [complement, Nat.testBit_two_pow_sub_succ value.bits.toNat_lt]
      rfl

theorem rank_injective {left right : Binary64} (same : left.rank = right.rank) : left = right := by
  have signs : left.bits.toNat.testBit 63 = right.bits.toNat.testBit 63 := by
    have tops := congrArg (fun rank => rank.toNat.testBit 63) same
    simp only [testBit_rank] at tops
    exact Bool.not_inj tops
  have bits : left.bits = right.bits := by
    unfold rank at same
    simp only [and_signBit_eq_zero_iff, signs] at same
    split at same
    case isTrue => exact (UInt64.xor_left_inj signBit).mp same
    case isFalse => exact UInt64.not_inj.mp same
  show Binary64.mk left.bits = Binary64.mk right.bits
  rw [bits]

theorem totalOrder_antisymm {left right : Binary64} (below : left.totalOrder right = true)
    (above : right.totalOrder left = true) : left = right :=
  rank_injective (UInt64.le_antisymm (of_decide_eq_true below) (of_decide_eq_true above))

theorem totalOrder_trans (first second third : Binary64) (low : first.totalOrder second = true)
    (high : second.totalOrder third = true) : first.totalOrder third = true :=
  decide_eq_true (UInt64.le_trans (of_decide_eq_true low) (of_decide_eq_true high))

theorem totalOrder_total (left right : Binary64) :
    (left.totalOrder right || right.totalOrder left) = true := by
  rw [Bool.or_eq_true]
  exact (UInt64.le_total left.rank right.rank).imp decide_eq_true decide_eq_true

theorem totalOrder_refl (value : Binary64) : value.totalOrder value = true :=
  decide_eq_true (UInt64.le_refl value.rank)

theorem pairwise_mergeSort (values : List Binary64) :
    (values.mergeSort totalOrder).Pairwise fun left right => left.totalOrder right = true :=
  List.pairwise_mergeSort totalOrder_trans totalOrder_total values

theorem mergeSort_eq_of_perm {values others : List Binary64} (perm : values.Perm others) :
    values.mergeSort totalOrder = others.mergeSort totalOrder :=
  List.Perm.eq_of_pairwise (fun _ _ _ _ => totalOrder_antisymm) (pairwise_mergeSort values)
    (pairwise_mergeSort others)
    (((List.mergeSort_perm values _).trans perm).trans (List.mergeSort_perm others _).symm)

/-! ## Ranks -/

/-- Among some values this one has a rank, counted from one: fewer values are below it, and at
least as many are not above it. -/
structure IsRanked (values : List Binary64) (rank : Nat) (value : Binary64) : Prop where
  mem : value ∈ values
  below : values.countP (fun other => !value.totalOrder other) < rank
  within : rank ≤ values.countP fun other => other.totalOrder value

theorem IsRanked.of_perm {values others : List Binary64} {rank : Nat} {value : Binary64}
    (ranked : IsRanked values rank value) (perm : values.Perm others) :
    IsRanked others rank value :=
  ⟨perm.mem_iff.mp ranked.mem, perm.countP_eq _ ▸ ranked.below, perm.countP_eq _ ▸ ranked.within⟩

/-- In a sorted list the rank is the place. -/
theorem isRanked_append {before after : List Binary64} {value : Binary64}
    (sorted : (before ++ value :: after).Pairwise fun left right => left.totalOrder right = true) :
    IsRanked (before ++ value :: after) (before.length + 1) value := by
  obtain ⟨-, tail, apart⟩ := List.pairwise_append.mp sorted
  have reflexive := totalOrder_refl value
  have none_below : (value :: after).countP (fun other => !value.totalOrder other) = 0 := by
    refine List.countP_eq_zero.mpr fun other member below => ?_
    obtain rfl | behind := List.mem_cons.mp member
    · rw [reflexive] at below
      contradiction
    · rw [(List.pairwise_cons.mp tail).1 other behind] at below
      contradiction
  have all_within : before.countP (fun other => other.totalOrder value) = before.length :=
    List.countP_eq_length.mpr fun other member => apart other member value List.mem_cons_self
  refine ⟨List.mem_append_right _ List.mem_cons_self, ?_, ?_⟩
  · rw [List.countP_append, none_below]
    exact Nat.lt_succ_of_le List.countP_le_length
  · rw [List.countP_append, all_within, List.countP_cons, if_pos reflexive]
    omega

theorem isRanked_getElem (values : List Binary64) {index : Nat} (lt : index < values.length) :
    ∃ value, (values.mergeSort totalOrder)[index]? = some value
      ∧ IsRanked values (index + 1) value := by
  have lt' : index < (values.mergeSort totalOrder).length := by rwa [List.length_mergeSort]
  refine ⟨(values.mergeSort totalOrder)[index], List.getElem?_eq_getElem lt', ?_⟩
  have sorted := pairwise_mergeSort values
  have perm := List.mergeSort_perm values totalOrder
  generalize values.mergeSort totalOrder = list at lt' sorted perm ⊢
  have split : list.take index ++ list[index] :: list.drop (index + 1) = list := by
    rw [List.getElem_cons_drop, List.take_append_drop]
  refine IsRanked.of_perm ?_ perm
  rw [← split] at sorted
  have ranked := isRanked_append sorted
  rwa [split, List.length_take_of_le (Nat.le_of_lt lt')] at ranked

/-- The values that are not above a value are those below it and its own occurrences. -/
theorem countP_totalOrder (values : List Binary64) (value : Binary64) :
    values.countP (fun other => other.totalOrder value)
      = values.countP (fun other => !value.totalOrder other) + values.count value := by
  induction values with
  | nil => rfl
  | cons head rest ih =>
      rw [List.countP_cons, List.countP_cons, List.count_cons, ih]
      obtain rfl | different := eq_or_ne head value
      · rw [totalOrder_refl, if_pos rfl, if_neg (by decide), if_pos (beq_self_eq_true head)]
        omega
      · have one_way : head.totalOrder value = !value.totalOrder head := by
          cases below : head.totalOrder value
          case true =>
              cases above : value.totalOrder head
              case true => exact absurd (totalOrder_antisymm below above) different
              case false => rfl
          case false =>
              have total := totalOrder_total head value
              rw [below, Bool.false_or] at total
              rw [total]
              rfl
        rw [one_way, beq_false_of_ne different, if_neg Bool.false_ne_true]
        omega

/-- Among different values, a value has one rank only. -/
theorem IsRanked.rank_unique {values : List Binary64} (distinct : values.Nodup) {rank other : Nat}
    {value : Binary64} (ranked : IsRanked values rank value)
    (ranked' : IsRanked values other value) : rank = other := by
  have once := countP_totalOrder values value
  rw [List.count_eq_one_of_mem distinct ranked.mem] at once
  have := ranked.below
  have := ranked.within
  have := ranked'.below
  have := ranked'.within
  omega

end Binary64

end TimeSeries
