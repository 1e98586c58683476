/-!
# Orders of compound keys

Keys with several components are compared component by component.  A pair compares as its first
components do, and as the second ones do where the first are equal; a structure compares as the
nested pair of its components, its rank.  Such an order is total and lawful when the orders of the
components are, which the instances below say for pairs and `transOrd_on` and `lawfulEqOrd_on` for
structures.
-/

set_option autoImplicit false

namespace TimeSeries

variable {α β : Type}

/-- Pairs are ordered by the first component and then by the second. -/
instance pairOrd [Ord α] [Ord β] : Ord (α × β) :=
  ⟨fun left right => (compare left.1 right.1).then (compare left.2 right.2)⟩

theorem compare_pair [Ord α] [Ord β] (left right : α × β) :
    compare left right = (compare left.1 right.1).then (compare left.2 right.2) := rfl

instance pairTransOrd [Ord α] [Ord β] [Std.TransOrd α] [Std.TransOrd β] : Std.TransOrd (α × β) where
  eq_swap := by
    intro left right
    rw [compare_pair, compare_pair, Ordering.swap_then,
      ← (Std.OrientedOrd.eq_swap : compare left.1 right.1 = _),
      ← (Std.OrientedOrd.eq_swap : compare left.2 right.2 = _)]
  isLE_trans := by
    intro left middle right first second
    rw [compare_pair, Ordering.isLE_then_iff_or] at *
    rcases first with first | ⟨first, firstRest⟩
    · left
      rcases second with second | ⟨second, _⟩
      · exact Std.TransCmp.lt_trans first second
      · exact Std.TransCmp.lt_of_lt_of_eq first second
    · rcases second with second | ⟨second, secondRest⟩
      · left
        exact Std.TransCmp.lt_of_eq_of_lt first second
      · right
        exact ⟨Std.TransCmp.eq_trans first second, Std.TransCmp.isLE_trans firstRest secondRest⟩

instance pairLawfulEqOrd [Ord α] [Ord β] [Std.LawfulEqOrd α] [Std.LawfulEqOrd β] :
    Std.LawfulEqOrd (α × β) where
  compare_self := by
    intro pair
    rw [compare_pair, Std.ReflOrd.compare_self, Std.ReflOrd.compare_self]
    rfl
  eq_of_compare := by
    intro left right same
    rw [compare_pair, Ordering.then_eq_eq] at same
    exact Prod.ext (Std.LawfulEqCmp.eq_of_compare same.1) (Std.LawfulEqCmp.eq_of_compare same.2)

/-- Comparing by rank is total and transitive when the order of ranks is. -/
theorem transOrd_on [Ord β] [Std.TransOrd β] (rank : α → β) : Std.TransCmp (compareOn rank) :=
  inferInstance

/-- Comparing by rank tells different things apart when their ranks differ. -/
theorem lawfulEqOrd_on [Ord β] [Std.LawfulEqOrd β] (rank : α → β)
    (injective : ∀ {left right : α}, rank left = rank right → left = right) :
    Std.LawfulEqCmp (compareOn rank) where
  compare_self := Std.ReflOrd.compare_self
  eq_of_compare same := injective (Std.LawfulEqCmp.eq_of_compare same)

end TimeSeries
