import TimeSeries.Proofs.Cursor.Calls
import TimeSeries.Proofs.Cursor.Corruption

/-!
# What a range selects of sorted entries

Every stack reads its entries through a cursor over a sorted list.  A seek looks for the start of the
range in the whole list, whatever was sought or read before, and the end of the range is tested only
when the top is asked for.  That these two agree with the range as a predicate on keys rests on the
order of the list alone: from some place on no key is before the range, and from some place on all
are behind it.

Sorting and leaving entries out commute, so that the order of entries with one key is that in which
they were given.

Main statement: `SortedEntries.drain_selects`.
-/

set_option autoImplicit false

namespace TimeSeries

/-- Reading to the end is moving on once for each entry. -/
theorem Cursor.Presents.fst_drain {σ : Type} [Cursor σ] {cursor : σ} {entries : List Entry}
    (presents : Presents cursor entries) :
    (Cursor.drain cursor).1 = nexts entries.length cursor := by
  induction presents with
  | finished nothing =>
      unfold Cursor.drain
      split
      · rfl
      case _ found => rw [nothing] at found; cases found
  | @entry cursor later first rest here moved onward ih =>
      unfold Cursor.drain
      split
      case _ found => rw [here] at found; cases found
      case _ found =>
        rw [List.length_cons, nexts_succ, moved]
        exact ih

namespace SortedEntries

variable {cursor : SortedEntries}

/-- However the start of the range is searched for, there is one place to be found: all entries in
front of it are before the range, and none behind it is. -/
theorem rest_seek {range : KeyRange} {front back : List Entry}
    (parted : cursor.entries = front ++ back)
    (before : ∀ entry ∈ front, range.startsAfter entry.key = true)
    (within : ∀ entry ∈ back, range.startsAfter entry.key = false) :
    (Cursor.seek range cursor).1.rest = back := by
  show cursor.entries.dropWhile _ = back
  rw [parted, List.dropWhile_append_of_pos before]
  cases back with
  | nil => rfl
  | cons entry back =>
      exact List.dropWhile_cons_of_neg (by simp [within entry List.mem_cons_self])

theorem nexts_eq (count : Nat) :
    Cursor.nexts count cursor = { cursor with rest := cursor.rest.drop count } := by
  induction count generalizing cursor with
  | zero => rfl
  | succ count ih =>
      rw [Cursor.nexts_succ, ih]
      show ({ cursor with rest := cursor.rest.tail.drop count } : SortedEntries) = _
      rw [List.drop_tail]

/-- Of a list that satisfies a predicate up to some place, nothing in front of it is left out. -/
theorem getElem?_filter {α : Type} {keep : α → Bool} {items : List α}
    (ordered : items.Pairwise fun first second => keep second = true → keep first = true)
    (place : Nat) : (items.filter keep)[place]? = items[place]?.filter keep := by
  induction items generalizing place with
  | nil => rfl
  | cons item items ih =>
      obtain ⟨here, later⟩ := List.pairwise_cons.mp ordered
      by_cases kept : keep item = true
      · rw [List.filter_cons_of_pos kept]
        cases place with
        | zero => simp [Option.filter, kept]
        | succ place => exact ih later place
      · have none_kept : ∀ other ∈ item :: items, ¬ keep other = true := by
          rintro other (_ | ⟨_, behind⟩)
          · exact kept
          · exact mt (here other behind) kept
        rw [List.filter_eq_nil_iff.mpr none_kept, List.getElem?_nil, eq_comm,
          Option.filter_eq_none_iff]
        exact fun other found => none_kept other (List.mem_of_getElem? found)

/-- After so many moves the top is the entry at this place of those from the start of the range to its
end, and there is none behind the last of them. -/
theorem top_nexts_seek (range : KeyRange)
    (sorted : cursor.entries.Pairwise fun first second =>
      (compare first.key second.key).isLE = true) (count : Nat) :
    Cursor.top (Cursor.nexts count (Cursor.seek range cursor).1)
      = (cursor.entries.filter fun entry => range.contains entry.key)[count]? := by
  let rest := cursor.entries.dropWhile fun entry => range.startsAfter entry.key
  have ordered : rest.Pairwise fun first second =>
      (!range.stopsBefore second.key) = true → (!range.stopsBefore first.key) = true := by
    refine (sorted.sublist (List.dropWhile_sublist _)).imp fun notAfter => ?_
    rw [Bool.not_eq_true', Bool.not_eq_true', Bool.eq_false_iff, Bool.eq_false_iff]
    exact mt (KeyRange.stopsBefore_of_le notAfter)
  rw [← takeWhile_dropWhile_eq_filter range sorted, takeWhile_eq_filter ordered,
    getElem?_filter ordered, nexts_eq, ← List.head?_drop]
  rfl

/-- **Seek and drain select exactly the range.**  For entries in any order, with any keys more than
once, whatever was sought or read before and for any range, a seek does not fail, and reading on from
there ends, after one move for each entry, without failure: nothing is on top then, nor after any
further moves.  What is read are the entries whose key lies in the range, each as often as it was
given, in the order of their keys, and those of one key in the order in which they were given. -/
theorem drain_selects (entries : List Entry) (earlier : List Cursor.Call) (range : KeyRange) :
    ∃ sought output,
      Cursor.seek range (Cursor.after earlier (ofList entries)) = (sought, none)
        ∧ Cursor.drain sought = (Cursor.nexts output.length sought, .ok output)
        ∧ (∀ count, Cursor.top (Cursor.nexts count sought) = output[count]?)
        ∧ output.Perm (entries.filter fun entry => range.contains entry.key)
        ∧ output.Pairwise (fun first second => (compare first.key second.key).isLE = true)
        ∧ ∀ key, output.filter (fun entry => entry.key = key)
          = entries.filter fun entry => range.contains entry.key && entry.key = key := by
  let cursor := Cursor.after earlier (ofList entries)
  have same : cursor.entries = entries.mergeSort precedes :=
    (kept (entries.mergeSort precedes)).after rfl earlier
  have sorted : cursor.entries.Pairwise fun first second =>
      (compare first.key second.key).isLE = true := by
    rw [same]
    exact sorted_mergeSort entries
  have selected : cursor.entries.filter (fun entry => range.contains entry.key)
      = (entries.filter fun entry => range.contains entry.key).mergeSort precedes := by
    rw [same, filter_mergeSort]
  obtain ⟨sought, moved, presents⟩ := finds_of_sorted cursor range sorted
  refine ⟨sought, _, moved, Prod.ext presents.fst_drain presents.drain, fun count => ?_, ?_, ?_,
    fun key => ?_⟩
  · have top := top_nexts_seek range sorted count
    rwa [moved] at top
  · rw [selected]
    exact List.mergeSort_perm _ _
  · exact sorted.filter _
  · -- entries of one key are in order already
    have alike : (entries.filter fun entry => range.contains entry.key && entry.key = key).Pairwise
        fun first second => precedes first second = true := by
      refine List.pairwise_of_forall_mem_list fun first firstMember second secondMember => ?_
      have first_eq := (List.mem_filter.mp firstMember).2
      have second_eq := (List.mem_filter.mp secondMember).2
      rw [Bool.and_eq_true, decide_eq_true_eq] at first_eq second_eq
      rw [precedes, first_eq.2, second_eq.2]
      exact Std.ReflCmp.isLE_rfl
    rw [selected, filter_mergeSort, List.filter_filter]
    simp only [Bool.and_comm (decide _)]
    exact List.mergeSort_of_pairwise alike

end SortedEntries

end TimeSeries
