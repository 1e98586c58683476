import TimeSeries.Order

/-!
# Maps in key order

A `SortedMap` is a list of key-value pairs whose keys strictly ascend.  The order is part of the
type, so a map has one representation: two maps with the same look-ups are equal
(`SortedMap.ext_get?`), and whatever walks over a map does so in key order, however the map was
built.

Main statements: `get?_insert` and `get?_erase` say what the two updates do to every look-up, and
`mem_toList_iff` that the pairs of the list are exactly the look-ups that succeed.
-/

set_option autoImplicit false

namespace TimeSeries

/-- Pairs whose first components strictly ascend. -/
def Ascending {κ ν : Type} [Ord κ] (entries : List (κ × ν)) : Prop :=
  entries.Pairwise fun left right => compare left.1 right.1 = .lt

/-- A map from keys to values, held in key order. -/
structure SortedMap (κ ν : Type) [Ord κ] where
  toList : List (κ × ν)
  ascending : Ascending toList

namespace SortedMap

variable {κ ν μ : Type} [Ord κ]

@[ext] theorem ext_toList {left right : SortedMap κ ν} (same : left.toList = right.toList) :
    left = right := by
  cases left; cases right; cases same; rfl

instance [DecidableEq κ] [DecidableEq ν] : DecidableEq (SortedMap κ ν) := fun left right =>
  if same : left.toList = right.toList then
    isTrue (ext_toList same)
  else
    isFalse fun equal => same (congrArg toList equal)

instance [Repr κ] [Repr ν] : Repr (SortedMap κ ν) := ⟨fun map level => reprPrec map.toList level⟩

/-- Maps are ordered as the lists of their pairs are. -/
instance [Ord ν] : Ord (SortedMap κ ν) := ⟨compareOn toList⟩

instance [Ord ν] [Std.TransOrd κ] [Std.TransOrd ν] : Std.TransOrd (SortedMap κ ν) :=
  transOrd_on toList

instance [Ord ν] [Std.LawfulEqOrd κ] [Std.LawfulEqOrd ν] : Std.LawfulEqOrd (SortedMap κ ν) :=
  lawfulEqOrd_on toList ext_toList

/-! ## Reading -/

/-- The map without keys. -/
def empty : SortedMap κ ν := ⟨[], List.Pairwise.nil⟩

instance : Inhabited (SortedMap κ ν) := ⟨empty⟩
instance : EmptyCollection (SortedMap κ ν) := ⟨empty⟩

/-- The number of keys. -/
def size (map : SortedMap κ ν) : Nat := map.toList.length

def isEmpty (map : SortedMap κ ν) : Bool := map.toList.isEmpty

/-- The keys, ascending. -/
def keys (map : SortedMap κ ν) : List κ := map.toList.map Prod.fst

/-- The values, in the order of their keys. -/
def values (map : SortedMap κ ν) : List ν := map.toList.map Prod.snd

/-- The first value whose key compares equal. -/
def lookup (key : κ) : List (κ × ν) → Option ν
  | [] => none
  | (held, value) :: rest => if compare key held = .eq then some value else lookup key rest

/-- The value of a key. -/
def get? (map : SortedMap κ ν) (key : κ) : Option ν := lookup key map.toList

def contains (map : SortedMap κ ν) (key : κ) : Bool := (map.get? key).isSome

/-! ## Updating -/

/-- Puts a pair in its place in key order, in place of the pair of an equal key. -/
def insertPair (key : κ) (value : ν) : List (κ × ν) → List (κ × ν)
  | [] => [(key, value)]
  | (held, old) :: rest =>
      match compare key held with
      | .lt => (key, value) :: (held, old) :: rest
      | .eq => (key, value) :: rest
      | .gt => (held, old) :: insertPair key value rest

theorem mem_insertPair {key : κ} {value : ν} {pair : κ × ν} :
    ∀ {entries : List (κ × ν)},
      pair ∈ insertPair key value entries → pair = (key, value) ∨ pair ∈ entries
  | [], found => by
      simpa [insertPair] using found
  | (held, old) :: rest, found => by
      unfold insertPair at found
      split at found
      · rcases List.mem_cons.mp found with here | later
        · exact Or.inl here
        · exact Or.inr later
      · rcases List.mem_cons.mp found with here | later
        · exact Or.inl here
        · exact Or.inr (List.mem_cons_of_mem _ later)
      · rcases List.mem_cons.mp found with here | later
        · exact Or.inr (here ▸ List.mem_cons_self)
        · rcases mem_insertPair later with new | old
          · exact Or.inl new
          · exact Or.inr (List.mem_cons_of_mem _ old)

theorem ascending_insertPair [Std.TransOrd κ] {key : κ} {value : ν} :
    ∀ {entries : List (κ × ν)}, Ascending entries → Ascending (insertPair key value entries)
  | [], _ => List.pairwise_singleton _ _
  | (held, old) :: rest, sorted => by
      have above := (List.pairwise_cons.mp sorted).1
      have sortedRest := (List.pairwise_cons.mp sorted).2
      unfold insertPair
      split
      case _ before =>
        refine List.pairwise_cons.mpr ⟨fun pair found => ?_, sorted⟩
        rcases List.mem_cons.mp found with here | later
        · exact here ▸ before
        · exact Std.TransCmp.lt_trans before (above pair later)
      case _ same =>
        refine List.pairwise_cons.mpr ⟨fun pair found => ?_, sortedRest⟩
        exact Std.TransCmp.lt_of_eq_of_lt same (above pair found)
      case _ after =>
        refine List.pairwise_cons.mpr ⟨fun pair found => ?_, ascending_insertPair sortedRest⟩
        rcases mem_insertPair found with new | old
        · exact new ▸ Std.OrientedCmp.lt_of_gt after
        · exact above pair old

/-- The map with a key set to a value. -/
def insert [Std.TransOrd κ] (map : SortedMap κ ν) (key : κ) (value : ν) : SortedMap κ ν :=
  ⟨insertPair key value map.toList, ascending_insertPair map.ascending⟩

/-- The map with the value of a key computed from the one it had. -/
def alter [Std.TransOrd κ] (map : SortedMap κ ν) (key : κ) (change : Option ν → ν) :
    SortedMap κ ν :=
  map.insert key (change (map.get? key))

/-- The pairs that satisfy a predicate. -/
def filter (keep : κ → ν → Bool) (map : SortedMap κ ν) : SortedMap κ ν :=
  ⟨map.toList.filter fun pair => keep pair.1 pair.2, List.Pairwise.filter _ map.ascending⟩

/-- The map without a key. -/
def erase (map : SortedMap κ ν) (key : κ) : SortedMap κ ν :=
  map.filter fun held _ => compare key held != .eq

/-- The map with every value replaced by one computed from its pair. -/
def mapValues (change : κ → ν → μ) (map : SortedMap κ ν) : SortedMap κ μ :=
  ⟨map.toList.map fun pair => (pair.1, change pair.1 pair.2),
    by rw [Ascending, List.pairwise_map]; exact map.ascending⟩

/-- The map of a list of pairs; of pairs with one key the last counts. -/
def ofList [Std.TransOrd κ] (entries : List (κ × ν)) : SortedMap κ ν :=
  entries.foldl (fun map pair => map.insert pair.1 pair.2) empty

/-! ## Laws -/

@[simp] theorem get?_empty (key : κ) : (empty : SortedMap κ ν).get? key = none := rfl

theorem lookup_insertPair [Std.TransOrd κ] (key wanted : κ) (value : ν) (entries : List (κ × ν)) :
    lookup wanted (insertPair key value entries)
      = if compare wanted key = .eq then some value else lookup wanted entries := by
  induction entries with
  | nil => rfl
  | cons pair rest ih =>
      obtain ⟨held, old⟩ := pair
      unfold insertPair
      split
      case _ before => rfl
      case _ same =>
        have agree : compare wanted held = compare wanted key :=
          (Std.TransCmp.congr_right same).symm
        simp only [lookup, agree]
        split <;> rfl
      case _ after =>
        simp only [lookup, ih]
        split
        case isTrue here =>
          have apart : compare wanted key ≠ .eq := by
            intro equal
            have : compare key held = .eq :=
              Std.TransCmp.eq_trans (Std.OrientedCmp.eq_symm equal) here
            rw [after] at this
            cases this
          rw [if_neg apart]
        case isFalse => rfl

/-- A key that was just set has the value it was set to; the others keep theirs. -/
theorem get?_insert [Std.TransOrd κ] [Std.LawfulEqOrd κ] [DecidableEq κ] (map : SortedMap κ ν)
    (key wanted : κ) (value : ν) :
    (map.insert key value).get? wanted = if wanted = key then some value else map.get? wanted := by
  have eq_iff : compare wanted key = .eq ↔ wanted = key := Std.LawfulEqCmp.compare_eq_iff_eq
  simp only [get?, insert, lookup_insertPair, eq_iff]

/-- Every pair of the map is found by its key, and every look-up that succeeds finds a pair. -/
theorem mem_toList_iff [Std.TransOrd κ] [Std.LawfulEqOrd κ] (map : SortedMap κ ν) (key : κ)
    (value : ν) : (key, value) ∈ map.toList ↔ map.get? key = some value := by
  obtain ⟨entries, sorted⟩ := map
  simp only [get?]
  induction entries with
  | nil => simp [lookup]
  | cons pair rest ih =>
      obtain ⟨held, old⟩ := pair
      have above := (List.pairwise_cons.mp sorted).1
      have rest_iff := ih (List.pairwise_cons.mp sorted).2
      simp only [lookup, List.mem_cons]
      by_cases here : compare key held = .eq
      · have same : key = held := Std.LawfulEqCmp.eq_of_compare here
        subst same
        rw [if_pos here]
        constructor
        · rintro (now | later)
          · rw [(Prod.mk.inj now).2]
          · have := above _ later
            rw [here] at this
            cases this
        · intro found
          exact Or.inl (by rw [Option.some.inj found])
      · rw [if_neg here, ← rest_iff]
        constructor
        · rintro (now | later)
          · exact absurd ((Prod.mk.inj now).1 ▸ Std.ReflCmp.compare_self) here
          · exact later
        · exact Or.inr

theorem get?_filter [Std.TransOrd κ] [Std.LawfulEqOrd κ] (keep : κ → ν → Bool)
    (map : SortedMap κ ν) (key : κ) :
    (map.filter keep).get? key = (map.get? key).filter (keep key) := by
  apply Option.ext
  intro value
  rw [← mem_toList_iff, Option.filter_eq_some_iff, ← mem_toList_iff]
  simp [filter]

/-- A key that was just removed has no value; the others keep theirs. -/
theorem get?_erase [Std.TransOrd κ] [Std.LawfulEqOrd κ] [DecidableEq κ] (map : SortedMap κ ν)
    (key wanted : κ) :
    (map.erase key).get? wanted = if wanted = key then none else map.get? wanted := by
  have eq_iff : compare key wanted = .eq ↔ key = wanted := Std.LawfulEqCmp.compare_eq_iff_eq
  rw [erase, get?_filter]
  by_cases same : wanted = key
  · subst same
    rw [if_pos rfl]
    cases map.get? wanted with
    | none => rfl
    | some value => simp [Option.filter]
  · rw [if_neg same]
    have apart : compare key wanted ≠ .eq := fun equal => same (eq_iff.mp equal).symm
    cases map.get? wanted with
    | none => rfl
    | some value => simp [Option.filter, apart]

/-- Two maps with the same look-ups are one map. -/
theorem ext_get? [Std.TransOrd κ] [Std.LawfulEqOrd κ] {left right : SortedMap κ ν}
    (same : ∀ key, left.get? key = right.get? key) : left = right := by
  have pairs : ∀ pair, pair ∈ left.toList ↔ pair ∈ right.toList := by
    rintro ⟨key, value⟩
    rw [mem_toList_iff, mem_toList_iff, same key]
  have distinct : ∀ (entries : List (κ × ν)), Ascending entries → entries.Nodup := by
    intro entries sorted
    refine List.Pairwise.imp ?_ sorted
    intro first second before equal
    rw [equal, Std.ReflOrd.compare_self] at before
    cases before
  have shuffled : left.toList.Perm right.toList :=
    (List.perm_ext_iff_of_nodup (distinct _ left.ascending) (distinct _ right.ascending)).mpr pairs
  apply ext_toList
  have opposed : ∀ first second : κ × ν, first ∈ left.toList → second ∈ right.toList →
      compare first.1 second.1 = .lt → compare second.1 first.1 = .lt → first = second := by
    intro first second _ _ before after
    rw [Std.OrientedCmp.gt_of_lt before] at after
    cases after
  exact List.Perm.eq_of_pairwise opposed left.ascending right.ascending shuffled

end SortedMap

/-! ## Sets -/

/-- A set is a map whose keys have nothing but themselves to tell. -/
abbrev SortedSet (κ : Type) [Ord κ] := SortedMap κ Unit

/-- The set of the elements of a list. -/
def SortedSet.ofElements {κ : Type} [Ord κ] [Std.TransOrd κ] (elements : List κ) : SortedSet κ :=
  SortedMap.ofList (elements.map fun element => (element, ()))

end TimeSeries
