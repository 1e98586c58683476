import Mathlib.Data.List.Nodup
import TimeSeries.SortedMap

/-!
# Maps made of lists

A map that is made of a list of pairs takes them in turn, so of several pairs with one key the last
counts.  In terms of look-ups: a look-up in the map is a look-up in the reversed list, where the
last pair is found first.  Values that are altered item by item come of the items of their key alone,
so items can be collected and counted by key.

The size of a map is the number of its keys, and an update adds or removes one of them at most.
Two pairs are neighbours in it if it has no value at a key between theirs.

Main statements: `get?_ofList`, `get?_foldl_alter_of`, `size_insert` and `infix_toList_iff`.
-/

set_option autoImplicit false

namespace TimeSeries.SortedMap

variable {κ ν μ : Type} [Ord κ]

/-! ## Look-ups in lists -/

theorem lookup_append (key : κ) (first second : List (κ × ν)) :
    lookup key (first ++ second) = (lookup key first).or (lookup key second) := by
  induction first with
  | nil => rfl
  | cons pair first ih =>
      obtain ⟨held, value⟩ := pair
      simp only [List.cons_append, lookup, ih]
      split <;> rfl

section Lawful

variable [Std.LawfulEqOrd κ]

theorem lookup_cons_self (key : κ) (value : ν) (rest : List (κ × ν)) :
    lookup key ((key, value) :: rest) = some value := by
  rw [lookup, if_pos Std.ReflCmp.compare_self]

theorem lookup_cons_of_ne {key held : κ} (value : ν) (rest : List (κ × ν)) (apart : key ≠ held) :
    lookup key ((held, value) :: rest) = lookup key rest := by
  rw [lookup, if_neg (mt Std.LawfulEqCmp.eq_of_compare apart)]

/-- What is found stands in the list. -/
theorem mem_of_lookup {key : κ} {value : ν} {entries : List (κ × ν)}
    (found : lookup key entries = some value) : (key, value) ∈ entries := by
  induction entries with
  | nil => cases found
  | cons pair entries ih =>
      obtain ⟨held, old⟩ := pair
      rw [lookup] at found
      split at found
      case isTrue same =>
          cases found
          rw [Std.LawfulEqCmp.eq_of_compare same]
          exact List.mem_cons_self
      case isFalse => exact List.mem_cons_of_mem _ (ih found)

/-- Nothing is found exactly where the key does not occur. -/
theorem lookup_eq_none_iff {key : κ} {entries : List (κ × ν)} :
    lookup key entries = none ↔ ∀ pair ∈ entries, pair.1 ≠ key := by
  induction entries with
  | nil => simp [lookup]
  | cons pair entries ih =>
      obtain ⟨held, value⟩ := pair
      rw [lookup, List.forall_mem_cons]
      split
      case isTrue same =>
          have equal : held = key := (Std.LawfulEqCmp.eq_of_compare same).symm
          simp [equal]
      case isFalse apart =>
          have unequal : held ≠ key := by
            rintro rfl
            exact apart Std.ReflCmp.compare_self
          rw [ih]
          exact ⟨fun rest => ⟨unequal, rest⟩, And.right⟩

/-- Where all pairs of a key agree, each of them is found. -/
theorem lookup_of_agreeing {key : κ} {value : ν} {entries : List (κ × ν)}
    (member : (key, value) ∈ entries)
    (agreeing : ∀ other, (key, other) ∈ entries → other = value) :
    lookup key entries = some value := by
  cases found : lookup key entries with
  | none => exact absurd rfl (lookup_eq_none_iff.mp found _ member)
  | some other => rw [agreeing other (mem_of_lookup found)]

/-- Only the pairs of a key matter to its look-up. -/
theorem lookup_filter (key : κ) (keep : κ → Bool) (entries : List (κ × ν)) :
    lookup key (entries.filter fun pair => keep pair.1)
      = if keep key then lookup key entries else none := by
  induction entries with
  | nil => simp [lookup]
  | cons pair entries ih =>
      obtain ⟨held, value⟩ := pair
      by_cases same : key = held
      · subst same
        by_cases kept : keep key = true
        · rw [List.filter_cons_of_pos (by simpa using kept), lookup_cons_self, lookup_cons_self,
            if_pos kept]
        · rw [List.filter_cons_of_neg (by simpa using kept), ih, if_neg kept, if_neg kept]
      · rw [lookup_cons_of_ne value entries same, ← ih, List.filter_cons]
        split
        · rw [lookup_cons_of_ne _ _ same]
        · rfl

/-- What is found is the value of the first pair of the key. -/
theorem lookup_eq_some_iff {key : κ} {value : ν} {entries : List (κ × ν)} :
    lookup key entries = some value
      ↔ ∃ before after, entries = before ++ (key, value) :: after
        ∧ ∀ pair ∈ before, pair.1 ≠ key := by
  constructor
  · intro found
    induction entries with
    | nil => cases found
    | cons pair entries ih =>
        obtain ⟨held, old⟩ := pair
        by_cases same : key = held
        · subst same
          rw [lookup_cons_self] at found
          exact ⟨[], entries, by rw [Option.some.inj found]; rfl, by simp⟩
        · rw [lookup_cons_of_ne old entries same] at found
          obtain ⟨before, after, split, others⟩ := ih found
          exact ⟨(held, old) :: before, after, by rw [split]; rfl,
            List.forall_mem_cons.mpr ⟨Ne.symm same, others⟩⟩
  · rintro ⟨before, after, rfl, others⟩
    rw [lookup_append, lookup_eq_none_iff.mpr others, Option.none_or, lookup_cons_self]

/-- What is found in the reversed list is the value of the last pair of the key. -/
theorem lookup_reverse_eq_some_iff {key : κ} {value : ν} {entries : List (κ × ν)} :
    lookup key entries.reverse = some value
      ↔ ∃ before after, entries = before ++ (key, value) :: after
        ∧ ∀ pair ∈ after, pair.1 ≠ key := by
  rw [lookup_eq_some_iff]
  constructor
  · rintro ⟨after, before, split, others⟩
    refine ⟨before.reverse, after.reverse, ?_, fun pair member =>
      others pair (List.mem_reverse.mp member)⟩
    rw [← List.reverse_reverse entries, split, List.reverse_append, List.reverse_cons,
      List.append_assoc, List.singleton_append]
  · rintro ⟨before, after, rfl, others⟩
    refine ⟨after.reverse, before.reverse, ?_, fun pair member =>
      others pair (List.mem_reverse.mp member)⟩
    rw [List.reverse_append, List.reverse_cons, List.append_assoc, List.singleton_append]

/-! ## Maps -/

theorem get?_mapValues (change : κ → ν → μ) (map : SortedMap κ ν) (key : κ) :
    (map.mapValues change).get? key = (map.get? key).map (change key) := by
  obtain ⟨entries, sorted⟩ := map
  show lookup key (entries.map fun pair => (pair.1, change pair.1 pair.2))
    = (lookup key entries).map (change key)
  clear sorted
  induction entries with
  | nil => rfl
  | cons pair entries ih =>
      obtain ⟨held, value⟩ := pair
      by_cases same : key = held
      · subst same
        rw [List.map_cons, lookup_cons_self, lookup_cons_self]
        rfl
      · rw [List.map_cons, lookup_cons_of_ne _ _ same, lookup_cons_of_ne _ _ same, ih]

variable [Std.TransOrd κ]

/-- Putting pairs into a map one after the other: the last of each key counts. -/
theorem get?_foldl_insert (map : SortedMap κ ν) (entries : List (κ × ν)) (key : κ) :
    (entries.foldl (fun map pair => map.insert pair.1 pair.2) map).get? key
      = (lookup key entries.reverse).or (map.get? key) := by
  classical
  induction entries generalizing map with
  | nil => rfl
  | cons pair entries ih =>
      obtain ⟨held, value⟩ := pair
      rw [List.foldl_cons, ih, List.reverse_cons, lookup_append, Option.or_assoc]
      congr 1
      rw [get?_insert]
      by_cases same : key = held
      · subst same
        rw [if_pos rfl, lookup_cons_self]
        rfl
      · rw [if_neg same, lookup_cons_of_ne _ _ same]
        rfl

/-- A look-up in a map made of a list finds the last pair of the key. -/
theorem get?_ofList (entries : List (κ × ν)) (key : κ) :
    (ofList entries).get? key = lookup key entries.reverse := by
  rw [ofList, get?_foldl_insert, get?_empty, Option.or_none]

theorem get?_alter (map : SortedMap κ ν) (key wanted : κ) (change : Option ν → ν)
    [DecidableEq κ] :
    (map.alter key change).get? wanted
      = if wanted = key then some (change (map.get? key)) else map.get? wanted :=
  get?_insert map key wanted _

/-- Values that are altered item by item: what is found of a key comes of its own items. -/
theorem get?_foldl_alter_of [DecidableEq κ] {α : Type} (name : α → κ)
    (change : α → Option ν → ν) (items : List α) (key : κ) (map : SortedMap κ ν) :
    (items.foldl (fun map item => map.alter (name item) (change item)) map).get? key
      = (items.filter fun item => name item = key).foldl (fun found item => some (change item found))
        (map.get? key) := by
  induction items generalizing map with
  | nil => rfl
  | cons item items ih =>
      rw [List.foldl_cons, ih, get?_alter]
      by_cases same : name item = key
      · rw [List.filter_cons_of_pos (by simpa using same), if_pos same.symm, same, List.foldl_cons]
      · rw [List.filter_cons_of_neg (by simpa using same), if_neg (Ne.symm same)]

/-- Items that are appended to the lists of their keys: the list of a key holds the values of its
items, in their order. -/
theorem get?_foldl_alter [DecidableEq κ] {α : Type} (name : α → κ) (value : α → ν)
    (items : List α) (key : κ) (map : SortedMap κ (List ν)) :
    (items.foldl (fun groups item => groups.alter (name item) fun held =>
        held.getD [] ++ [value item]) map).get? key
      = if items.filter (fun item => name item = key) = [] then map.get? key
        else some ((map.get? key).getD []
          ++ (items.filter fun item => name item = key).map value) := by
  rw [get?_foldl_alter_of name fun item held => held.getD [] ++ [value item]]
  generalize items.filter (fun item => name item = key) = members
  generalize map.get? key = found
  induction members generalizing found with
  | nil => rfl
  | cons item members ih =>
      rw [List.foldl_cons, ih, if_neg (List.cons_ne_nil _ _), Option.getD_some, List.map_cons]
      split
      case isTrue nothing => rw [nothing, List.map_nil]
      case isFalse => rw [List.append_assoc, List.singleton_append]

/-- Items that are counted by key. -/
theorem get?_foldl_count [DecidableEq κ] {α : Type} (name : α → κ) (items : List α) (key : κ) :
    (items.foldl (fun tally item => tally.alter (name item) fun count => count.getD 0 + 1)
        (empty : SortedMap κ Nat)).get? key
      = if items.countP (fun item => name item = key) = 0 then none
        else some (items.countP fun item => name item = key) := by
  rw [get?_foldl_alter_of name fun _ count => count.getD 0 + 1, get?_empty,
    List.countP_eq_length_filter]
  have counted : ∀ (members : List α) (found : Option Nat),
      members.foldl (fun found _ => some (found.getD 0 + 1)) found
        = if members.length = 0 then found else some (found.getD 0 + members.length) := by
    intro members
    induction members with
    | nil => exact fun found => rfl
    | cons item members ih =>
        intro found
        rw [List.foldl_cons, ih, List.length_cons, if_neg (Nat.succ_ne_zero _), Option.getD_some]
        split
        case isTrue none_left => rw [none_left]
        case isFalse => rw [Nat.add_right_comm, Nat.add_assoc]
  rw [counted, Option.getD_none, Nat.zero_add]

theorem get?_foldl_alter_empty [DecidableEq κ] {α : Type} (name : α → κ) (value : α → ν)
    (items : List α) (key : κ) :
    (items.foldl (fun groups item => groups.alter (name item) fun held =>
        held.getD [] ++ [value item]) (empty : SortedMap κ (List ν))).get? key
      = if items.filter (fun item => name item = key) = [] then none
        else some ((items.filter fun item => name item = key).map value) :=
  get?_foldl_alter name value items key .empty

/-- A value that is appended to the list of its key is the only one more. -/
theorem flatten_values_alter (map : SortedMap κ (List ν)) (key : κ) (value : ν) :
    ((map.alter key fun held => held.getD [] ++ [value]).values.flatten).Perm
      (value :: map.values.flatten) := by
  obtain ⟨entries, sorted⟩ := map
  show ((insertPair key ((lookup key entries).getD [] ++ [value]) entries).map
    Prod.snd).flatten.Perm (value :: (entries.map Prod.snd).flatten)
  induction entries with
  | nil => exact List.Perm.refl _
  | cons pair entries ih =>
      obtain ⟨held, values⟩ := pair
      obtain ⟨above, sorted⟩ := List.pairwise_cons.mp sorted
      rw [lookup, insertPair]
      split
      case _ before =>
        have absent : lookup key entries = none := by
          refine lookup_eq_none_iff.mpr fun pair member same => ?_
          have after := Std.TransCmp.lt_trans before (above pair member)
          rw [same, Std.ReflOrd.compare_self] at after
          cases after
        rw [if_neg (by rw [before]; simp), absent]
        exact List.Perm.refl _
      case _ same =>
        rw [if_pos same, Option.getD_some, List.map_cons, List.flatten_cons, List.append_assoc,
          List.map_cons, List.flatten_cons]
        exact List.perm_middle
      case _ after =>
        rw [if_neg (by rw [after]; simp), List.map_cons, List.flatten_cons, List.map_cons,
          List.flatten_cons]
        exact ((ih sorted).append_left values).trans List.perm_middle

/-- A list with the pairs of a map makes the map, whatever their order is. -/
theorem ofList_eq_of_mem_iff {entries : List (κ × ν)} {map : SortedMap κ ν}
    (same : ∀ pair, pair ∈ entries ↔ pair ∈ map.toList) : ofList entries = map := by
  apply ext_get?
  intro key
  rw [get?_ofList]
  apply Option.ext
  intro value
  rw [← mem_toList_iff, ← same]
  constructor
  · intro found
    exact List.mem_reverse.mp (mem_of_lookup found)
  · intro member
    refine lookup_of_agreeing (List.mem_reverse.mpr member) fun other another => ?_
    have first := (mem_toList_iff map key value).mp ((same _).mp member)
    have second := (mem_toList_iff map key other).mp ((same _).mp (List.mem_reverse.mp another))
    rw [first] at second
    exact (Option.some.inj second).symm

theorem ofList_toList (map : SortedMap κ ν) : ofList map.toList = map :=
  ofList_eq_of_mem_iff fun _ => Iff.rfl

/-- A predicate that one key of a map satisfies leaves one pair of it. -/
theorem filter_toList_eq_singleton [DecidableEq κ] (keep : κ → Bool) {map : SortedMap κ ν}
    {key : κ} {value : ν} (found : map.get? key = some value) (kept : keep key = true)
    (only : ∀ other, (map.get? other).isSome → keep other = true → other = key) :
    (map.toList.filter fun pair => keep pair.1) = [(key, value)] := by
  have same : map.filter (fun other _ => keep other) = insert .empty key value := by
    apply ext_get?
    intro wanted
    rw [get?_filter, get?_insert, get?_empty]
    split
    case isTrue here =>
        rw [here, found]
        exact if_pos kept
    case isFalse apart =>
        rw [Option.filter_eq_none_iff]
        intro other there held
        exact apart (only wanted (by rw [there]; rfl) held)
  exact congrArg toList same

/-- The pairs of a key are one at most. -/
theorem filter_toList_key [DecidableEq κ] (map : SortedMap κ ν) (key : κ) :
    (map.toList.filter fun pair => pair.1 = key)
      = ((map.get? key).map fun value => (key, value)).toList := by
  cases found : map.get? key with
  | none =>
      rw [Option.map_none, Option.toList_none, List.filter_eq_nil_iff]
      intro pair member same
      rw [← of_decide_eq_true same, (mem_toList_iff _ _ _).mp member] at found
      cases found
  | some value =>
      rw [Option.map_some, Option.toList_some]
      exact filter_toList_eq_singleton (fun other => decide (other = key)) found
        (decide_eq_true rfl) fun _ _ same => of_decide_eq_true same

/-- Sets with the same elements are one set. -/
theorem ext_contains {left right : SortedSet κ}
    (same : ∀ key, left.contains key = right.contains key) : left = right := by
  apply ext_get?
  intro key
  have here := same key
  rw [contains, contains] at here
  cases first : left.get? key <;> cases second : right.get? key <;>
    simp only [first, second, Option.isSome_none, Option.isSome_some, Bool.false_eq_true,
      Bool.true_eq_false] at here
  · rfl
  · rfl

/-- Maps with values for the same keys have the same keys, in the same order. -/
theorem keys_eq_of_contains {map : SortedMap κ ν} {other : SortedMap κ μ}
    (same : ∀ key, map.contains key = other.contains key) : map.keys = other.keys := by
  have sets : map.mapValues (fun _ _ => ()) = other.mapValues fun _ _ => () := by
    refine ext_contains fun key => ?_
    rw [contains, contains, get?_mapValues, get?_mapValues, Option.isSome_map, Option.isSome_map]
    exact same key
  have listed : ∀ {α : Type} (any : SortedMap κ α),
      any.keys = (any.mapValues fun _ _ => ()).toList.map Prod.fst := by
    intro α any
    show any.toList.map Prod.fst = (any.toList.map fun pair => (pair.1, ())).map Prod.fst
    rw [List.map_map]
    rfl
  rw [listed map, listed other, sets]

/-! ## Keys -/

omit [Std.TransOrd κ] in
/-- The keys are those with a value. -/
theorem mem_keys_iff {map : SortedMap κ ν} {key : κ} :
    key ∈ map.keys ↔ map.contains key = true := by
  rw [contains, Option.isSome_iff_ne_none, Ne, get?, lookup_eq_none_iff, keys, List.mem_map]
  simp only [not_forall, not_not, exists_prop]

omit [Std.LawfulEqOrd κ] [Std.TransOrd κ] in
theorem keys_filter (keep : κ → Bool) (map : SortedMap κ ν) :
    (map.filter fun key _ => keep key).keys = map.keys.filter keep := by
  rw [keys, keys, List.filter_map]
  rfl

omit [Std.TransOrd κ] in
/-- No key occurs twice. -/
theorem nodup_keys (map : SortedMap κ ν) : map.keys.Nodup := by
  rw [keys, List.Nodup, List.pairwise_map]
  refine map.ascending.imp fun {first second} before same => ?_
  rw [same, Std.ReflOrd.compare_self] at before
  cases before

/-- Elements that are put into a set. -/
theorem contains_foldl_insert [DecidableEq κ] (set : SortedSet κ) (elements : List κ)
    (element : κ) :
    (elements.foldl (fun set other => set.insert other ()) set).contains element = true
      ↔ set.contains element = true ∨ element ∈ elements := by
  induction elements generalizing set with
  | nil => simp
  | cons other elements ih =>
      have here : (set.insert other ()).contains element = true
          ↔ element = other ∨ set.contains element = true := by
        rw [contains, get?_insert, contains]
        split <;> simp [*]
      rw [List.foldl_cons, ih, here, List.mem_cons, or_assoc, or_left_comm]

/-- The elements of a set that is made of a list are those of the list. -/
theorem contains_ofElements [DecidableEq κ] (elements : List κ) (element : κ) :
    (SortedSet.ofElements elements).contains element = true ↔ element ∈ elements := by
  rw [SortedSet.ofElements, ofList, List.foldl_map, contains_foldl_insert]
  exact or_iff_right Bool.false_ne_true

/-! ## Sizes -/

omit [Std.LawfulEqOrd κ] [Std.TransOrd κ] in
theorem size_eq_length_keys (map : SortedMap κ ν) : map.size = map.keys.length :=
  (List.length_map _).symm

omit [Std.LawfulEqOrd κ] [Std.TransOrd κ] in
/-- The keys that a filter leaves and those that it takes away are all of them. -/
theorem size_filter_add (keep : κ → Bool) (map : SortedMap κ ν) :
    (map.filter fun key _ => keep key).size + (map.keys.filter fun key => !keep key).length
      = map.size := by
  rw [size_eq_length_keys, size_eq_length_keys map, keys_filter, ← List.countP_eq_length_filter,
    ← List.countP_eq_length_filter, List.length_eq_countP_add_countP keep]
  simp only [Bool.not_eq_true, Bool.decide_eq_false]

omit [Std.TransOrd κ] in
/-- Without one of its keys a map is smaller by one. -/
theorem size_erase_add_one [DecidableEq κ] {map : SortedMap κ ν} {key : κ}
    (present : map.contains key = true) : (map.erase key).size + 1 = map.size := by
  have once : (map.keys.filter fun held => !(compare key held != .eq)).length = 1 := by
    rw [← List.count_eq_one_of_mem (nodup_keys map) (mem_keys_iff.mpr present), List.count,
      ← List.countP_eq_length_filter]
    refine List.countP_congr fun held _ => ?_
    rw [Bool.not_eq_true', bne_eq_false_iff_eq, Std.LawfulEqCmp.compare_eq_iff_eq, beq_iff_eq,
      eq_comm]
  rw [← size_filter_add (fun held => compare key held != .eq) map, once]
  rfl

/-- A key that is set is one more if it had no value. -/
theorem size_insert [DecidableEq κ] (map : SortedMap κ ν) (key : κ) (value : ν) :
    (map.insert key value).size
      = if map.contains key then map.size else map.size + 1 := by
  have held : ∀ wanted, (map.insert key value).contains wanted
      = (decide (wanted = key) || map.contains wanted) := by
    intro wanted
    rw [contains, get?_insert, contains]
    split <;> simp [*]
  cases present : map.contains key with
  | true =>
      rw [if_pos rfl, size_eq_length_keys, size_eq_length_keys]
      refine congrArg List.length (keys_eq_of_contains fun wanted => ?_)
      by_cases same : wanted = key
      · rw [held, same, present, Bool.or_true]
      · rw [held, decide_eq_false same, Bool.false_or]
  | false =>
      -- what is set can be removed again
      have before : (map.insert key value).erase key = map := by
        apply ext_get?
        intro wanted
        rw [get?_erase, get?_insert]
        split
        case isTrue same =>
            rw [contains, Option.isSome_eq_false_iff, Option.isNone_iff_eq_none] at present
            rw [same, present]
        case isFalse => rfl
      have now : (map.insert key value).contains key = true := by
        rw [held, decide_eq_true rfl, Bool.true_or]
      rw [if_neg Bool.false_ne_true, ← size_erase_add_one now, before]

/-! ## Neighbours -/

/-- Behind a pair of a map stand the pairs with greater keys. -/
theorem mem_behind_iff {map : SortedMap κ ν} {front back : List (κ × ν)} {pair other : κ × ν}
    (whole : map.toList = front ++ pair :: back) :
    other ∈ back ↔ map.get? other.1 = some other.2 ∧ compare pair.1 other.1 = .lt := by
  have ascending := map.ascending
  rw [Ascending, whole, List.pairwise_append] at ascending
  obtain ⟨_, behind, order⟩ := ascending
  rw [← mem_toList_iff, whole, List.mem_append, List.mem_cons]
  constructor
  · intro late
    exact ⟨.inr (.inr late), List.rel_of_pairwise_cons behind late⟩
  · rintro ⟨early | same | late, later⟩
    · have earlier := order _ early _ List.mem_cons_self
      rw [Std.OrientedCmp.gt_of_lt earlier] at later
      cases later
    · rw [← same, Std.ReflOrd.compare_self] at later
      cases later
    · exact late

/-- Two pairs stand next to each other if no key between theirs has a value. -/
theorem infix_toList_iff {map : SortedMap κ ν} {first second : κ × ν} :
    [first, second] <:+: map.toList
      ↔ map.get? first.1 = some first.2 ∧ map.get? second.1 = some second.2
        ∧ compare first.1 second.1 = .lt
        ∧ ∀ key, compare first.1 key = .lt → compare key second.1 = .lt → map.get? key = none := by
  constructor
  · rintro ⟨front, back, parts⟩
    rw [List.append_assoc, List.cons_append, List.singleton_append] at parts
    have sorted : Ascending (front ++ first :: second :: back) := parts ▸ map.ascending
    obtain ⟨_, behind, before⟩ := List.pairwise_append.mp sorted
    obtain ⟨afterFirst, behind⟩ := List.pairwise_cons.mp behind
    have afterSecond := (List.pairwise_cons.mp behind).1
    refine ⟨(mem_toList_iff _ _ _).mp (by simp [← parts]),
      (mem_toList_iff _ _ _).mp (by simp [← parts]), afterFirst second List.mem_cons_self,
      fun key above below => ?_⟩
    cases found : map.get? key with
    | none => rfl
    | some value =>
        have member : (key, value) ∈ front ++ first :: second :: back :=
          parts ▸ (mem_toList_iff _ _ _).mpr found
        simp only [List.mem_append, List.mem_cons] at member
        rcases member with member | rfl | rfl | member
        · have earlier := before _ member first List.mem_cons_self
          rw [Std.OrientedCmp.gt_of_lt earlier] at above
          cases above
        · rw [Std.ReflOrd.compare_self] at above
          cases above
        · rw [Std.ReflOrd.compare_self] at below
          cases below
        · rw [Std.OrientedCmp.gt_of_lt (afterSecond _ member)] at below
          cases below
  · rintro ⟨here, there, ordered, between⟩
    obtain ⟨front, rest, parts⟩ := List.append_of_mem ((mem_toList_iff _ _ _).mpr here)
    have sorted : Ascending (front ++ first :: rest) := parts ▸ map.ascending
    obtain ⟨_, behind, before⟩ := List.pairwise_append.mp sorted
    obtain ⟨afterFirst, behind⟩ := List.pairwise_cons.mp behind
    have member : second ∈ front ++ first :: rest := parts ▸ (mem_toList_iff _ _ _).mpr there
    simp only [List.mem_append, List.mem_cons] at member
    rcases member with member | rfl | member
    · rw [Std.OrientedCmp.gt_of_lt (before _ member first List.mem_cons_self)] at ordered
      cases ordered
    · rw [Std.ReflOrd.compare_self] at ordered
      cases ordered
    · cases rest with
      | nil => cases member
      | cons next back =>
          rcases List.mem_cons.mp member with rfl | member
          · exact ⟨front, back, by rw [parts, List.append_assoc]; rfl⟩
          · -- the next pair would stand between the two
            have nothing := between next.1 (afterFirst next List.mem_cons_self)
              ((List.pairwise_cons.mp behind).1 second member)
            have some_value := (mem_toList_iff map next.1 next.2).mp (by simp [parts])
            rw [some_value] at nothing
            cases nothing

end Lawful

end TimeSeries.SortedMap
