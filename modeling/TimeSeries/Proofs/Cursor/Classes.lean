import Mathlib.Data.List.Perm.Basic
import TimeSeries.Proofs.Buckets.Grid
import TimeSeries.Proofs.Cursor.Combination

/-!
# What is combined, class by class

The entries of one series in one window are a class.  A class may be cut into several pieces by the
runs, since runs follow the order of the entries; what comes of the class is then what comes of the
pieces, in their order (`Combined.classOf_combine`).

Entries are undivided if no entry of another metric or window stands between two of one class.  Each
class is then of one piece, so one entry comes of it (`Combined.classOf_combine_of_undivided`); and
entries of which each class is of one piece are undivided (`Window.undivided_of_pieces`).
-/

set_option autoImplicit false

namespace TimeSeries

/-! ## Classes -/

namespace Key

theorem sameMetric_iff {key other : Key} :
    key.sameMetric other = true ↔ ∃ metric, key.metric = .ok metric ∧ other.metric = .ok metric := by
  rw [sameMetric]
  cases key.metric with
  | error failure => simp
  | ok metric =>
      cases other.metric with
      | error failure => simp
      | ok another => simp [eq_comm]

theorem sameColumns_iff {key other : Key} :
    key.sameColumns other = true ↔ key.columns = other.columns := by
  simp [sameColumns, columns, and_assoc]

theorem sameSeries_iff {key other : Key} : key.sameSeries other = true
    ↔ key.columns = other.columns
      ∧ ∃ metric, key.metric = .ok metric ∧ other.metric = .ok metric := by
  rw [sameSeries, Bool.and_eq_true, sameColumns_iff, sameMetric_iff]

theorem sameSeries_symm {key other : Key} (same : key.sameSeries other = true) :
    other.sameSeries key = true := by
  obtain ⟨columns, metric, here, there⟩ := sameSeries_iff.mp same
  exact sameSeries_iff.mpr ⟨columns.symm, metric, there, here⟩

theorem sameSeries_trans {key other third : Key} (first : key.sameSeries other = true)
    (second : other.sameSeries third = true) : key.sameSeries third = true := by
  obtain ⟨columns, metric, here, middle⟩ := sameSeries_iff.mp first
  obtain ⟨onward, another, again, there⟩ := sameSeries_iff.mp second
  cases middle.symm.trans again
  exact sameSeries_iff.mpr ⟨columns.trans onward, metric, here, there⟩

end Key

namespace Window

variable {window : Window} {key other third : Key}

/-- Both keys belong to one series and one window. -/
def shares (window : Window) (key other : Key) : Bool :=
  key.sameSeries other && window.index key.timestamp == window.index other.timestamp

theorem joins_iff : window.joins key other = true
    ↔ window.index key.timestamp = window.index other.timestamp
      ∧ ∃ metric, key.metric = .ok metric ∧ other.metric = .ok metric := by
  rw [joins, Bool.and_eq_true, beq_iff_eq, start_eq_iff, Key.sameMetric_iff]

theorem shares_iff_sameSeries : window.shares key other = true
    ↔ key.sameSeries other = true
      ∧ window.index key.timestamp = window.index other.timestamp := by
  rw [shares, Bool.and_eq_true, beq_iff_eq]

theorem shares_iff : window.shares key other = true
    ↔ window.joins key other = true ∧ key.columns = other.columns := by
  rw [shares_iff_sameSeries, Key.sameSeries_iff, joins_iff]
  constructor
  · exact fun ⟨⟨columns, metric⟩, index⟩ => ⟨⟨index, metric⟩, columns⟩
  · exact fun ⟨⟨index, metric⟩, columns⟩ => ⟨⟨columns, metric⟩, index⟩

theorem joins_symm (joins : window.joins key other = true) : window.joins other key = true := by
  obtain ⟨index, metric, here, there⟩ := joins_iff.mp joins
  exact joins_iff.mpr ⟨index.symm, metric, there, here⟩

theorem joins_trans (first : window.joins key other = true) (second : window.joins other third = true) :
    window.joins key third = true := by
  obtain ⟨index, metric, here, middle⟩ := joins_iff.mp first
  obtain ⟨onward, another, same, there⟩ := joins_iff.mp second
  rw [middle] at same
  cases same
  exact joins_iff.mpr ⟨index.trans onward, metric, here, there⟩

theorem shares_self {metric : String} (named : key.metric = .ok metric) :
    window.shares key key = true :=
  shares_iff.mpr ⟨joins_iff.mpr ⟨rfl, metric, named, named⟩, rfl⟩

theorem shares_symm (shares : window.shares key other = true) : window.shares other key = true := by
  obtain ⟨joins, columns⟩ := shares_iff.mp shares
  exact shares_iff.mpr ⟨joins_symm joins, columns.symm⟩

theorem shares_trans (first : window.shares key other = true)
    (second : window.shares other third = true) : window.shares key third = true := by
  obtain ⟨joins, columns⟩ := shares_iff.mp first
  obtain ⟨onward, same⟩ := shares_iff.mp second
  exact shares_iff.mpr ⟨joins_trans joins onward, columns.trans same⟩

/-- The entries of the class of a key. -/
def classOf (window : Window) (key : Key) (entries : List Entry) : List Entry :=
  entries.filter fun entry => window.shares key entry.key

theorem mem_classOf {entries : List Entry} {entry : Entry} :
    entry ∈ window.classOf key entries ↔ entry ∈ entries ∧ window.shares key entry.key = true :=
  List.mem_filter

/-- A class to which an entry belongs has a first entry. -/
theorem exists_classOf_eq_cons {entries : List Entry} {entry : Entry} (member : entry ∈ entries)
    (shares : window.shares key entry.key = true) :
    ∃ first rest, window.classOf key entries = first :: rest :=
  List.exists_cons_of_ne_nil (List.ne_nil_of_mem (mem_classOf.mpr ⟨member, shares⟩))

/-- Keys that share a window have one class. -/
theorem classOf_congr (shares : window.shares key other = true) (entries : List Entry) :
    window.classOf key entries = window.classOf other entries := by
  refine List.filter_congr fun entry _ => ?_
  rw [Bool.eq_iff_iff]
  exact ⟨shares_trans (shares_symm shares), shares_trans shares⟩

theorem classOf_sublist (window : Window) (key : Key) (entries : List Entry) :
    (window.classOf key entries).Sublist entries :=
  List.filter_sublist

theorem classOf_nil : window.classOf key [] = [] := rfl

theorem classOf_append (first second : List Entry) :
    window.classOf key (first ++ second) = window.classOf key first ++ window.classOf key second :=
  List.filter_append first second

/-- What is in a run of the class is the part of the run with the columns. -/
theorem classOf_of_joins {run : List Entry}
    (joins : ∀ entry ∈ run, window.joins key entry.key = true) :
    window.classOf key run = partOf key.columns run := by
  refine List.filter_congr fun entry member => ?_
  rw [Bool.eq_iff_iff, shares_iff, decide_eq_true_eq]
  exact ⟨fun ⟨_, columns⟩ => columns.symm, fun columns => ⟨joins entry member, columns.symm⟩⟩

theorem classOf_eq_nil {entries : List Entry}
    (apart : ∀ entry ∈ entries, ¬ window.joins key entry.key = true) :
    window.classOf key entries = [] :=
  List.filter_eq_nil_iff.mpr fun entry member shares =>
    apart entry member (shares_iff.mp shares).1

/-- The pieces of a class make up the class. -/
theorem flatten_map_classOf (window : Window) (key : Key) (entries : List Entry) :
    ((window.cut entries).map (window.classOf key)).flatten = window.classOf key entries := by
  rw [← List.flatMap_def]
  conv_rhs => rw [← window.flatten_cut entries, Window.classOf, List.filter_flatten]
  rfl

end Window

/-! ## Runs -/

/-- Every part of the run is reduced to one entry. -/
def MergesRun (reducer : Reducer) (run : List Entry) : Prop :=
  ∀ part ∈ (splitBySeries run).values, ∃ entry, reducePart reducer part = ([entry], none)

/-- The parts of a run with given columns: there is one, if it is not empty. -/
theorem filter_toList_splitBySeries (run : List Entry) (columns : String × String × String) :
    ((splitBySeries run).toList.filter fun pair => pair.1 = columns).map Prod.snd
      = if partOf columns run = [] then [] else [partOf columns run] := by
  rw [SortedMap.filter_toList_key, get?_splitBySeries]
  split <;> rfl

theorem flatMap_ite_nil {α β : Type} (items : List α) (keep : α → Bool) (each : α → List β) :
    (items.flatMap fun item => if keep item then each item else [])
      = (items.filter keep).flatMap each := by
  induction items with
  | nil => rfl
  | cons item items ih =>
      rw [List.flatMap_cons, ih, List.filter_cons]
      split <;> rfl

/-- What comes of a part has the columns of the part. -/
theorem classOf_reducePart {reducer : Reducer} {window : Window} {key : Key} {run : List Entry}
    (joins : ∀ entry ∈ run, window.joins key entry.key = true)
    (columns : String × String × String) :
    window.classOf key (reducePart reducer (partOf columns run)).1
      = if columns = key.columns then (reducePart reducer (partOf columns run)).1 else [] := by
  have keys : ∀ entry ∈ (reducePart reducer (partOf columns run)).1,
      window.joins key entry.key = true ∧ entry.key.columns = columns := by
    intro entry member
    obtain ⟨source, among, same⟩ := exists_key_of_mem_reducePart member
    obtain ⟨inRun, ofColumns⟩ := List.mem_filter.mp among
    rw [← same]
    exact ⟨joins source inRun, of_decide_eq_true ofColumns⟩
  rw [Window.classOf_of_joins fun entry member => (keys entry member).1, partOf]
  split
  case isTrue here =>
    exact List.filter_eq_self.mpr fun entry member =>
      decide_eq_true ((keys entry member).2.trans here)
  case isFalse apart =>
    exact List.filter_eq_nil_iff.mpr fun entry member same =>
      apart ((keys entry member).2.symm.trans (of_decide_eq_true same))

/-- What comes of the parts of a run of the class of a key is what comes of the part of the key. -/
theorem classOf_reducedParts (reducer : Reducer) {window : Window} {key : Key} {run : List Entry}
    (joins : ∀ entry ∈ run, window.joins key entry.key = true) :
    window.classOf key (((splitBySeries run).values.map (reducePart reducer)).flatMap Prod.fst)
      = (if partOf key.columns run = [] then [] else [partOf key.columns run]).flatMap
        fun part => (reducePart reducer part).1 := by
  have each : ∀ pair ∈ (splitBySeries run).toList,
      window.classOf key (reducePart reducer pair.2).1
        = if pair.1 = key.columns then (reducePart reducer pair.2).1 else [] := by
    intro pair member
    have held := (SortedMap.mem_toList_iff _ _ _).mp member
    rw [get?_splitBySeries] at held
    split at held
    · cases held
    · rw [← Option.some.inj held]
      exact classOf_reducePart joins pair.1
  rw [← filter_toList_splitBySeries, List.flatMap_map, SortedMap.values, List.flatMap_map,
    List.flatMap_map, ← flatMap_ite_nil, Window.classOf, List.filter_flatMap]
  refine List.flatMap_congr fun pair member => (each pair member).trans ?_
  simp only [decide_eq_true_eq]

/-- What comes of a run of a window, class by class. -/
theorem classOf_reduceRun {reducer : Reducer} {window : Window} {run : List Entry} {first : Key}
    (joins : ∀ entry ∈ run, window.joins first entry.key = true) (merges : MergesRun reducer run)
    (key : Key) :
    window.classOf key (reduceRun reducer run).1
      = (reducePart reducer (window.classOf key run)).1 := by
  by_cases here : window.joins key first = true
  · have joinsKey : ∀ entry ∈ run, window.joins key entry.key = true := fun entry member =>
      Window.joins_trans here (joins entry member)
    have unsorted := classOf_reducedParts reducer joinsKey
    have sorted := (List.mergeSort_perm
      (((splitBySeries run).values.map (reducePart reducer)).flatMap Prod.fst)
      fun first second => (compare first.key second.key).isLE).filter
        fun entry => window.shares key entry.key
    rw [Window.classOf_of_joins joinsKey]
    by_cases absent : partOf key.columns run = []
    · rw [Window.classOf, if_pos absent] at unsorted
      rw [unsorted] at sorted
      rw [absent]
      exact List.Perm.eq_nil sorted
    · obtain ⟨entry, reduced⟩ := merges _ (mem_values_splitBySeries.mpr ⟨_, rfl, absent⟩)
      rw [Window.classOf, if_neg absent, List.flatMap_singleton, reduced] at unsorted
      rw [unsorted] at sorted
      rw [reduced]
      exact List.perm_singleton.mp sorted
  · have apart : ∀ entry : Entry, window.joins first entry.key = true →
        ¬ window.joins key entry.key = true := fun entry ofRun joinsKey =>
      here (Window.joins_trans joinsKey (Window.joins_symm ofRun))
    rw [Window.classOf_eq_nil fun entry member => apart entry (joins entry member)]
    refine Window.classOf_eq_nil fun entry member => ?_
    obtain ⟨source, inRun, same⟩ := exists_key_of_mem_reduceRun member
    rw [← same]
    exact apart source (joins source inRun)

/-! ## The layer -/

namespace Combined

variable {reducer : Reducer} {window : Window}

/-- Every part of every run is reduced to one entry. -/
def Merges (reducer : Reducer) (window : Window) (entries : List Entry) : Prop :=
  ∀ run ∈ window.cut entries, MergesRun reducer run

/-- If every part with entries of a kind is reduced to one entry, every part of runs of such entries
is. -/
theorem merges_of_parts {kind : Entry → Prop} {entries : List Entry}
    (reduced : ∀ first rest, (∀ entry ∈ first :: rest, kind entry) →
      ∃ entry, reducePart reducer (first :: rest) = ([entry], none))
    (all : ∀ entry ∈ entries, kind entry) : Merges reducer window entries := by
  intro run cut part member
  obtain ⟨columns, held, filled⟩ := mem_values_splitBySeries.mp member
  have partKind : ∀ entry ∈ part, kind entry := by
    intro entry found
    rw [held] at found
    exact all entry (Window.mem_of_mem_cut cut (List.mem_filter.mp found).1)
  cases part with
  | nil => exact absurd rfl filled
  | cons first rest => exact reduced first rest partKind

/-- What comes of a class is what comes of its pieces, in their order. -/
theorem classOf_combine {entries : List Entry} (merges : Merges reducer window entries)
    (named : ∀ entry ∈ entries, ∃ metric, entry.key.metric = .ok metric) (key : Key) :
    window.classOf key (combine reducer window entries)
      = ((window.cut entries).map (window.classOf key)).flatMap fun piece =>
        (reducePart reducer piece).1 := by
  rw [List.flatMap_map, combine, Window.classOf, List.filter_flatMap]
  refine List.flatMap_congr fun run member => ?_
  obtain ⟨first, rest, rfl, joins⟩ := Window.joins_of_mem_cut member
  obtain ⟨metric, firstNamed⟩ := named first (Window.mem_of_mem_cut member List.mem_cons_self)
  have self : window.joins first.key first.key = true :=
    (Window.shares_iff.mp (Window.shares_self firstNamed)).1
  exact classOf_reduceRun (List.forall_mem_cons.mpr ⟨self, joins⟩) (merges _ member) key

end Combined

/-! ## Undivided entries -/

namespace Window

variable {window : Window}

/-- No entry of another metric or window stands between two of one class. -/
def Undivided (window : Window) (entries : List Entry) : Prop :=
  ∀ first between last : Entry, [first, between, last].Sublist entries →
    window.shares first.key last.key = true → window.joins first.key between.key = true

theorem Undivided.sublist {entries some_entries : List Entry} (undivided : window.Undivided entries)
    (among : some_entries.Sublist entries) : window.Undivided some_entries :=
  fun first between last found => undivided first between last (found.trans among)

/-- The entries of a run belong to the window of the first, if they belong to a window at all. -/
theorem joins_of_mem_run {first entry : Entry} {rest : List Entry}
    (member : entry ∈ first :: rest.takeWhile fun entry => window.joins first.key entry.key)
    (self : window.joins entry.key entry.key = true) :
    window.joins first.key entry.key = true := by
  rcases List.mem_cons.mp member with rfl | inRun
  · exact self
  · exact (List.mem_takeWhile_imp inRun :)

/-- Of undivided entries, a class that has entries in a run has none behind the run. -/
theorem classOf_eq_nil_of_undivided {run behind : List Entry} {first middle : Entry} {key : Key}
    (joins : ∀ entry ∈ run, window.shares key entry.key = true →
      window.joins first.key entry.key = true)
    (ends : ¬ window.joins first.key middle.key = true)
    (undivided : window.Undivided (run ++ middle :: behind))
    (inRun : window.classOf key run ≠ []) : window.classOf key (middle :: behind) = [] := by
  obtain ⟨entry, found⟩ := List.exists_mem_of_ne_nil _ inRun
  obtain ⟨member, here⟩ := List.mem_filter.mp found
  have ofRun := joins entry member here
  refine List.filter_eq_nil_iff.mpr fun later among there => ends ?_
  have both := shares_trans (shares_symm here) there
  rcases List.mem_cons.mp among with rfl | after
  · exact joins_trans ofRun (shares_iff.mp both).1
  · refine joins_trans ofRun (undivided entry middle later ?_ both)
    exact (List.singleton_sublist.mpr member).append
      ((List.singleton_sublist.mpr after).cons_cons middle)

/-- A class of undivided entries is of one piece. -/
theorem flatMap_classOf_of_undivided {β : Type} {entries : List Entry}
    (undivided : window.Undivided entries) (key : Key) (each : List Entry → List β)
    (nothing : each [] = []) :
    ((window.cut entries).map (window.classOf key)).flatMap each
      = each (window.classOf key entries) := by
  fun_induction Window.cut window entries with
  | case1 => exact List.flatMap_nil.trans nothing.symm
  | case2 first rest ih =>
      let run := first :: rest.takeWhile fun entry => window.joins first.key entry.key
      have split : first :: rest
          = run ++ rest.dropWhile fun entry => window.joins first.key entry.key := by
        rw [List.cons_append, List.takeWhile_append_dropWhile]
      have joins : ∀ entry ∈ run, window.shares key entry.key = true →
          window.joins first.key entry.key = true := by
        intro entry member shares
        have joined := (shares_iff.mp shares).1
        exact joins_of_mem_run member (joins_trans (joins_symm joined) joined)
      have ended := List.head?_dropWhile_not
        (fun entry => window.joins first.key entry.key) rest
      rw [split] at undivided ⊢
      rw [List.map_cons, List.flatMap_cons, ih (undivided.sublist (List.sublist_append_right _ _)),
        classOf_append]
      by_cases absent : window.classOf key run = []
      · rw [absent, nothing, List.nil_append, List.nil_append]
      · cases behind : rest.dropWhile fun entry => window.joins first.key entry.key with
        | nil => rw [classOf_nil, nothing, List.append_nil, List.append_nil]
        | cons middle tail =>
            rw [behind] at ended undivided
            rw [classOf_eq_nil_of_undivided joins (Bool.eq_false_iff.mp ended) undivided absent,
              nothing, List.append_nil, List.append_nil]

/-- A class that has entries has them in some piece. -/
theorem flatMap_classOf_ne_nil {β : Type} {entries : List Entry} {key : Key}
    (each : List Entry → List β)
    (something : ∀ piece : List Entry, piece.Sublist entries → piece ≠ [] → each piece ≠ [])
    (filled : window.classOf key entries ≠ []) :
    ((window.cut entries).map (window.classOf key)).flatMap each ≠ [] := by
  obtain ⟨entry, member⟩ := List.exists_mem_of_ne_nil _ filled
  rw [← flatten_map_classOf] at member
  obtain ⟨piece, among, found⟩ := List.mem_flatten.mp member
  have part : piece.Sublist entries :=
    (List.sublist_flatten_of_mem among).trans
      (flatten_map_classOf window key entries ▸ window.classOf_sublist key entries)
  intro empty
  exact something piece part (List.ne_nil_of_mem found)
    (List.flatMap_eq_nil_iff.mp empty piece among)

theorem three_eq_append {α : Type} {first middle last : α} {front back : List α}
    (parts : [first, middle, last] = front ++ back) :
    front = [] ∨ back = [] ∨ first ∈ front ∧ last ∈ back := by
  rcases List.cons_eq_append_iff.mp parts with ⟨empty, _⟩ | ⟨tail, rfl, rest⟩
  · exact Or.inl empty
  · have ends := congrArg List.getLast? rest
    rw [List.getLast?_append] at ends
    cases found : back.getLast? with
    | none => exact Or.inr (Or.inl (List.getLast?_eq_none_iff.mp found))
    | some item =>
        rw [found] at ends
        cases ends
        exact Or.inr (Or.inr ⟨List.mem_cons_self, List.mem_of_getLast? found⟩)

/-- Entries of which each class is of one piece are undivided. -/
theorem undivided_of_pieces {β : Type} {entries : List Entry} {each : List Entry → List β}
    (named : ∀ entry ∈ entries, ∃ metric, entry.key.metric = .ok metric)
    (something : ∀ piece : List Entry, piece.Sublist entries → piece ≠ [] → each piece ≠ [])
    (once : ∀ key, (((window.cut entries).map (window.classOf key)).flatMap each).length ≤ 1) :
    window.Undivided entries := by
  fun_induction Window.cut window entries with
  | case1 =>
      intro first middle last among
      cases among
  | case2 first rest ih =>
      let run := first :: rest.takeWhile fun entry => window.joins first.key entry.key
      let later := rest.dropWhile fun entry => window.joins first.key entry.key
      have split : first :: rest = run ++ later := by
        rw [List.cons_append, List.takeWhile_append_dropWhile]
      have behind : later.Sublist (first :: rest) := split ▸ List.sublist_append_right _ _
      have joins : ∀ entry ∈ run, window.joins first.key entry.key = true := by
        intro entry member
        obtain ⟨metric, called⟩ := named entry (split ▸ List.mem_append_left later member)
        exact joins_of_mem_run member (shares_iff.mp (shares_self called)).1
      intro one middle last among shares
      rw [split] at among
      obtain ⟨front, back, parts, inRun, inLater⟩ := List.sublist_append_iff.mp among
      have total := once one.key
      rw [List.map_cons, List.flatMap_cons, List.length_append] at total
      rcases three_eq_append parts with rfl | rfl | ⟨before, after⟩
      · refine ih (fun entry member => named entry (behind.subset member))
          (fun piece part => something piece (part.trans behind)) (fun key => ?_)
          one middle last (parts ▸ inLater) shares
        have both := once key
        rw [List.map_cons, List.flatMap_cons, List.length_append] at both
        exact Nat.le_trans (Nat.le_add_left _ _) both
      · rw [List.append_nil] at parts
        have member : ∀ entry ∈ [one, middle, last], entry ∈ run := fun entry found =>
          inRun.subset (parts ▸ found)
        exact joins_trans (joins_symm (joins one (member one (by simp))))
          (joins middle (member middle (by simp)))
      · -- both the run and what follows have a piece of the class
        obtain ⟨metric, oneNamed⟩ := named one (split ▸ List.mem_append_left _ (inRun.subset before))
        have here : window.classOf one.key run ≠ [] := List.ne_nil_of_mem
          (mem_classOf.mpr ⟨inRun.subset before, shares_self oneNamed⟩)
        have there : window.classOf one.key later ≠ [] := List.ne_nil_of_mem
          (mem_classOf.mpr ⟨inLater.subset after, shares⟩)
        have first := something _ ((window.classOf_sublist _ run).trans
          (split ▸ List.sublist_append_left run later)) here
        have second := flatMap_classOf_ne_nil each
          (fun piece part => something piece (part.trans behind)) there
        exact absurd total (Nat.not_le.mpr
          (Nat.add_le_add (List.length_pos_iff.mpr first) (List.length_pos_iff.mpr second)))

end Window

/-- Of undivided entries, what comes of a class is what it is reduced to as a whole. -/
theorem Combined.classOf_combine_of_undivided {reducer : Reducer} {window : Window}
    {entries : List Entry} (merges : Merges reducer window entries)
    (named : ∀ entry ∈ entries, ∃ metric, entry.key.metric = .ok metric)
    (undivided : window.Undivided entries) (key : Key) :
    window.classOf key (combine reducer window entries)
      = (reducePart reducer (window.classOf key entries)).1 := by
  rw [classOf_combine merges named]
  exact Window.flatMap_classOf_of_undivided undivided key _ rfl

end TimeSeries
