import TimeSeries.Proofs.Cursor.Classes
import TimeSeries.Proofs.Cursor.Plain
import TimeSeries.Proofs.Entries.Canonical

/-!
# Downsampled entries are a partition

Sorted entries of whatever metrics and series are cut exactly at the buckets.  Rows sort by metric
and time, so between two entries of one bucket there are only entries of the bucket: no class of
entries is in two pieces, however the series interleave.

What is presented then has one entry for each series and bucket that occurs, under the first key of
the class, with the value of the aggregator for all its values in their order; and the keys strictly
ascend.

Main statement: `Combined.finds_partition`.
-/

set_option autoImplicit false

namespace TimeSeries

/-! ## Entries with a date -/

/-- The row names a metric without zeros at the time of the key. -/
def Key.Dated (key : Key) : Prop :=
  ∃ metric, Row.ZeroFree metric ∧ Row.decode key.row = .ok (metric, key.timestamp)

/-- The row is that of its metric at the time of the key. -/
theorem Key.Dated.exists_metric {key : Key} (dated : key.Dated) : ∃ metric, Row.ZeroFree metric
    ∧ key.row = Row.ofPoint metric key.timestamp ∧ key.metric = .ok metric := by
  obtain ⟨metric, free, decoded⟩ := dated
  exact ⟨metric, free, Row.eq_ofPoint_of_decode decoded, by
    rw [Key.metric, Row.metric, decoded]; rfl⟩

/-- The entry holds a single value, and its row names a metric without zeros at the time of its
key. -/
structure Entry.Dated (entry : Entry) : Prop where
  single : entry.value.length = 8
  row : ∃ metric, Row.ZeroFree metric ∧ Row.decode entry.key.row = .ok (metric, entry.key.timestamp)

namespace Entry.Dated

variable {entry : Entry}

theorem key (dated : entry.Dated) : entry.key.Dated := dated.row

theorem plain (dated : entry.Dated) : entry.Plain := by
  obtain ⟨metric, _, _, named⟩ := dated.key.exists_metric
  exact ⟨dated.single, metric, named⟩

end Entry.Dated

/-! ## The order of keys -/

/-- Keys in order are in the order of their metrics, and those of one metric in the order of
time. -/
theorem Key.isLE_of_rows {key other : Key} {metric another : String} (free : Row.ZeroFree metric)
    (anotherFree : Row.ZeroFree another) (row : key.row = Row.ofPoint metric key.timestamp)
    (otherRow : other.row = Row.ofPoint another other.timestamp)
    (ordered : (compare key other).isLE = true) :
    (compare (Text.encode metric) (Text.encode another)).isLE = true
      ∧ (metric = another → key.timestamp ≤ other.timestamp) := by
  rw [Key.compare_eq, Ordering.isLE_then_iff_and, row, otherRow,
    Row.compare_ofPoint free anotherFree, Ordering.isLE_then_iff_and] at ordered
  obtain ⟨⟨metrics, times⟩, _⟩ := ordered
  refine ⟨metrics, ?_⟩
  rintro rfl
  have same : compare (Text.encode metric) (Text.encode metric) = .eq := Std.ReflCmp.compare_self
  exact Std.isLE_compare.mp (times.resolve_left (by rw [same]; exact Ordering.noConfusion))

/-- Between two keys of one metric there are only keys of the metric, with times in between. -/
theorem Key.Dated.between {first middle last : Key} (firstDated : first.Dated)
    (middleDated : middle.Dated) (lastDated : last.Dated)
    (lower : (compare first middle).isLE = true) (upper : (compare middle last).isLE = true)
    {metric : String} (here : first.metric = .ok metric) (there : last.metric = .ok metric) :
    middle.metric = .ok metric ∧ first.timestamp ≤ middle.timestamp
      ∧ middle.timestamp ≤ last.timestamp := by
  obtain ⟨_, free, firstRow, firstNamed⟩ := firstDated.exists_metric
  obtain ⟨other, otherFree, middleRow, middleNamed⟩ := middleDated.exists_metric
  obtain ⟨_, _, lastRow, lastNamed⟩ := lastDated.exists_metric
  cases firstNamed.symm.trans here
  cases lastNamed.symm.trans there
  obtain ⟨notAfter, low⟩ := Key.isLE_of_rows free otherFree firstRow middleRow lower
  obtain ⟨notBefore, high⟩ := Key.isLE_of_rows otherFree free middleRow lastRow upper
  -- the metric in the middle is squeezed between the metric and itself
  have same : metric = other := Row.encode_injective
    (Std.LawfulEqCmp.eq_of_compare (Std.OrientedCmp.isLE_antisymm notAfter notBefore))
  exact ⟨same ▸ middleNamed, low same, high same.symm⟩

namespace Window

/-- Sorted entries with dates are undivided, whatever the windows and the values. -/
theorem undivided_of_sorted (window : Window) {entries : List Entry}
    (sorted : entries.Pairwise fun first second => (compare first.key second.key).isLE = true)
    (dated : ∀ entry ∈ entries, entry.key.Dated) : window.Undivided entries := by
  intro first between last among shares
  obtain ⟨behind, tail⟩ := List.pairwise_cons.mp (sorted.sublist among)
  have lower := behind between List.mem_cons_self
  have upper := (List.pairwise_cons.mp tail).1 last List.mem_cons_self
  obtain ⟨index, metric, here, there⟩ := joins_iff.mp (shares_iff.mp shares).1
  obtain ⟨named, low, high⟩ := Key.Dated.between (dated first (among.subset (by simp)))
    (dated between (among.subset (by simp))) (dated last (among.subset (by simp)))
    lower upper here there
  refine joins_iff.mpr ⟨?_, metric, here, named⟩
  have before := window.index_le low
  have after := window.index_le high
  omega

end Window

/-! ## The partition -/

/-- The second entries are the first ones downsampled: one for each series and bucket. -/
structure Downsampling.Partitions (downsampling : Downsampling) (entries output : List Entry) :
    Prop where
  /-- Only what occurs is presented. -/
  occurs : ∀ entry ∈ output, ∃ source ∈ entries, source.key = entry.key
  /-- A class is one entry under its first key, with the value of all its points in turn. -/
  once : ∀ (key : Key) (first : Entry) (rest : List Entry),
    downsampling.window.classOf key entries = first :: rest →
    ∃ value, downsampling.aggregator.aggregate ((first :: rest).map Entry.point) = some value
      ∧ downsampling.window.classOf key output = [⟨first.key, value.toBytes⟩]
  ascending : output.Pairwise fun first second => compare first.key second.key = .lt

namespace Combined

open Cursor (Finds)

/-- Each part of plain entries is reduced to one entry. -/
theorem merges_of_plain (aggregator : Aggregator) (window : Window) {entries : List Entry}
    (plain : ∀ entry ∈ entries, entry.Plain) : Merges (.aggregate aggregator) window entries :=
  merges_of_parts (fun _ _ partPlain =>
    have ⟨_, _, reduced⟩ := Reducer.reducePart_of_plain aggregator partPlain
    ⟨_, reduced⟩) plain

/-- Sorted entries of which each class has one have strictly ascending keys. -/
theorem ascending_of_once {window : Window} {output : List Entry}
    (sorted : output.Pairwise fun first second => (compare first.key second.key).isLE = true)
    (named : ∀ entry ∈ output, ∃ metric, entry.key.metric = .ok metric)
    (once : ∀ key, (window.classOf key output).length ≤ 1) :
    output.Pairwise fun first second => compare first.key second.key = .lt := by
  refine (List.pairwise_iff_forall_sublist.mpr fun {first second} among => ?_)
  have ordered := List.pairwise_iff_forall_sublist.mp sorted among
  refine (Ordering.isLE_iff_eq_lt_or_eq_eq.mp ordered).resolve_right fun same => ?_
  -- both entries would belong to the class of their key
  obtain ⟨metric, firstNamed⟩ := named first (among.subset List.mem_cons_self)
  have shared : window.shares first.key first.key = true := Window.shares_self firstNamed
  have both : window.classOf first.key [first, second] = [first, second] := by
    refine List.filter_eq_self.mpr (List.forall_mem_cons.mpr ⟨shared, ?_⟩)
    rw [List.forall_mem_singleton, ← Std.LawfulEqCmp.eq_of_compare same]
    exact shared
  have short := (among.filter fun entry => window.shares first.key entry.key).length_le
  rw [show [first, second].filter _ = [first, second] from both] at short
  exact Nat.not_succ_le_self 1 (Nat.le_trans short (once first.key))

/-- Of sorted entries with dates, what each class is reduced to is the partition. -/
theorem partitions_combine (downsampling : Downsampling) {entries : List Entry}
    (sorted : entries.Pairwise fun first second => (compare first.key second.key).isLE = true)
    (dated : ∀ entry ∈ entries, entry.Dated) :
    downsampling.Partitions entries
      (combine (.aggregate downsampling.aggregator) downsampling.window entries) := by
  have plain : ∀ entry ∈ entries, entry.Plain := fun entry member => (dated entry member).plain
  let reducer : Reducer := .aggregate downsampling.aggregator
  have whole := classOf_combine_of_undivided
    (merges_of_plain downsampling.aggregator downsampling.window plain)
    (fun entry member => (plain entry member).named)
    (downsampling.window.undivided_of_sorted sorted fun entry member => (dated entry member).key)
  have once : ∀ (key : Key) (first : Entry) (rest : List Entry),
      downsampling.window.classOf key entries = first :: rest →
      ∃ value, downsampling.aggregator.aggregate ((first :: rest).map Entry.point) = some value
        ∧ downsampling.window.classOf key (combine reducer downsampling.window entries)
          = [⟨first.key, value.toBytes⟩] := by
    intro key first rest members
    have classPlain : ∀ entry ∈ first :: rest, entry.Plain := fun entry member =>
      plain entry (Window.mem_classOf.mp (members ▸ member)).1
    obtain ⟨value, computed, reduced⟩ :=
      Reducer.reducePart_of_plain downsampling.aggregator classPlain
    exact ⟨value, computed, by rw [whole, members, reduced]⟩
  refine ⟨fun entry member => exists_key_of_mem_combine member, once, ?_⟩
  have atMost : ∀ key, (downsampling.window.classOf key
      (combine reducer downsampling.window entries)).length ≤ 1 := by
    intro key
    cases members : downsampling.window.classOf key entries with
    | nil => rw [whole, members]; exact Nat.zero_le 1
    | cons first rest =>
        obtain ⟨value, _, alone⟩ := once key first rest members
        rw [alone]
        exact Nat.le_refl 1
  refine ascending_of_once (sorted_combine reducer _ sorted) (fun entry member => ?_) atMost
  obtain ⟨source, among, same⟩ := exists_key_of_mem_combine member
  exact same ▸ (plain source among).named

/-- **Downsampling sorted entries is the exact partition**: of entries with dates in key order, one
entry is presented for each series and bucket that occurs. -/
theorem finds_partition (downsampling : Downsampling) {σ : Type} [Cursor σ] {below : σ}
    {range : KeyRange} {entries : List Entry} (found : Finds below range entries)
    (sorted : entries.Pairwise fun first second => (compare first.key second.key).isLE = true)
    (dated : ∀ entry ∈ entries, entry.Dated) :
    ∃ output, Finds (downsampled downsampling below) range output
      ∧ downsampling.Partitions entries output :=
  ⟨_, finds found (smooth_of_plain _ _ fun entry member => (dated entry member).plain),
    partitions_combine downsampling sorted dated⟩

/-- Two series in turns, on both sides of the epoch, and a key that occurs twice. -/
theorem finds_partition_of_turns :
    let entry (host : String) (timestamp : Timestamp) (value : Binary64) : Entry :=
      ⟨⟨Row.ofPoint "load" timestamp, host, "", "", timestamp⟩, value.toBytes⟩
    let entries := [entry "host=a" (-2) ⟨1⟩, entry "host=b" (-1) ⟨2⟩, entry "host=a" 0 ⟨3⟩,
      entry "host=a" 0 ⟨4⟩, entry "host=b" 1 ⟨5⟩, entry "host=a" 3 ⟨6⟩]
    let downsampling : Downsampling := ⟨2, .sum, by decide⟩
    ∃ output, Finds (downsampled downsampling (SortedEntries.mk entries entries .all)) .all output
      ∧ downsampling.Partitions entries output := by
  intro entry entries downsampling
  have dated : ∀ found ∈ entries, found.Dated := by
    have each : ∀ host timestamp value, (entry host timestamp value).Dated := fun _ _ value =>
      ⟨value.length_toBytes, "load", by rw [Row.ZeroFree]; decide, Row.decode_ofPoint _ _⟩
    simp only [entries, List.forall_mem_cons, each, true_and, List.not_mem_nil, false_implies,
      implies_true]
  exact finds_partition downsampling (SortedEntries.finds_all _) (by decide +kernel) dated

end Combined

end TimeSeries
