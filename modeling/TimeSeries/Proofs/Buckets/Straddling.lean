import TimeSeries.Proofs.Buckets.Pieces
import TimeSeries.Proofs.Cursor.Repacking

/-!
# Packed runs across a boundary

The layer that downsamples goes by keys, and a packed run has the key of its first point.  Where
runs have not been expanded below, a run is aggregated as a whole in the bucket of its first point,
whatever buckets its other points are in.

Of valid entries, single and packed and in any order, each class of keys is cut into pieces, and
there is one value for each piece, of all the points of its entries; every entry is used once.  The
points of a value are in the bucket of its key exactly if no run straddles the end of a bucket.  If
the entries are sorted there is one value for each series and bucket.

Main statements: `Combined.finds_condensed`, and `Combined.finds_condensed_of_straddling` for a run
of two points in two buckets.
-/

set_option autoImplicit false

namespace TimeSeries

/-! ## Points of entries -/

namespace Entry

/-- The points of an entry; there are none if it cannot be read. -/
def points (entry : Entry) : List Point := entry.toPoints.toOption.getD []

namespace Valid

variable {entry : Entry}

theorem toPoints_eq (valid : entry.Valid) : entry.toPoints = .ok entry.points := by
  obtain ⟨first, rest, read, _⟩ := valid.points
  rw [Entry.points, read]
  rfl

theorem points_ne_nil (valid : entry.Valid) : entry.points ≠ [] := by
  obtain ⟨first, rest, read, _⟩ := valid.points
  rw [Entry.points, read]
  exact List.cons_ne_nil first rest

theorem named (valid : entry.Valid) : ∃ metric, entry.key.metric = .ok metric := by
  obtain ⟨metric, decoded⟩ := valid.row
  exact ⟨metric, by rw [Key.metric, Row.metric, decoded]; rfl⟩

end Valid

end Entry

namespace Reducer

theorem allPoints_of_valid {entries : List Entry} (valid : ∀ entry ∈ entries, entry.Valid) :
    allPoints entries = .ok (entries.flatMap Entry.points) := by
  induction entries with
  | nil => rfl
  | cons entry entries ih =>
      obtain ⟨here, others⟩ := List.forall_mem_cons.mp valid
      rw [allPoints, here.toPoints_eq, ih others]
      rfl

/-- A part of valid entries is reduced to the value of all their points. -/
theorem reducePart_of_valid (aggregator : Aggregator) {first : Entry} {rest : List Entry}
    (valid : ∀ entry ∈ first :: rest, entry.Valid) :
    ∃ value, aggregator.aggregate ((first :: rest).flatMap Entry.points) = some value
      ∧ reducePart (.aggregate aggregator) (first :: rest)
        = ([⟨first.key, value.toBytes⟩], none) := by
  have filled : (first :: rest).flatMap Entry.points ≠ [] := by
    rw [List.flatMap_cons]
    exact List.append_ne_nil_of_left_ne_nil (valid first List.mem_cons_self).points_ne_nil _
  obtain ⟨value, computed⟩ := Option.isSome_iff_exists.mp (aggregator.isSome_aggregate filled)
  refine ⟨value, computed, ?_⟩
  have written : Reducer.aggregate aggregator first.key (first :: rest) = .ok value.toBytes := by
    simp only [aggregate, allPoints_of_valid valid, bind, Except.bind, computed]
    rfl
  rw [reducePart, written]

end Reducer

/-! ## Runs of points in buckets -/

namespace Downsampling

/-- The entry has the value of all points of the piece in turn, under the first key of the piece. -/
def Aggregates (downsampling : Downsampling) (piece : List Entry) (entry : Entry) : Prop :=
  ∃ first rest value, piece = first :: rest
    ∧ downsampling.aggregator.aggregate (piece.flatMap Entry.points) = some value
    ∧ entry = ⟨first.key, value.toBytes⟩

/-- The points of the entries are in the bucket of a timestamp. -/
def Within (downsampling : Downsampling) (timestamp : Timestamp) (entries : List Entry) : Prop :=
  ∀ entry ∈ entries, ∀ point ∈ entry.points,
    downsampling.bucketOf point.timestamp = downsampling.bucketOf timestamp

/-- The second entries are the first ones downsampled, runs of points among them.  A class of keys
is cut into pieces with one entry each; the points of all pieces are in the bucket of their class
exactly if those of each entry are in the bucket of its key; and a class of sorted entries is one
piece. -/
structure Condenses (downsampling : Downsampling) (entries output : List Entry) : Prop where
  occurs : ∀ entry ∈ output, ∃ source ∈ entries, source.key = entry.key
  pieces : ∀ key, ∃ pieces, pieces.flatten = downsampling.window.classOf key entries
    ∧ List.Forall₂ downsampling.Aggregates pieces (downsampling.window.classOf key output)
  within_iff : (∀ key, ∃ pieces, pieces.flatten = downsampling.window.classOf key entries
      ∧ List.Forall₂ downsampling.Aggregates pieces (downsampling.window.classOf key output)
      ∧ ∀ piece ∈ pieces, downsampling.Within key.timestamp piece)
    ↔ ∀ entry ∈ entries, downsampling.Within entry.key.timestamp [entry]
  once : (entries.Pairwise fun first second => (compare first.key second.key).isLE = true) →
    (∀ entry ∈ entries, entry.key.Dated) →
    ∀ (key : Key) (first : Entry) (rest : List Entry),
      downsampling.window.classOf key entries = first :: rest →
      ∃ value, downsampling.aggregator.aggregate ((first :: rest).flatMap Entry.points) = some value
        ∧ downsampling.window.classOf key output = [⟨first.key, value.toBytes⟩]

variable {downsampling : Downsampling} {entries : List Entry}

/-- Entries of one class have keys in one bucket. -/
theorem bucketOf_of_mem_classOf {key : Key} {entry : Entry}
    (member : entry ∈ downsampling.window.classOf key entries) :
    downsampling.bucketOf entry.key.timestamp = downsampling.bucketOf key.timestamp :=
  (Window.shares_iff_sameSeries.mp (Window.mem_classOf.mp member).2).2.symm

/-- Whatever the pieces are, the points of a class are in its bucket if those of each of its entries
are in the bucket of the entry. -/
theorem within_classOf_iff {key : Key} :
    downsampling.Within key.timestamp (downsampling.window.classOf key entries)
      ↔ ∀ entry ∈ downsampling.window.classOf key entries,
        downsampling.Within entry.key.timestamp [entry] := by
  refine forall₂_congr fun entry member => ?_
  rw [Within, List.forall_mem_singleton, bucketOf_of_mem_classOf member]

/-- All classes are in their buckets exactly if all entries are. -/
theorem within_classes_iff (valid : ∀ entry ∈ entries, entry.Valid) :
    (∀ key : Key, downsampling.Within key.timestamp (downsampling.window.classOf key entries))
      ↔ ∀ entry ∈ entries, downsampling.Within entry.key.timestamp [entry] := by
  constructor
  · intro within entry member
    obtain ⟨metric, named⟩ := (valid entry member).named
    exact within_classOf_iff.mp (within entry.key) entry
      (Window.mem_classOf.mpr ⟨member, Window.shares_self named⟩)
  · intro within key
    exact within_classOf_iff.mpr fun entry member => within entry (Window.mem_classOf.mp member).1

end Downsampling

/-! ## The layer -/

namespace Combined

open Cursor (Finds)

/-- Each part of a run of valid entries is reduced to one entry. -/
theorem merges_of_valid (aggregator : Aggregator) (window : Window) {entries : List Entry}
    (valid : ∀ entry ∈ entries, entry.Valid) : Merges (.aggregate aggregator) window entries :=
  merges_of_parts (fun _ _ partValid =>
    have ⟨_, _, reduced⟩ := Reducer.reducePart_of_valid aggregator partValid
    ⟨_, reduced⟩) valid

/-- Where every part is reduced to one entry nothing fails. -/
theorem smooth_of_merges {reducer : Reducer} {window : Window} {entries : List Entry}
    (merges : Merges reducer window entries) : Smooth reducer window entries := by
  intro run cut
  rw [reduceRun, List.findSome?_eq_none_iff]
  intro output reduced
  obtain ⟨part, member, rfl⟩ := List.mem_map.mp reduced
  obtain ⟨entry, alone⟩ := merges run cut part member
  rw [alone]

/-- What valid entries are downsampled to, in whatever order they come. -/
theorem condenses_combine (downsampling : Downsampling) {entries : List Entry}
    (valid : ∀ entry ∈ entries, entry.Valid) :
    downsampling.Condenses entries
      (combine (.aggregate downsampling.aggregator) downsampling.window entries) := by
  have named : ∀ entry ∈ entries, ∃ metric, entry.key.metric = .ok metric :=
    fun entry member => (valid entry member).named
  have pieces : ∀ key, ∃ pieces, pieces.flatten = downsampling.window.classOf key entries
      ∧ List.Forall₂ downsampling.Aggregates pieces (downsampling.window.classOf key
        (combine (.aggregate downsampling.aggregator) downsampling.window entries)) := by
    refine exists_pieces_of_class ?_ valid named
    intro first rest partValid
    obtain ⟨value, computed, reduced⟩ :=
      Reducer.reducePart_of_valid downsampling.aggregator partValid
    exact ⟨_, ⟨first, rest, value, rfl, computed, rfl⟩, reduced⟩
  have flat : ∀ {pieces : List (List Entry)} {members : List Entry} {timestamp : Timestamp},
      pieces.flatten = members → ((∀ piece ∈ pieces, downsampling.Within timestamp piece)
        ↔ downsampling.Within timestamp members) := by
    rintro pieces _ timestamp rfl
    exact List.forall_mem_flatten.symm
  refine ⟨fun entry member => exists_key_of_mem_combine member, pieces, ?_, ?_⟩
  · rw [← Downsampling.within_classes_iff valid]
    constructor
    · intro found key
      obtain ⟨cut, whole, _, within⟩ := found key
      exact (flat whole).mp within
    · intro within key
      obtain ⟨cut, whole, aggregates⟩ := pieces key
      exact ⟨cut, whole, aggregates, (flat whole).mpr (within key)⟩
  · intro sorted dated key first rest members
    obtain ⟨value, computed, reduced⟩ :=
      Reducer.reducePart_of_valid downsampling.aggregator fun entry member =>
        valid entry (Window.mem_classOf.mp (members ▸ member)).1
    refine ⟨value, computed, ?_⟩
    rw [classOf_combine_of_undivided (merges_of_valid _ _ valid) named
      (downsampling.window.undivided_of_sorted sorted dated), members, reduced]

/-- **Downsampling goes by keys.**  Of valid entries, single and packed, each class of keys is cut
into pieces with one value each, of all points of its entries, and no point is aggregated outside
its own bucket exactly if no packed run straddles the end of a bucket. -/
theorem finds_condensed (downsampling : Downsampling) {σ : Type} [Cursor σ] {below : σ}
    {range : KeyRange} {entries : List Entry} (found : Finds below range entries)
    (valid : ∀ entry ∈ entries, entry.Valid) :
    ∃ output, Finds (downsampled downsampling below) range output
      ∧ downsampling.Condenses entries output :=
  ⟨_, finds found (smooth_of_merges (merges_of_valid _ _ valid)),
    condenses_combine downsampling valid⟩

/-- A packed run with its second point at the end of a bucket, and a value in the bucket that begins
there: the bucket of the first point has the aggregate of both points of the run. -/
theorem finds_condensed_of_straddling :
    let strand : Strand := ⟨"load", "host=a", "", ""⟩
    let points : List Point := [⟨0, ⟨1⟩⟩, ⟨1000, ⟨2⟩⟩]
    let entries := [Entry.mk (strand.key 0) (packPoints points), strand.entryAt ⟨1500, ⟨3⟩⟩]
    let downsampling : Downsampling := ⟨1000, .sum, by decide⟩
    ∃ output, Finds (downsampled downsampling (SortedEntries.mk entries entries .all)) .all output
      ∧ downsampling.Condenses entries output
      ∧ (¬ ∀ entry ∈ entries, downsampling.Within entry.key.timestamp [entry])
      ∧ ∃ value, Aggregator.sum.aggregate points = some value
        ∧ downsampling.window.classOf (strand.key 0) output
          = [⟨strand.key 0, value.toBytes⟩] := by
  intro strand points entries downsampling
  have read : (Entry.mk (strand.key 0) (packPoints points)).toPoints = .ok points :=
    unpackPoints_packPoints (List.pairwise_pair.mpr (by decide))
  have held : (Entry.mk (strand.key 0) (packPoints points)).points = points := by
    rw [Entry.points, read]
    rfl
  have valid : ∀ entry ∈ entries, entry.Valid := by
    simp only [entries, List.forall_mem_cons]
    exact ⟨⟨⟨_, Row.decode_ofPoint _ _⟩, _, _, read, rfl⟩, strand.valid_entryAt _, by simp⟩
  have dated : ∀ entry ∈ entries, entry.key.Dated := by
    have each : ∀ timestamp, (strand.key timestamp).Dated := fun timestamp =>
      ⟨"load", by rw [Row.ZeroFree]; decide, Row.decode_ofPoint _ _⟩
    simp only [entries, List.forall_mem_cons]
    exact ⟨each 0, each 1500, by simp⟩
  obtain ⟨output, found, condenses⟩ :=
    finds_condensed downsampling (SortedEntries.finds_all (.mk entries entries .all)) valid
  refine ⟨output, found, condenses, fun within => ?_, ?_⟩
  · have second := within _ List.mem_cons_self _ List.mem_cons_self ⟨1000, ⟨2⟩⟩ (by
      rw [held]
      exact List.mem_cons_of_mem _ List.mem_cons_self)
    exact absurd second (by decide)
  · obtain ⟨value, computed, alone⟩ := condenses.once (by decide +kernel) dated (strand.key 0)
      (Entry.mk (strand.key 0) (packPoints points)) [] (by decide +kernel)
    rw [List.flatMap_singleton, held] at computed
    exact ⟨value, computed, alone⟩

end Combined

end TimeSeries
