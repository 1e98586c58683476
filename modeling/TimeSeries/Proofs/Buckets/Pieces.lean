import Mathlib.Data.List.Forall2
import TimeSeries.Proofs.Buckets.Partition

/-!
# Buckets in several pieces

Plain entries may come in any order.  A bucket of a series is then cut into pieces, one for each run
that meets it, and one entry is presented for each piece: no point is lost and none is used twice,
but a bucket may have several entries (`Combined.cutsUp_combine`).

If the entries are those of a partition in another order that keeps each class in its own order,
what is presented is that of the partition exactly if no bucket has two entries
(`Downsampling.CutsUp.same_iff_once`), and that is so exactly if the entries are undivided
(`Combined.once_iff_undivided`).
-/

set_option autoImplicit false

namespace TimeSeries

/-! ## Pieces -/

namespace Downsampling

/-- The entry has the value of the points of the piece in turn, under the first key of the piece. -/
def Reduces (downsampling : Downsampling) (piece : List Entry) (entry : Entry) : Prop :=
  ∃ first rest value, piece = first :: rest
    ∧ downsampling.aggregator.aggregate (piece.map Entry.point) = some value
    ∧ entry = ⟨first.key, value.toBytes⟩

/-- The second entries are those of consecutive pieces of the classes of the first ones. -/
structure CutsUp (downsampling : Downsampling) (entries output : List Entry) : Prop where
  /-- Only what occurs is presented. -/
  occurs : ∀ entry ∈ output, ∃ source ∈ entries, source.key = entry.key
  /-- A class is cut into pieces, and there is one entry for each of them. -/
  pieces : ∀ key : Key, ∃ pieces : List (List Entry),
    pieces.flatten = downsampling.window.classOf key entries
      ∧ List.Forall₂ downsampling.Reduces pieces (downsampling.window.classOf key output)

variable {downsampling : Downsampling} {pieces : List (List Entry)} {entries output : List Entry}

theorem Reduces.unique {piece : List Entry} {entry other : Entry}
    (here : downsampling.Reduces piece entry) (there : downsampling.Reduces piece other) :
    entry = other := by
  obtain ⟨first, rest, value, rfl, computed, rfl⟩ := here
  obtain ⟨_, _, another, same, again, rfl⟩ := there
  obtain ⟨rfl, rfl⟩ := List.cons.inj same
  rw [Option.some.inj (computed.symm.trans again)]

theorem exists_source_of_reduces (reduces : List.Forall₂ downsampling.Reduces pieces output)
    {entry : Entry} (member : entry ∈ output) : ∃ source ∈ pieces.flatten, source.key = entry.key := by
  induction reduces with
  | nil => cases member
  | cons here _ ih =>
      rw [List.flatten_cons]
      rcases List.mem_cons.mp member with rfl | later
      · obtain ⟨first, rest, value, rfl, _, rfl⟩ := here
        exact ⟨first, List.mem_append_left _ List.mem_cons_self, rfl⟩
      · obtain ⟨source, among, same⟩ := ih later
        exact ⟨source, List.mem_append_right _ among, same⟩

/-- Of entries with ascending keys, the pieces have ascending keys. -/
theorem ascending_of_reduces (reduces : List.Forall₂ downsampling.Reduces pieces output)
    (ascending : pieces.flatten.Pairwise fun one other => compare one.key other.key = .lt) :
    output.Pairwise fun one other => compare one.key other.key = .lt := by
  induction reduces with
  | nil => exact List.Pairwise.nil
  | cons here others ih =>
      rw [List.flatten_cons] at ascending
      obtain ⟨_, behind, across⟩ := List.pairwise_append.mp ascending
      refine List.pairwise_cons.mpr ⟨fun entry member => ?_, ih behind⟩
      obtain ⟨first, rest, value, rfl, _, rfl⟩ := here
      obtain ⟨source, among, same⟩ := exists_source_of_reduces others member
      exact same ▸ across first List.mem_cons_self source among

/-! ## Against the partition -/

/-- Of a partition, no class has two entries. -/
theorem Partitions.length_le (partitions : downsampling.Partitions entries output) (key : Key) :
    (downsampling.window.classOf key output).length ≤ 1 := by
  cases members : downsampling.window.classOf key entries with
  | nil =>
      have none : downsampling.window.classOf key output = [] := by
        refine List.filter_eq_nil_iff.mpr fun entry member shares => ?_
        obtain ⟨source, among, same⟩ := partitions.occurs entry member
        have found : source ∈ downsampling.window.classOf key entries :=
          Window.mem_classOf.mpr ⟨among, same ▸ shares⟩
        rw [members] at found
        cases found
      rw [none]
      exact Nat.zero_le 1
  | cons first rest =>
      obtain ⟨value, _, alone⟩ := partitions.once key first rest members
      rw [alone]
      exact Nat.le_refl 1

namespace CutsUp

variable {later : List Entry}

/-- A class of one piece has the entry that it has in the partition. -/
theorem classOf_eq_of_length_le (cutsUp : downsampling.CutsUp entries later)
    (partitions : downsampling.Partitions entries output) {key : Key}
    (once : (downsampling.window.classOf key later).length ≤ 1) {entry : Entry}
    (member : entry ∈ downsampling.window.classOf key entries) :
    downsampling.window.classOf key later = downsampling.window.classOf key output := by
  obtain ⟨pieces, flat, reduces⟩ := cutsUp.pieces key
  rw [← reduces.length_eq] at once
  match pieces, once with
  | [], _ => rw [← flat] at member; cases member
  | [piece], _ =>
      rw [List.flatten_singleton] at flat
      generalize downsampling.window.classOf key later = presented at reduces
      obtain _ | ⟨reduced, ⟨⟩⟩ := reduces
      obtain ⟨first, rest, value, rfl, computed, rfl⟩ := reduced
      obtain ⟨another, again, alone⟩ := partitions.once key first rest flat.symm
      rw [alone, Option.some.inj (computed.symm.trans again)]

/-- What is presented is the partition exactly if no class has two entries. -/
theorem same_iff_once (cutsUp : downsampling.CutsUp entries later)
    (partitions : downsampling.Partitions entries output)
    (named : ∀ entry ∈ entries, ∃ metric, entry.key.metric = .ok metric)
    (ascending : entries.Pairwise fun one other => compare one.key other.key = .lt) :
    (∀ entry, entry ∈ later ↔ entry ∈ output)
      ↔ ∀ key, (downsampling.window.classOf key later).length ≤ 1 := by
  constructor
  · intro same key
    obtain ⟨pieces, flat, reduces⟩ := cutsUp.pieces key
    have apart := ascending_of_reduces reduces (flat ▸ ascending.sublist (Window.classOf_sublist _ key entries))
    have within : ∀ entry ∈ downsampling.window.classOf key later,
        entry ∈ downsampling.window.classOf key output := by
      intro entry member
      obtain ⟨among, shares⟩ := Window.mem_classOf.mp member
      exact Window.mem_classOf.mpr ⟨(same entry).mp among, shares⟩
    have distinct : (downsampling.window.classOf key later).Nodup :=
      apart.imp fun before same => by
        rw [same] at before
        cases before.symm.trans Std.ReflCmp.compare_self
    exact Nat.le_trans (List.subperm_of_subset distinct within).length_le
      (partitions.length_le key)
  · intro once entry
    have classes : ∀ source ∈ entries, source.key = entry.key →
        (entry ∈ later ↔ entry ∈ output) := by
      intro source among same
      obtain ⟨metric, called⟩ := named source among
      have self : downsampling.window.shares entry.key entry.key = true :=
        Window.shares_self (same ▸ called)
      have inClass : ∀ presented, entry ∈ presented
          ↔ entry ∈ downsampling.window.classOf entry.key presented := fun presented =>
        (and_iff_left self).symm.trans Window.mem_classOf.symm
      rw [inClass later, inClass output, cutsUp.classOf_eq_of_length_le partitions
        (once entry.key) (Window.mem_classOf.mpr ⟨among, same ▸ self⟩)]
    constructor
    · intro member
      obtain ⟨source, among, same⟩ := cutsUp.occurs entry member
      exact (classes source among same).mp member
    · intro member
      obtain ⟨source, among, same⟩ := partitions.occurs entry member
      exact (classes source among same).mpr member

end CutsUp

end Downsampling

/-! ## The layer -/

namespace Combined

/-- One entry comes of each piece that has entries. -/
theorem exists_pieces {reducer : Reducer} {relates : List Entry → Entry → Prop}
    {parts : List (List Entry)}
    (reduced : ∀ part ∈ parts, part ≠ [] →
      ∃ entry, relates part entry ∧ (reducePart reducer part).1 = [entry]) :
    ∃ pieces : List (List Entry), pieces.flatten = parts.flatten
      ∧ List.Forall₂ relates pieces (parts.flatMap fun part => (reducePart reducer part).1) := by
  induction parts with
  | nil => exact ⟨[], rfl, .nil⟩
  | cons part parts ih =>
      obtain ⟨here, others⟩ := List.forall_mem_cons.mp reduced
      obtain ⟨pieces, flat, relate⟩ := ih others
      cases part with
      | nil => exact ⟨pieces, flat, relate⟩
      | cons first rest =>
          obtain ⟨entry, related, alone⟩ := here (List.cons_ne_nil first rest)
          refine ⟨(first :: rest) :: pieces, by rw [List.flatten_cons, flat, List.flatten_cons], ?_⟩
          rw [List.flatMap_cons, alone]
          exact .cons related relate

/-- If every part of entries of a kind is reduced to one entry, the classes of such entries are cut
into pieces with one entry each. -/
theorem exists_pieces_of_class {reducer : Reducer} {window : Window} {kind : Entry → Prop}
    {relates : List Entry → Entry → Prop} {entries : List Entry}
    (reduced : ∀ first rest, (∀ entry ∈ first :: rest, kind entry) →
      ∃ entry, relates (first :: rest) entry ∧ reducePart reducer (first :: rest) = ([entry], none))
    (all : ∀ entry ∈ entries, kind entry)
    (named : ∀ entry ∈ entries, ∃ metric, entry.key.metric = .ok metric) (key : Key) :
    ∃ pieces : List (List Entry), pieces.flatten = window.classOf key entries
      ∧ List.Forall₂ relates pieces (window.classOf key (combine reducer window entries)) := by
  have merges : Merges reducer window entries := merges_of_parts (fun first rest held =>
    have ⟨entry, _, alone⟩ := reduced first rest held
    ⟨entry, alone⟩) all
  rw [classOf_combine merges named, ← Window.flatten_map_classOf]
  refine exists_pieces fun part among filled => ?_
  have partKind : ∀ entry ∈ part, kind entry := by
    intro entry member
    have inClass := List.mem_flatten_of_mem among member
    rw [Window.flatten_map_classOf] at inClass
    exact all entry (Window.mem_classOf.mp inClass).1
  cases part with
  | nil => exact absurd rfl filled
  | cons first rest =>
      obtain ⟨entry, related, alone⟩ := reduced first rest partKind
      exact ⟨entry, related, by rw [alone]⟩

/-- What plain entries are downsampled to, in whatever order they come. -/
theorem cutsUp_combine (downsampling : Downsampling) {entries : List Entry}
    (plain : ∀ entry ∈ entries, entry.Plain) :
    downsampling.CutsUp entries
      (combine (.aggregate downsampling.aggregator) downsampling.window entries) := by
  refine ⟨fun entry member => exists_key_of_mem_combine member, exists_pieces_of_class ?_ plain
    fun entry member => (plain entry member).named⟩
  intro first rest partPlain
  obtain ⟨value, computed, reduced⟩ :=
    Reducer.reducePart_of_plain downsampling.aggregator partPlain
  exact ⟨_, ⟨first, rest, value, rfl, computed, rfl⟩, reduced⟩

/-- No class has two entries exactly if the entries are undivided. -/
theorem once_iff_undivided (downsampling : Downsampling) {entries : List Entry}
    (plain : ∀ entry ∈ entries, entry.Plain) :
    (∀ key, (downsampling.window.classOf key
        (combine (.aggregate downsampling.aggregator) downsampling.window entries)).length ≤ 1)
      ↔ downsampling.window.Undivided entries := by
  have merges := merges_of_plain downsampling.aggregator downsampling.window plain
  have named : ∀ entry ∈ entries, ∃ metric, entry.key.metric = .ok metric :=
    fun entry member => (plain entry member).named
  have reduced : ∀ part : List Entry, part.Sublist entries → part ≠ [] →
      ∃ entry, (reducePart (.aggregate downsampling.aggregator) part).1 = [entry] := by
    intro part among filled
    cases part with
    | nil => exact absurd rfl filled
    | cons first rest =>
        obtain ⟨value, _, alone⟩ := Reducer.reducePart_of_plain downsampling.aggregator
          fun entry member => plain entry (among.subset member)
        exact ⟨_, by rw [alone]⟩
  constructor
  · intro once
    refine Window.undivided_of_pieces named (fun piece among filled => ?_)
      fun key => classOf_combine merges named key ▸ once key
    obtain ⟨entry, alone⟩ := reduced piece among filled
    rw [alone]
    exact List.cons_ne_nil entry []
  · intro undivided key
    rw [classOf_combine_of_undivided merges named undivided]
    by_cases empty : downsampling.window.classOf key entries = []
    · rw [empty]
      exact Nat.zero_le 1
    · obtain ⟨entry, alone⟩ := reduced _ (Window.classOf_sublist _ key entries) empty
      rw [alone]
      exact Nat.le_refl 1

end Combined

end TimeSeries
