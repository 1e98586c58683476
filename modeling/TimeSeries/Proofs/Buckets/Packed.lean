import TimeSeries.Proofs.Buckets.Partition
import TimeSeries.Proofs.Cursor.Repacking

/-!
# Buckets of packed entries

Entries with dates whose keys strictly ascend are packed class by class: each packed entry holds the
class of its key.  Taken apart again, the points come in the order of the first keys of their
classes, and those of one class in their own order (`Window.sorted_unpacked`).

Buckets of another width see these points.  A bucket of a series has its points in the same order as
before (`Window.classOf_unpacked`), but points of other buckets may have come between them.  None
does where the windows of one grid are parts of those of the other (`Window.undivided_unpacked`).
-/

set_option autoImplicit false

namespace TimeSeries

/-! ## Entries with dates -/

namespace Entry.Dated

variable {entry other : Entry}

/-- The entry is that of a point of a strand. -/
theorem exists_strand (dated : entry.Dated) :
    ∃ strand : Strand, Row.ZeroFree strand.metric ∧ ∃ point, entry = strand.entryAt point := by
  obtain ⟨metric, free, row, _⟩ := dated.key.exists_metric
  refine ⟨⟨metric, entry.key.family, entry.key.qualifier, entry.key.visibility⟩, free,
    entry.point, ?_⟩
  have value : entry.point.value.toBytes = entry.value :=
    Binary64.toBytes_of_ofBytes dated.plain.ofBytes_value
  rw [Strand.entryAt, value]
  obtain ⟨⟨_, _, _, _, timestamp⟩, bytes⟩ := entry
  simp only at row
  rw [row]
  rfl

theorem parts (dated : entry.Dated) : entry.parts = [entry] := by
  obtain ⟨strand, _, point, rfl⟩ := dated.exists_strand
  exact strand.parts_entryAt point

theorem valid (dated : entry.Dated) : entry.Valid := by
  obtain ⟨strand, _, point, rfl⟩ := dated.exists_strand
  exact strand.valid_entryAt point

/-- Entries of one series are entries of one strand. -/
theorem exists_point_of_sameSeries {strand : Strand} {point : Point} (there : other.Dated)
    (same : (strand.key point.timestamp).sameSeries other.key = true) :
    ∃ another, other = strand.entryAt another := by
  obtain ⟨otherStrand, _, another, rfl⟩ := there.exists_strand
  obtain ⟨columns, metric, here, there⟩ := Key.sameSeries_iff.mp same
  exact ⟨another, by rw [Strand.eq_of_columns (here.trans there.symm) columns]⟩

/-- Keys of one series are in the order of time. -/
theorem before_iff_of_sameSeries (here : entry.Dated) (there : other.Dated)
    (same : entry.key.sameSeries other.key = true) :
    compare entry.key other.key = .lt ↔ entry.key.timestamp < other.key.timestamp := by
  obtain ⟨strand, _, point, rfl⟩ := here.exists_strand
  obtain ⟨another, rfl⟩ := there.exists_point_of_sameSeries same
  rw [show (strand.entryAt point).key = strand.key point.timestamp from rfl,
    show (strand.entryAt another).key = strand.key another.timestamp from rfl,
    strand.compare_key, Std.compare_eq_lt]
  rfl

end Entry.Dated

/-! ## Packing a class -/

theorem Strand.exists_points {strand : Strand} {entries : List Entry}
    (among : ∀ entry ∈ entries, ∃ point, entry = strand.entryAt point) :
    ∃ points : List Point, entries = points.map strand.entryAt := by
  induction entries with
  | nil => exact ⟨[], rfl⟩
  | cons entry entries ih =>
      obtain ⟨⟨point, rfl⟩, others⟩ := List.forall_mem_cons.mp among
      obtain ⟨points, rfl⟩ := ih others
      exact ⟨point :: points, rfl⟩

/-- Entries with dates of one series in strict key order are the parts of a stretch. -/
theorem exists_stretch_of_series {first : Entry} {rest : List Entry}
    (dated : ∀ entry ∈ first :: rest, entry.Dated)
    (ascending : (first :: rest).Pairwise fun one other => compare one.key other.key = .lt)
    (series : ∀ entry ∈ rest, first.key.sameSeries entry.key = true) :
    ∃ stretch : Stretch, stretch.parts = first :: rest
      ∧ ∀ entry ∈ first :: rest, Reducer.HoldsOf stretch.strand entry := by
  obtain ⟨firstDated, restDated⟩ := List.forall_mem_cons.mp dated
  obtain ⟨strand, _, point, rfl⟩ := firstDated.exists_strand
  obtain ⟨points, rfl⟩ := Strand.exists_points fun entry member =>
    (restDated entry member).exists_point_of_sameSeries (series entry member)
  have times : StrictlyAscending (point :: points) := by
    rw [← List.map_cons, List.pairwise_map] at ascending
    refine ascending.imp fun before => ?_
    exact Std.compare_eq_lt.mp ((strand.compare_key _ _).symm.trans before)
  refine ⟨⟨strand, point, points, times⟩, rfl, fun entry member => ?_⟩
  obtain ⟨held, _, rfl⟩ := List.mem_map.mp
    (show entry ∈ (point :: points).map strand.entryAt from member)
  exact Reducer.holdsOf_entryAt strand held

/-- They are packed to one entry, under the key of the first, that has them for parts. -/
theorem reducePart_of_series {first : Entry} {rest : List Entry}
    (dated : ∀ entry ∈ first :: rest, entry.Dated)
    (ascending : (first :: rest).Pairwise fun one other => compare one.key other.key = .lt)
    (series : ∀ entry ∈ rest, first.key.sameSeries entry.key = true) :
    ∃ packed, reducePart .pack (first :: rest) = ([packed], none)
      ∧ packed.key = first.key ∧ packed.parts = first :: rest := by
  obtain ⟨stretch, parts, hold⟩ := exists_stretch_of_series dated ascending series
  have alone := flatMap_parts_of_alone fun entry member => (dated entry member).parts
  obtain ⟨packed, reduced, held⟩ := Reducer.reducePart_of_stretch hold (alone.trans parts.symm)
  refine ⟨packed, reduced, ?_, held.parts.trans parts⟩
  rw [held.key, ← (List.cons.inj parts).1]
  rfl

/-! ## The packed entries -/

namespace Combined

variable {window : Window} {entries : List Entry} (dated : ∀ entry ∈ entries, entry.Dated)
  (ascending : entries.Pairwise fun first second => compare first.key second.key = .lt)

include dated

/-- A packed entry has the key of an entry, so it names a metric. -/
theorem named_of_mem_pack {packed : Entry} (member : packed ∈ combine .pack window entries) :
    ∃ metric, packed.key.metric = .ok metric := by
  obtain ⟨source, among, same⟩ := exists_key_of_mem_combine member
  exact same ▸ (dated source among).plain.named

include ascending

/-- Each part of a run is packed to one entry. -/
theorem merges_pack : Merges .pack window entries := by
  intro run cut part member
  obtain ⟨columns, held, filled⟩ := mem_values_splitBySeries.mp member
  obtain ⟨metric, named⟩ := Window.exists_metric_of_mem_cut
    (fun entry found => (dated entry found).valid) cut
  have ofRun : part.Sublist run := held ▸ List.filter_sublist
  have whole : part.Sublist entries :=
    window.flatten_cut entries ▸ ofRun.trans (List.sublist_flatten_of_mem cut)
  have ofColumns : ∀ entry ∈ part, entry.key.columns = columns := by
    intro entry found
    rw [held] at found
    exact of_decide_eq_true (List.mem_filter.mp found).2
  cases part with
  | nil => exact absurd rfl filled
  | cons first rest =>
      obtain ⟨packed, reduced, _⟩ := reducePart_of_series
        (fun entry found => dated entry (whole.subset found)) (ascending.sublist whole)
        fun entry found => by
          have inPart := List.mem_cons_of_mem first found
          exact Key.sameSeries_iff.mpr
            ⟨(ofColumns first List.mem_cons_self).trans (ofColumns entry inPart).symm, metric,
              named first (ofRun.subset List.mem_cons_self), named entry (ofRun.subset inPart)⟩
      exact ⟨packed, reduced⟩

theorem classOf_pack (key : Key) : window.classOf key (combine .pack window entries)
    = (reducePart .pack (window.classOf key entries)).1 :=
  classOf_combine_of_undivided (merges_pack dated ascending)
    (fun entry member => (dated entry member).plain.named)
    (window.undivided_of_sorted (ascending.imp Ordering.isLE_of_eq_lt)
      fun entry member => (dated entry member).key) key

/-- A class is packed to one entry, under its first key, that has the class for parts. -/
theorem exists_packed {key : Key} {first : Entry} {rest : List Entry}
    (members : window.classOf key entries = first :: rest) :
    ∃ packed, window.classOf key (combine .pack window entries) = [packed]
      ∧ packed.key = first.key ∧ packed.parts = window.classOf key entries := by
  have among : (first :: rest).Sublist entries := members ▸ window.classOf_sublist key entries
  have shared : ∀ entry ∈ first :: rest, window.shares key entry.key = true :=
    fun entry member => (Window.mem_classOf.mp (members ▸ member)).2
  obtain ⟨packed, reduced, named, parts⟩ := reducePart_of_series
    (fun entry member => dated entry (among.subset member)) (ascending.sublist among)
    fun entry member => by
      have both := Window.shares_trans (Window.shares_symm (shared first List.mem_cons_self))
        (shared entry (List.mem_cons_of_mem first member))
      exact (Window.shares_iff_sameSeries.mp both).1
  exact ⟨packed, by rw [classOf_pack dated ascending, members, reduced], named,
    parts.trans members.symm⟩

/-- Each packed entry has the class of its key for parts. -/
theorem parts_of_mem_pack {packed : Entry} (member : packed ∈ combine .pack window entries) :
    packed.parts = window.classOf packed.key entries
      ∧ ∃ first rest, window.classOf packed.key entries = first :: rest
        ∧ first.key = packed.key := by
  obtain ⟨source, among, named⟩ := exists_key_of_mem_combine member
  obtain ⟨metric, called⟩ := named_of_mem_pack dated member
  have self : window.shares packed.key packed.key = true := Window.shares_self called
  obtain ⟨first, rest, members⟩ : ∃ first rest,
      window.classOf packed.key entries = first :: rest :=
    Window.exists_classOf_eq_cons among (named ▸ self)
  obtain ⟨only, alone, key, parts⟩ := exists_packed dated ascending members
  have found := Window.mem_classOf.mpr ⟨member, self⟩
  rw [alone] at found
  have same := List.mem_singleton.mp found
  exact ⟨by rw [same, parts, ← same], first, rest, members, by rw [same, key]⟩

/-- The keys of packed entries strictly ascend. -/
theorem ascending_pack : (combine .pack window entries).Pairwise fun first second =>
    compare first.key second.key = .lt := by
  have sorted := sorted_combine .pack window (ascending.imp Ordering.isLE_of_eq_lt)
  have once : ∀ key, (window.classOf key (combine .pack window entries)).length ≤ 1 := by
    intro key
    cases members : window.classOf key entries with
    | nil => rw [classOf_pack dated ascending, members]; exact Nat.zero_le 1
    | cons first rest =>
        obtain ⟨packed, alone, _⟩ := exists_packed dated ascending members
        rw [alone]
        exact Nat.le_refl 1
  exact ascending_of_once sorted (fun _ member => named_of_mem_pack dated member) once

end Combined

/-! ## First keys -/

namespace Window

variable {window : Window} {entries : List Entry} {entry another : Entry}

/-- The first key of the class of a key. -/
def firstOf (window : Window) (entries : List Entry) (key : Key) : Key :=
  ((window.classOf key entries).head?.map Entry.key).getD key

/-- The first key of the class of an entry is that of an entry of the class. -/
theorem exists_firstOf (window : Window) (dated : ∀ entry ∈ entries, entry.Dated)
    (member : entry ∈ entries) :
    ∃ first ∈ entries, window.firstOf entries entry.key = first.key
      ∧ window.shares entry.key first.key = true := by
  obtain ⟨metric, named⟩ := (dated entry member).plain.named
  obtain ⟨first, rest, members⟩ :=
    exists_classOf_eq_cons member (window.shares_self named)
  obtain ⟨among, shares⟩ := mem_classOf.mp (members ▸ List.mem_cons_self)
  exact ⟨first, among, by rw [firstOf, members]; rfl, shares⟩

/-- Entries of one class have one first key. -/
theorem firstOf_of_shares (window : Window) (found : another ∈ entries)
    (shares : window.shares entry.key another.key = true) :
    window.firstOf entries entry.key = window.firstOf entries another.key := by
  obtain ⟨first, rest, members⟩ := exists_classOf_eq_cons found shares
  rw [firstOf, firstOf, ← classOf_congr shares, members]
  rfl

/-- In one series, what has the earlier first key is earlier. -/
theorem before_of_firstOf (dated : ∀ entry ∈ entries, entry.Dated) (member : entry ∈ entries)
    (found : another ∈ entries) (series : entry.key.sameSeries another.key = true)
    (before : compare (window.firstOf entries entry.key)
      (window.firstOf entries another.key) = .lt) :
    compare entry.key another.key = .lt := by
  obtain ⟨first, inFirst, named, here⟩ := window.exists_firstOf dated member
  obtain ⟨second, inSecond, called, there⟩ := window.exists_firstOf dated found
  have apart : window.index entry.key.timestamp ≠ window.index another.key.timestamp := by
    intro same
    have one := window.firstOf_of_shares found (shares_iff_sameSeries.mpr ⟨series, same⟩)
    rw [one] at before
    cases before.symm.trans Std.ReflCmp.compare_self
  obtain ⟨hereSeries, hereIndex⟩ := shares_iff_sameSeries.mp here
  obtain ⟨thereSeries, thereIndex⟩ := shares_iff_sameSeries.mp there
  rw [named, called] at before
  have firsts := (Entry.Dated.before_iff_of_sameSeries (dated first inFirst)
    (dated second inSecond) (Key.sameSeries_trans (Key.sameSeries_symm hereSeries)
      (Key.sameSeries_trans series thereSeries))).mp before
  have earlier := window.index_le (Int64.le_of_lt firsts)
  rw [← hereIndex, ← thereIndex] at earlier
  refine (Entry.Dated.before_iff_of_sameSeries (dated entry member) (dated another found)
    series).mpr (Int64.not_le.mp fun back => apart ?_)
  have later := window.index_le back
  omega

/-! ## The order of what is unpacked -/

/-- The first key of the class comes first, or within one class the own key. -/
def Precedes (window : Window) (entries : List Entry) (entry another : Entry) : Prop :=
  compare (window.firstOf entries entry.key) (window.firstOf entries another.key) = .lt
    ∨ window.firstOf entries entry.key = window.firstOf entries another.key
      ∧ compare entry.key another.key = .lt

namespace Precedes

theorem isLE (precedes : window.Precedes entries entry another) :
    (compare (window.firstOf entries entry.key)
      (window.firstOf entries another.key)).isLE = true := by
  refine Ordering.isLE_iff_eq_lt_or_eq_eq.mpr (precedes.imp_right fun within => ?_)
  rw [within.1]
  exact Std.ReflCmp.compare_self

theorem before (precedes : window.Precedes entries entry another)
    (same : window.firstOf entries entry.key = window.firstOf entries another.key) :
    compare entry.key another.key = .lt := by
  refine (precedes.resolve_left fun apart => ?_).2
  rw [same] at apart
  cases apart.symm.trans Std.ReflCmp.compare_self

end Precedes

/-- What is unpacked are the entries that were packed. -/
theorem perm_unpacked (window : Window) (dated : ∀ entry ∈ entries, entry.Dated) :
    ((Combined.combine .pack window entries).flatMap Entry.parts).Perm entries := by
  have parts := (Combined.repacks_combine window fun entry member =>
    (dated entry member).valid).2.parts
  rwa [flatMap_parts_of_alone fun entry member => (dated entry member).parts] at parts

section Unpacked

variable {other : Window} (dated : ∀ entry ∈ entries, entry.Dated)
  (ascending : entries.Pairwise fun first second => compare first.key second.key = .lt)

include dated ascending

/-- Taken apart, packed entries come in the order of the first keys of their classes, and in their
own order within a class. -/
theorem sorted_unpacked : ((Combined.combine .pack window entries).flatMap Entry.parts).Pairwise
    (window.Precedes entries) := by
  have first : ∀ packed ∈ Combined.combine .pack window entries, ∀ entry ∈ packed.parts,
      window.firstOf entries entry.key = packed.key := by
    intro packed member entry part
    obtain ⟨parts, leading, rest, members, named⟩ :=
      Combined.parts_of_mem_pack dated ascending member
    rw [parts] at part
    rw [firstOf, ← classOf_congr (mem_classOf.mp part).2, members]
    exact named
  refine List.pairwise_flatMap.mpr ⟨fun packed member => ?_, ?_⟩
  · have parts := (Combined.parts_of_mem_pack dated ascending member).1
    refine List.Pairwise.imp_of_mem (fun {one other} here there before => Or.inr ⟨?_, before⟩)
      (parts ▸ ascending.sublist (window.classOf_sublist _ entries))
    rw [first packed member one here, first packed member other there]
  · refine (Combined.ascending_pack dated ascending).imp_of_mem
      fun {packed later} member found before one here other there => Or.inl ?_
    rw [first packed member one here, first later found other there]
    exact before

/-- A class of other windows has its entries in the order that they had. -/
theorem classOf_unpacked (key : Key) :
    other.classOf key ((Combined.combine .pack window entries).flatMap Entry.parts)
      = other.classOf key entries := by
  have perm := window.perm_unpacked dated
  have classes : (other.classOf key
      ((Combined.combine .pack window entries).flatMap Entry.parts)).Perm
        (other.classOf key entries) := perm.filter _
  refine List.Perm.eq_of_pairwise (fun one another _ _ before after => ?_) ?_
    (ascending.sublist (other.classOf_sublist key entries)) classes
  · rw [Std.OrientedCmp.gt_of_lt before] at after
    cases after
  · refine ((sorted_unpacked dated ascending).sublist (other.classOf_sublist key _)).imp_of_mem
      fun {one another} here there order => ?_
    obtain ⟨inHere, sharesHere⟩ := mem_classOf.mp here
    obtain ⟨inThere, sharesThere⟩ := mem_classOf.mp there
    rcases order with apart | ⟨_, within⟩
    · exact before_of_firstOf dated (perm.subset inHere) (perm.subset inThere)
        (shares_iff_sameSeries.mp (shares_trans (shares_symm sharesHere) sharesThere)).1 apart
    · exact within

end Unpacked

/-! ## Nested grids -/

section Nested

variable {other : Window} {first middle last : Entry} (dated : ∀ entry ∈ entries, entry.Dated)
  (inFirst : first ∈ entries) (inMiddle : middle ∈ entries) (inLast : last ∈ entries)

include dated inFirst inMiddle inLast

/-- Where the windows are parts of the others, first keys in order are enough for what stands
between two entries of one window. -/
theorem joins_of_refines (refines : window.Refines other)
    (lower : (compare (window.firstOf entries first.key)
      (window.firstOf entries middle.key)).isLE = true)
    (upper : (compare (window.firstOf entries middle.key)
      (window.firstOf entries last.key)).isLE = true)
    (joins : other.joins first.key last.key = true) : other.joins first.key middle.key = true := by
  obtain ⟨leading, inLeading, firstNamed, firstShares⟩ := window.exists_firstOf dated inFirst
  obtain ⟨central, inCentral, middleNamed, middleShares⟩ := window.exists_firstOf dated inMiddle
  obtain ⟨closing, inClosing, lastNamed, lastShares⟩ := window.exists_firstOf dated inLast
  rw [firstNamed, middleNamed] at lower
  rw [middleNamed, lastNamed] at upper
  obtain ⟨same, metric, here, there⟩ := joins_iff.mp joins
  obtain ⟨firstIndex, _, firstMetric, leadingMetric⟩ := joins_iff.mp (shares_iff.mp firstShares).1
  obtain ⟨middleIndex, _, middleMetric, centralMetric⟩ :=
    joins_iff.mp (shares_iff.mp middleShares).1
  obtain ⟨lastIndex, _, lastMetric, closingMetric⟩ := joins_iff.mp (shares_iff.mp lastShares).1
  cases here.symm.trans firstMetric
  cases there.symm.trans lastMetric
  obtain ⟨named, low, high⟩ := (dated leading inLeading).key.between
    (dated central inCentral).key (dated closing inClosing).key lower upper leadingMetric
    closingMetric
  cases named.symm.trans centralMetric
  have before := refines.index_le (firstIndex ▸ middleIndex ▸ window.index_le low)
  have after := refines.index_le (middleIndex ▸ lastIndex ▸ window.index_le high)
  exact joins_iff.mpr ⟨by omega, metric, here, middleMetric⟩

/-- Where the others are parts of the windows, two entries of one class come of one packed entry,
and so does what stands between them. -/
theorem joins_of_coarser (coarser : other.Refines window)
    (lower : window.Precedes entries first middle) (upper : window.Precedes entries middle last)
    (shares : other.shares first.key last.key = true) :
    other.joins first.key middle.key = true := by
  obtain ⟨series, index⟩ := shares_iff_sameSeries.mp shares
  have ends := window.firstOf_of_shares inLast
    (shares_iff_sameSeries.mpr ⟨series, coarser _ _ index⟩)
  have start : window.firstOf entries first.key = window.firstOf entries middle.key :=
    Std.LawfulEqCmp.eq_of_compare
      (Std.OrientedCmp.isLE_antisymm lower.isLE (ends ▸ upper.isLE))
  obtain ⟨_, metric, here, there⟩ := joins_iff.mp (shares_iff.mp shares).1
  obtain ⟨named, low, high⟩ := (dated first inFirst).key.between (dated middle inMiddle).key
    (dated last inLast).key (Ordering.isLE_of_eq_lt (lower.before start))
    (Ordering.isLE_of_eq_lt (upper.before (start.symm.trans ends))) here there
  have before := other.index_le low
  have after := other.index_le high
  exact joins_iff.mpr ⟨by omega, metric, here, named⟩

end Nested

/-- Where the windows of one grid are parts of those of the other, what is unpacked is undivided in
the other. -/
theorem undivided_unpacked {other : Window} (dated : ∀ entry ∈ entries, entry.Dated)
    (ascending : entries.Pairwise fun first second => compare first.key second.key = .lt)
    (nested : window.Refines other ∨ other.Refines window) :
    other.Undivided ((Combined.combine .pack window entries).flatMap Entry.parts) := by
  intro first middle last among shares
  have all : ∀ found ∈ [first, middle, last], found ∈ entries := fun found member =>
    (window.perm_unpacked dated).subset (among.subset member)
  obtain ⟨inFirst, inMiddle, inLast, _⟩ := by
    simpa only [List.forall_mem_cons] using all
  obtain ⟨behind, tail⟩ := List.pairwise_cons.mp ((sorted_unpacked dated ascending).sublist among)
  have lower := behind middle List.mem_cons_self
  have upper := (List.pairwise_cons.mp tail).1 last List.mem_cons_self
  rcases nested with finer | coarser
  · exact joins_of_refines dated inFirst inMiddle inLast finer lower.isLE upper.isLE
      (shares_iff.mp shares).1
  · exact joins_of_coarser dated inFirst inMiddle inLast coarser lower upper shares

end Window

end TimeSeries
