import Mathlib.Data.List.Perm.Basic
import TimeSeries.Proofs.Cursor.Combination
import TimeSeries.Proofs.Cursor.Expansion

/-!
# Packing loses and invents nothing

An entry is valid if its row names the time of its key and its points strictly ascend from that
time.  Packing takes valid entries in any order, packed runs and repeated times among them.  Each
entry that comes of it is valid and made of entries of one series: it has their points in turn, and
no entry is used twice or left out.

So the points are those that were there, in another order perhaps; and if the entries were in key
order, what comes of them is too.

Main statement: `Combined.finds_repacked`.
-/

set_option autoImplicit false

namespace TimeSeries

/-! ## Valid entries -/

/-- The entry has points in strict time order, the first at the time that key and row name. -/
structure Entry.Valid (entry : Entry) : Prop where
  row : ∃ metric, Row.decode entry.key.row = .ok (metric, entry.key.timestamp)
  points : ∃ first rest, entry.toPoints = .ok (first :: rest)
    ∧ first.timestamp = entry.key.timestamp

theorem Entry.strictlyAscending_of_toPoints {entry : Entry} {points : List Point}
    (read : entry.toPoints = .ok points) : StrictlyAscending points := by
  rw [Entry.toPoints] at read
  split at read
  case isTrue => exact strictlyAscending_of_unpackPoints read
  case isFalse =>
    cases value : Binary64.ofBytes entry.value with
    | error failure => rw [value] at read; cases read
    | ok value' =>
        rw [value] at read
        cases read
        exact List.pairwise_singleton _ _

/-- Valid entries are those that hold a stretch. -/
theorem Entry.valid_iff {entry : Entry} : entry.Valid ↔ ∃ stretch : Stretch, stretch.HeldBy entry := by
  constructor
  · rintro ⟨⟨metric, named⟩, first, rest, points, time⟩
    have row := Row.eq_ofPoint_of_decode named
    obtain ⟨⟨_, family, qualifier, visibility, timestamp⟩, value⟩ := entry
    simp only at row time
    subst row time
    exact ⟨⟨⟨metric, family, qualifier, visibility⟩, first, rest,
      strictlyAscending_of_toPoints points⟩, rfl, points⟩
  · rintro ⟨stretch, held⟩
    refine ⟨⟨stretch.strand.metric, ?_⟩, stretch.first, stretch.rest, held.points, ?_⟩
    · rw [held.key]
      exact Row.decode_ofPoint _ _
    · rw [held.key]
      rfl

/-! ## Entries of single points -/

/-- The entry of a point is its only part. -/
theorem Strand.parts_entryAt (strand : Strand) (point : Point) :
    (strand.entryAt point).parts = [strand.entryAt point] := by
  rw [← Stretch.entry_single, Stretch.parts_entry, Stretch.parts_single, Stretch.entry_single]

theorem Strand.valid_entryAt (strand : Strand) (point : Point) : (strand.entryAt point).Valid :=
  Entry.valid_iff.mpr ⟨_, (Stretch.single strand point).heldBy_entry⟩

/-- Entries that are their only parts stay as they are. -/
theorem flatMap_parts_of_alone {entries : List Entry}
    (alone : ∀ entry ∈ entries, entry.parts = [entry]) :
    entries.flatMap Entry.parts = entries :=
  (List.flatMap_congr alone).trans (List.flatMap_singleton' entries)

/-! ## The entries of one strand -/

namespace Reducer

/-- The entry holds a stretch of the strand. -/
def HoldsOf (strand : Strand) (entry : Entry) : Prop :=
  ∃ stretch : Stretch, stretch.strand = strand ∧ stretch.HeldBy entry

theorem holdsOf_entryAt (strand : Strand) (point : Point) :
    HoldsOf strand (strand.entryAt point) :=
  ⟨.single strand point, rfl, Stretch.heldBy_entry _⟩

/-- The points of entries of a strand, in turn, are those of their parts. -/
theorem pointsUnder_of_holds {strand : Strand} {entries : List Entry}
    (hold : ∀ entry ∈ entries, HoldsOf strand entry) (timestamp : Timestamp) :
    ∃ points, pointsUnder (strand.key timestamp) entries = .ok points
      ∧ entries.flatMap Entry.parts = points.map strand.entryAt := by
  induction entries with
  | nil => exact ⟨[], rfl, rfl⟩
  | cons entry entries ih =>
      obtain ⟨⟨stretch, rfl, held⟩, others⟩ := List.forall_mem_cons.mp hold
      obtain ⟨points, read, parts⟩ := ih others
      refine ⟨stretch.points ++ points, ?_, ?_⟩
      · have visible : entry.key.visibility = (stretch.strand.key timestamp).visibility := by
          rw [held.key]
          rfl
        rw [pointsUnder, held.points, read, if_neg (not_not_intro visible)]
        rfl
      · rw [List.flatMap_cons, held.parts, parts, List.map_append]
        rfl

/-- Points are in order exactly if their timestamps strictly ascend. -/
theorem disorder?_eq_none_iff (points : List Point) :
    disorder? points = none ↔ StrictlyAscending points := by
  fun_induction disorder? points with
  | case1 first second rest behind =>
      constructor
      · intro none
        cases none
      · intro ascending
        have before := (List.pairwise_cons.mp ascending).1 second List.mem_cons_self
        exact absurd before (Int64.not_lt.mpr behind)
  | case2 first second rest ahead ih =>
      rw [ih]
      constructor
      · intro ascending
        refine List.pairwise_cons.mpr ⟨fun point member => ?_, ascending⟩
        rcases List.mem_cons.mp member with rfl | later
        · exact Int64.not_le.mp ahead
        · exact Int64.lt_trans (Int64.not_le.mp ahead)
            ((List.pairwise_cons.mp ascending).1 point later)
      · exact fun ascending => (List.pairwise_cons.mp ascending).2
  | case3 points short =>
      refine ⟨fun _ => ?_, fun _ => rfl⟩
      match points with
      | [] => exact List.Pairwise.nil
      | [point] => exact List.pairwise_singleton _ point
      | first :: second :: rest => exact (short first second rest rfl).elim

/-- The points of a part, under the key of its first entry, begin at that key. -/
theorem pointsUnder_of_part {strand : Strand} {first : Entry} {rest : List Entry}
    (hold : ∀ entry ∈ first :: rest, HoldsOf strand entry) :
    ∃ earliest others, pointsUnder first.key (first :: rest) = .ok (earliest :: others)
      ∧ (first :: rest).flatMap Entry.parts = (earliest :: others).map strand.entryAt
      ∧ first.key = strand.key earliest.timestamp := by
  obtain ⟨leading, rfl, leads⟩ := hold first List.mem_cons_self
  obtain ⟨points, read, parts⟩ := pointsUnder_of_holds hold leading.first.timestamp
  have key : first.key = leading.strand.key leading.first.timestamp := leads.key
  rw [← key] at read
  cases points with
  | nil =>
      rw [List.flatMap_cons, leads.parts] at parts
      cases parts
  | cons earliest others =>
      have same := parts
      rw [List.flatMap_cons, leads.parts] at same
      obtain ⟨_, rfl⟩ := Strand.entryAt_injective (List.cons.inj same).1
      exact ⟨leading.first, others, read, parts, key⟩

/-- A part of a run is kept, or packed to one stretch that has all its points; several entries are
only kept if there is no such stretch. -/
theorem reducePart_of_holds {strand : Strand} {first : Entry} {rest : List Entry}
    (hold : ∀ entry ∈ first :: rest, HoldsOf strand entry) :
    (reducePart .pack (first :: rest) = (first :: rest, none)
        ∧ (rest ≠ [] → ∀ stretch : Stretch, (first :: rest).flatMap Entry.parts ≠ stretch.parts))
      ∨ rest ≠ [] ∧ ∃ stretch : Stretch, stretch.strand = strand
        ∧ reducePart .pack (first :: rest)
          = ([⟨first.key, packPoints stretch.points⟩], none)
        ∧ stretch.HeldBy ⟨first.key, packPoints stretch.points⟩
        ∧ (first :: rest).flatMap Entry.parts = stretch.parts := by
  cases rest with
  | nil => exact Or.inl ⟨rfl, fun some_rest => absurd rfl some_rest⟩
  | cons second rest =>
      obtain ⟨earliest, others, read, parts, key⟩ := pointsUnder_of_part hold
      cases disordered : disorder? (earliest :: others) with
      | some pair =>
          have refused : Reducer.pack first.key (first :: second :: rest)
              = .error (.incompatible (.order pair.1 pair.2)) := by
            simp only [pack, read, disordered]
          refine Or.inl ⟨by rw [reducePart, refused], fun _ stretch same => ?_⟩
          rw [parts] at same
          obtain ⟨rfl, _⟩ := Strand.entryAt_injective (List.cons.inj same).1
          have points : earliest :: others = stretch.points :=
            (List.map_inj_right fun _ _ equal => (Strand.entryAt_injective equal).2).mp same
          have ordered := (disorder?_eq_none_iff _).mpr stretch.ascending
          rw [show stretch.first :: stretch.rest = stretch.points from rfl, ← points,
            disordered] at ordered
          cases ordered
      | none =>
          have packed : Reducer.pack first.key (first :: second :: rest)
              = .ok (packPoints (earliest :: others)) := by
            simp only [pack, read, disordered]
          have ascending := (disorder?_eq_none_iff _).mp disordered
          refine Or.inr ⟨List.cons_ne_nil _ _, ⟨strand, earliest, others, ascending⟩, rfl, ?_,
            ⟨key, ?_⟩, parts⟩
          · rw [reducePart, packed]
            rfl
          · rw [Entry.toPoints, isPacked_packPoints, if_pos rfl]
            exact unpackPoints_packPoints ascending

/-- A part that has the points of a stretch becomes one entry that holds the stretch. -/
theorem reducePart_of_stretch {strand : Strand} {first : Entry} {rest : List Entry}
    (hold : ∀ entry ∈ first :: rest, HoldsOf strand entry) {stretch : Stretch}
    (parts : (first :: rest).flatMap Entry.parts = stretch.parts) :
    ∃ entry, reducePart .pack (first :: rest) = ([entry], none) ∧ stretch.HeldBy entry := by
  rcases reducePart_of_holds hold with ⟨kept, apart⟩ | ⟨_, packed, _, reduced, held, all⟩
  · cases rest with
    | nil =>
        obtain ⟨alone, _, held⟩ := hold first List.mem_cons_self
        rw [List.flatMap_singleton, held.parts] at parts
        exact ⟨first, kept, Stretch.eq_of_parts parts ▸ held⟩
    | cons second rest => exact absurd parts (apart (List.cons_ne_nil _ _) stretch)
  · exact ⟨_, reduced, Stretch.eq_of_parts (all.symm.trans parts) ▸ held⟩

end Reducer

/-- Entries of one metric and the same columns belong to one strand. -/
theorem Strand.eq_of_columns {strand other : Strand} {timestamp another : Timestamp}
    (metric : (strand.key timestamp).metric = (other.key another).metric)
    (columns : (strand.key timestamp).columns = (other.key another).columns) :
    strand = other := by
  rw [strand.metric_key, other.metric_key] at metric
  have named := Except.ok.inj metric
  obtain ⟨_, _, _, _⟩ := strand
  obtain ⟨_, _, _, _⟩ := other
  obtain ⟨family, rest⟩ := Prod.mk.inj columns
  obtain ⟨qualifier, visibility⟩ := Prod.mk.inj rest
  simp only [Strand.key] at named family qualifier visibility
  subst named family qualifier visibility
  rfl

/-! ## What is made of what -/

/-- The entry is valid and has the points of some entries of its series, in turn. -/
structure Entry.MadeOf (entry : Entry) (sources : List Entry) : Prop where
  valid : entry.Valid
  series : ∀ source ∈ sources, entry.key.sameSeries source.key = true
  parts : entry.parts = sources.flatMap Entry.parts

/-- Each of the first entries is made of some of the second, and each of these is used once. -/
def Repacks (output entries : List Entry) : Prop :=
  ∃ made : List (Entry × List Entry), (made.map Prod.fst).Perm output
    ∧ (made.flatMap Prod.snd).Perm entries ∧ ∀ pair ∈ made, pair.1.MadeOf pair.2

/-- Entries of one strand belong to one series. -/
theorem Reducer.HoldsOf.sameSeries {strand : Strand} {entry other : Entry}
    (here : HoldsOf strand entry) (there : HoldsOf strand other) :
    entry.key.sameSeries other.key = true := by
  obtain ⟨stretch, rfl, held⟩ := here
  obtain ⟨another, same, others⟩ := there
  rw [held.key, others.key, Stretch.key, Stretch.key, same, Key.sameSeries, Key.sameMetric,
    Strand.metric_key, Strand.metric_key]
  simp [Key.sameColumns, Strand.key]

namespace Repacks

variable {output entries : List Entry}

theorem valid (repacks : Repacks output entries) : ∀ entry ∈ output, entry.Valid := by
  obtain ⟨made, outputs, _, each⟩ := repacks
  intro entry member
  obtain ⟨pair, among, rfl⟩ := List.mem_map.mp (outputs.mem_iff.mpr member)
  exact (each pair among).valid

/-- The parts are those that there were. -/
theorem parts (repacks : Repacks output entries) :
    (output.flatMap Entry.parts).Perm (entries.flatMap Entry.parts) := by
  obtain ⟨made, outputs, sources, each⟩ := repacks
  have same : (made.map Prod.fst).flatMap Entry.parts
      = (made.flatMap Prod.snd).flatMap Entry.parts := by
    rw [List.flatMap_map, List.flatMap_assoc]
    exact List.flatMap_congr fun pair among => (each pair among).parts
  exact (outputs.symm.flatMap_right Entry.parts).trans
    (same ▸ sources.flatMap_right Entry.parts)

theorem perm {output' : List Entry} (repacks : Repacks output entries)
    (same : output.Perm output') : Repacks output' entries := by
  obtain ⟨made, outputs, sources, each⟩ := repacks
  exact ⟨made, outputs.trans same, sources, each⟩

theorem trans_perm {entries' : List Entry} (repacks : Repacks output entries)
    (same : entries.Perm entries') : Repacks output entries' := by
  obtain ⟨made, outputs, sources, each⟩ := repacks
  exact ⟨made, outputs, sources.trans same, each⟩

/-- Valid entries are made of themselves. -/
theorem refl (valid : ∀ entry ∈ entries, entry.Valid) : Repacks entries entries := by
  refine ⟨entries.map fun entry => (entry, [entry]), ?_, ?_, fun pair among => ?_⟩
  · rw [List.map_map]
    exact List.Perm.of_eq (List.map_id entries)
  · rw [List.flatMap_map]
    exact List.Perm.of_eq (List.flatMap_singleton' entries)
  · obtain ⟨entry, member, rfl⟩ := List.mem_map.mp among
    obtain ⟨stretch, held⟩ := Entry.valid_iff.mp (valid entry member)
    refine ⟨valid entry member, fun source found => ?_, (List.flatMap_singleton ..).symm⟩
    rw [List.mem_singleton.mp found]
    exact Reducer.HoldsOf.sameSeries ⟨stretch, rfl, held⟩ ⟨stretch, rfl, held⟩

theorem nil : Repacks [] [] := ⟨[], List.Perm.refl _, List.Perm.refl _, by simp⟩

/-- What comes of several lists of entries, one after the other. -/
theorem flatMap {α : Type} {reduce held : α → List Entry} {items : List α}
    (each : ∀ item ∈ items, Repacks (reduce item) (held item)) :
    Repacks (items.flatMap reduce) (items.flatMap held) := by
  induction items with
  | nil => exact nil
  | cons item items ih =>
      obtain ⟨here, others⟩ := List.forall_mem_cons.mp each
      obtain ⟨made, outputs, sources, made_of⟩ := here
      obtain ⟨madeLater, outputsLater, sourcesLater, made_of_later⟩ := ih others
      refine ⟨made ++ madeLater, ?_, ?_, fun pair among => ?_⟩
      · rw [List.map_append, List.flatMap_cons]
        exact outputs.append outputsLater
      · rw [List.flatMap_append, List.flatMap_cons]
        exact sources.append sourcesLater
      · exact (List.mem_append.mp among).elim (made_of pair) (made_of_later pair)

end Repacks

/-! ## Runs -/

theorem repacks_reducePart {strand : Strand} {part : List Entry}
    (hold : ∀ entry ∈ part, Reducer.HoldsOf strand entry) :
    (reducePart .pack part).2 = none ∧ Repacks (reducePart .pack part).1 part := by
  cases part with
  | nil => exact ⟨rfl, Repacks.nil⟩
  | cons first rest =>
      rcases Reducer.reducePart_of_holds hold with
        ⟨kept, _⟩ | ⟨_, stretch, ofStrand, packed, held, parts⟩
      · rw [kept]
        exact ⟨rfl, Repacks.refl fun entry member =>
          Entry.valid_iff.mpr ((hold entry member).imp fun _ found => found.2)⟩
      · rw [packed]
        refine ⟨rfl, [(⟨first.key, packPoints stretch.points⟩, first :: rest)],
          List.Perm.refl _, List.Perm.of_eq (List.flatMap_singleton ..), ?_⟩
        intro pair among
        rw [List.mem_singleton.mp among]
        exact ⟨Entry.valid_iff.mpr ⟨stretch, held⟩,
          fun source member => Reducer.HoldsOf.sameSeries ⟨stretch, ofStrand, held⟩
            (hold source member), by rw [held.parts, parts]⟩

/-- The parts of a run hold its entries. -/
theorem perm_flatten_splitBySeries (run : List Entry) :
    (splitBySeries run).values.flatten.Perm run := by
  have inserted : ∀ (entries : List Entry)
      (parts : SortedMap (String × String × String) (List Entry)),
      ((entries.foldl (fun parts entry => parts.alter entry.key.columns fun part =>
        part.getD [] ++ [entry]) parts).values.flatten).Perm (entries ++ parts.values.flatten) := by
    intro entries
    induction entries with
    | nil => exact fun _ => List.Perm.refl _
    | cons entry entries ih =>
        intro parts
        refine (ih _).trans ?_
        refine ((SortedMap.flatten_values_alter parts entry.key.columns entry).append_left
          entries).trans ?_
        exact List.perm_middle
  have all := inserted run .empty
  rwa [show (SortedMap.empty : SortedMap (String × String × String) (List Entry)).values.flatten
    = [] from rfl, List.append_nil] at all

/-- A part of a run of one metric belongs to one strand. -/
theorem exists_strand_of_valid {run part : List Entry} (valid : ∀ entry ∈ run, entry.Valid)
    {metric : String} (named : ∀ entry ∈ run, entry.key.metric = .ok metric)
    (member : part ∈ (splitBySeries run).values) :
    ∃ strand, ∀ entry ∈ part, Reducer.HoldsOf strand entry := by
  obtain ⟨columns, partition, filled⟩ := mem_values_splitBySeries.mp member
  have within : ∀ entry ∈ part, entry ∈ run ∧ entry.key.columns = columns := by
    intro entry found
    rw [partition, partOf, List.mem_filter] at found
    exact ⟨found.1, of_decide_eq_true found.2⟩
  obtain ⟨leading, found⟩ := List.exists_mem_of_ne_nil part filled
  obtain ⟨inRun, inColumns⟩ := within leading found
  obtain ⟨stretch, held⟩ := Entry.valid_iff.mp (valid leading inRun)
  refine ⟨stretch.strand, fun entry other => ?_⟩
  obtain ⟨there, alike⟩ := within entry other
  obtain ⟨another, holds⟩ := Entry.valid_iff.mp (valid entry there)
  have oneMetric : entry.key.metric = leading.key.metric :=
    (named entry there).trans (named leading inRun).symm
  have oneColumns : entry.key.columns = leading.key.columns := alike.trans inColumns.symm
  rw [held.key, holds.key] at oneMetric oneColumns
  exact ⟨another, Strand.eq_of_columns oneMetric oneColumns, holds⟩

theorem repacks_reduceRun {run : List Entry} (valid : ∀ entry ∈ run, entry.Valid)
    {metric : String} (named : ∀ entry ∈ run, entry.key.metric = .ok metric) :
    (reduceRun .pack run).2 = none ∧ Repacks (reduceRun .pack run).1 run := by
  have each : ∀ part ∈ (splitBySeries run).values,
      (reducePart .pack part).2 = none ∧ Repacks (reducePart .pack part).1 part := by
    intro part member
    obtain ⟨strand, hold⟩ := exists_strand_of_valid valid named member
    exact repacks_reducePart hold
  have smooth : ((splitBySeries run).values.map (reducePart .pack)).findSome? Prod.snd = none :=
    (forall_mem_reduced fun part member => ⟨(each part member).1, (each part member).2.valid⟩).1
  have parts := Repacks.flatMap fun part member => (each part member).2
  rw [← List.flatMap_map, List.flatMap_id'] at parts
  exact ⟨smooth, (parts.perm (List.mergeSort_perm _ _).symm).trans_perm
    (perm_flatten_splitBySeries run)⟩

/-- The entries of a run belong to the metric of the first. -/
theorem metric_of_joins {window : Window} {first entry : Key} {metric : String}
    (named : first.metric = .ok metric) (joins : window.joins first entry = true) :
    entry.metric = .ok metric := by
  rw [Window.joins, Bool.and_eq_true, Key.sameMetric, named] at joins
  cases other : entry.metric with
  | error failure =>
      rw [other] at joins
      exact absurd joins.2 Bool.false_ne_true
  | ok another =>
      rw [other] at joins
      exact congrArg Except.ok (of_decide_eq_true joins.2).symm

/-- A run of valid entries belongs to one metric. -/
theorem Window.exists_metric_of_mem_cut {window : Window} {entries run : List Entry}
    (valid : ∀ entry ∈ entries, entry.Valid) (member : run ∈ window.cut entries) :
    ∃ metric, ∀ entry ∈ run, entry.key.metric = .ok metric := by
  obtain ⟨first, rest, rfl, joins⟩ := Window.joins_of_mem_cut member
  obtain ⟨metric, decoded⟩ :=
    (valid first (Window.mem_of_mem_cut member List.mem_cons_self)).row
  have named : first.key.metric = .ok metric := by
    rw [Key.metric, Row.metric, decoded]
    rfl
  exact ⟨metric, List.forall_mem_cons.mpr
    ⟨named, fun entry found => metric_of_joins named (joins entry found)⟩⟩

/-- Valid entries are packed without a failure. -/
theorem Combined.repacks_combine (window : Window) {entries : List Entry}
    (valid : ∀ entry ∈ entries, entry.Valid) :
    Smooth .pack window entries ∧ Repacks (combine .pack window entries) entries := by
  have runs : ∀ run ∈ window.cut entries,
      (reduceRun .pack run).2 = none ∧ Repacks (reduceRun .pack run).1 run := by
    intro run member
    obtain ⟨metric, named⟩ := Window.exists_metric_of_mem_cut valid member
    exact repacks_reduceRun (fun entry found =>
      valid entry (Window.mem_of_mem_cut member found)) named
  refine ⟨fun run member => (runs run member).1, ?_⟩
  have all := Repacks.flatMap fun run member => (runs run member).2
  rwa [List.flatMap_id', window.flatten_cut] at all

/-! ## Taken apart again -/

/-- Above a cursor that presents the entries, the expanding layer presents their points. -/
def Expands (entries points : List Entry) : Prop :=
  ∀ {σ : Type} [Cursor σ] {below : σ}, Cursor.Finds below .all entries →
    Cursor.Finds (Expanded.above below) .all points

theorem expands_parts {entries : List Entry} (valid : ∀ entry ∈ entries, entry.Valid) :
    Expands entries (entries.flatMap Entry.parts) := by
  intro σ _ below found
  have all : ∀ points : List Entry, Expanded.within .all points = points := fun points =>
    List.filter_eq_self.mpr fun _ _ => rfl
  have expanded := @Expanded.finds_parts _ _ below .all _ found fun entry member =>
    Entry.valid_iff.mp (valid entry member)
  rwa [all] at expanded

namespace Combined

open Cursor (Finds)

/-- **Packing loses and invents nothing.**  Of valid entries in any order, what is packed is valid
and made of entries of one series each; taken apart, it has the points that were there before; and
it is in key order if the entries were. -/
theorem finds_repacked (window : Window) {σ : Type} [Cursor σ] {below : σ} {range : KeyRange}
    {entries : List Entry} (found : Finds below range entries)
    (valid : ∀ entry ∈ entries, entry.Valid) :
    ∃ output, Finds (above .pack window below) range output
      ∧ (∀ entry ∈ output, entry.Valid)
      ∧ Repacks output entries
      ∧ (∃ points repacked, Expands entries points ∧ Expands output repacked
        ∧ repacked.Perm points)
      ∧ ((entries.Pairwise fun first second => (compare first.key second.key).isLE = true) →
        output.Pairwise fun first second => (compare first.key second.key).isLE = true) := by
  obtain ⟨smooth, repacks⟩ := repacks_combine window valid
  exact ⟨combine .pack window entries, finds found smooth, repacks.valid, repacks,
    ⟨_, _, expands_parts valid, expands_parts repacks.valid, repacks.parts⟩,
    sorted_combine .pack window⟩

/-- A value and two packed runs that overlap, out of order, under one key twice. -/
theorem finds_repacked_of_overlap :
    let strand : Strand := ⟨"load", "host=a", "", ""⟩
    let entries := [Stretch.entry ⟨strand, ⟨5, ⟨1⟩⟩, [⟨7, ⟨2⟩⟩], List.pairwise_pair.mpr (by decide)⟩,
      strand.entryAt ⟨5, ⟨3⟩⟩,
      ⟨strand.key 2, packPoints [⟨2, ⟨4⟩⟩]⟩,
      Stretch.entry ⟨strand, ⟨3, ⟨5⟩⟩, [⟨6, ⟨6⟩⟩], List.pairwise_pair.mpr (by decide)⟩]
    ∃ output, Finds (above .pack .whole (SortedEntries.mk entries entries .all)) .all output
      ∧ (∀ entry ∈ output, entry.Valid)
      ∧ Repacks output entries
      ∧ (∃ points repacked, Expands entries points ∧ Expands output repacked
        ∧ repacked.Perm points)
      ∧ ((entries.Pairwise fun first second => (compare first.key second.key).isLE = true) →
        output.Pairwise fun first second => (compare first.key second.key).isLE = true) := by
  intro strand entries
  have single : ∀ point, (strand.entryAt point).Valid := fun point =>
    Entry.valid_iff.mpr ⟨_, Stretch.heldBy_entry (.single strand point)⟩
  have alone : (Entry.mk (strand.key 2) (packPoints [⟨2, ⟨4⟩⟩])).Valid :=
    ⟨⟨_, Row.decode_ofPoint _ _⟩, _, _,
      unpackPoints_packPoints (List.pairwise_singleton _ _), rfl⟩
  have valid : ∀ entry ∈ entries, entry.Valid := by
    simp only [entries, List.forall_mem_cons, single, alone, true_and]
    exact ⟨Entry.valid_iff.mpr ⟨_, Stretch.heldBy_entry _⟩,
      Entry.valid_iff.mpr ⟨_, Stretch.heldBy_entry _⟩, by simp⟩
  exact finds_repacked .whole (SortedEntries.finds_all _) valid

end Combined

end TimeSeries
