import Mathlib.Data.List.Forall2
import TimeSeries.SeriesLog
import TimeSeries.Proofs.Block.RoundTrip

/-!
# What a log holds

A log has taken points one after the other.  The oldest of them may have been dropped; those that
follow are in its archived blocks, block by block, and the latest are in its open block.  A
`LogContents` names these three parts, and `SeriesLog.Holds` says that a log has them.

Every operation keeps such contents: taking a point adds it at the end, archiving moves the open
points behind the archived ones, and dropping old blocks moves points from the front of the archive
to the dropped ones, because the points are in order and a block is judged by its last one.

Main statements: `Holds.add` and `add_outOfOrder` say which points a log takes,
`Holds.ageOff` that only points before the cutoff are dropped, and `Holds.pointsWithin` that the
blocks of a span give all the points of the span that the log still holds.
-/

set_option autoImplicit false

namespace TimeSeries

/-- The point lies within a span, both ends included. -/
def Point.isWithin (start stop : Timestamp) (point : Point) : Bool :=
  start ≤ point.timestamp && point.timestamp ≤ stop

/-- The first point is not after the second. -/
def Point.NotAfter (first second : Point) : Prop := first.timestamp ≤ second.timestamp

/-- No point of an ordered list is after its last one. -/
theorem Point.notAfter_getLast? {points : List Point} {point last : Point}
    (ordered : points.Pairwise Point.NotAfter) (member : point ∈ points)
    (ends : points.getLast? = some last) : point.NotAfter last := by
  obtain ⟨front, final, split⟩ :=
    (List.eq_nil_or_concat points).resolve_left (List.ne_nil_of_mem member)
  rw [List.concat_eq_append] at split
  subst split
  rw [List.getLast?_concat, Option.some.injEq] at ends
  subst ends
  rcases List.mem_append.mp member with earlier | here
  · exact (List.pairwise_append.mp ordered).2.2 point earlier final (List.mem_singleton_self _)
  · rw [List.mem_singleton.mp here]
    exact Int64.le_refl _

/-- The block is read as the given points and has their count and their ends. -/
structure Block.Holds (block : Block) (points : List Point) : Prop where
  toPoints : block.toPoints = .ok points
  count : block.count = points.length
  first : ∀ point ∈ points.head?, block.first = point.timestamp
  last : ∀ point ∈ points.getLast?, block.last = point.timestamp

theorem BlockEncoder.Holds.toBlock {encoder : BlockEncoder} {points : List Point}
    (holds : encoder.Holds points) : encoder.toBlock.Holds points where
  toPoints := holds.toPoints_toBlock
  count := holds.count
  first := holds.first
  last _ ends := holds.timestamp_link ends

namespace Block.Holds

variable {block : Block} {points : List Point}

theorem isEmpty_iff (holds : block.Holds points) : block.isEmpty = true ↔ points = [] := by
  rw [Block.isEmpty, holds.count, beq_iff_eq, List.length_eq_zero_iff]

/-- Every point lies at the first timestamp of the block or later. -/
theorem first_le (holds : block.Holds points) (ordered : points.Pairwise Point.NotAfter)
    {point : Point} (member : point ∈ points) : block.first ≤ point.timestamp := by
  cases points with
  | nil => cases member
  | cons head rest =>
      rw [holds.first head rfl]
      rcases List.mem_cons.mp member with rfl | later
      · exact Int64.le_refl _
      · exact (List.pairwise_cons.mp ordered).1 point later

/-- Every point lies at the last timestamp of the block or earlier. -/
theorem le_last (holds : block.Holds points) (ordered : points.Pairwise Point.NotAfter)
    {point : Point} (member : point ∈ points) : point.timestamp ≤ block.last := by
  obtain ⟨last, ends⟩ :=
    Option.isSome_iff_exists.mp (List.getLast?_isSome.mpr (List.ne_nil_of_mem member))
  rw [holds.last last ends]
  exact Point.notAfter_getLast? ordered member ends

/-- A block with a point of a span overlaps the span. -/
theorem overlaps (holds : block.Holds points) (ordered : points.Pairwise Point.NotAfter)
    {point : Point} (member : point ∈ points) {start stop : Timestamp}
    (within : start ≤ point.timestamp ∧ point.timestamp ≤ stop) :
    block.overlaps start stop = true := by
  have some_points : 0 < block.count := by
    rw [holds.count]
    exact List.length_pos_of_mem member
  have low := Int64.le_trans (holds.first_le ordered member) within.2
  have high := Int64.le_trans within.1 (holds.le_last ordered member)
  simp only [Block.overlaps, Bool.and_eq_true, decide_eq_true_eq]
  exact ⟨⟨some_points, low⟩, high⟩

end Block.Holds

/-! ## The contents of a log -/

/-- The points that a log has taken, oldest first. -/
structure LogContents where
  /-- The points that were dropped. -/
  dropped : List Point
  /-- The points of each archived block. -/
  archived : List (List Point)
  /-- The points of the open block. -/
  fresh : List Point

namespace LogContents

/-- The points that are still held. -/
def kept (contents : LogContents) : List Point := contents.archived.flatten ++ contents.fresh

/-- All points ever taken. -/
def taken (contents : LogContents) : List Point := contents.dropped ++ contents.kept

end LogContents

namespace SeriesLog

/-- The open block of a log, if there is one, has taken some points and takes more. -/
def OpenHolds : Option BlockEncoder → List Point → Prop
  | none, fresh => fresh = []
  | some encoder, fresh => encoder.Holds fresh ∧ encoder.closed = false ∧ fresh ≠ []

/-- The log has the given contents. -/
structure Holds (log : SeriesLog) (contents : LogContents) : Prop where
  archived : List.Forall₂ Block.Holds log.archived contents.archived
  filled : ∀ points ∈ contents.archived, points ≠ []
  current : OpenHolds log.current contents.fresh
  ordered : contents.taken.Pairwise Point.NotAfter
  newest : log.newest = contents.taken.getLast?.map Point.timestamp

theorem holds_empty (blockLimit : Nat) : (empty blockLimit).Holds ⟨[], [], []⟩ where
  archived := .nil
  filled := by simp
  current := rfl
  ordered := .nil
  newest := rfl

variable {log : SeriesLog} {contents : LogContents}

/-- The open block as a list of at most one block, and its points as that of at most one run. -/
theorem OpenHolds.openBlock? {current : Option BlockEncoder} {fresh : List Point}
    (holds : OpenHolds current fresh) (same : log.current = current) :
    (fresh = [] ∧ log.openBlock? = none)
      ∨ (fresh ≠ [] ∧ ∃ block, log.openBlock? = some block ∧ block.Holds fresh) := by
  unfold SeriesLog.openBlock?
  rw [same]
  cases current with
  | none => exact Or.inl ⟨holds, rfl⟩
  | some encoder =>
      obtain ⟨taken, _, some_points⟩ := holds
      refine Or.inr ⟨some_points, encoder.toBlock, ?_, taken.toBlock⟩
      exact if_neg (mt taken.isEmpty_iff.mp some_points)

/-- The runs of points in the blocks of a log. -/
def runsOf (contents : LogContents) : List (List Point) :=
  contents.archived ++ if contents.fresh = [] then [] else [contents.fresh]

theorem flatten_runsOf (contents : LogContents) : (runsOf contents).flatten = contents.kept := by
  rw [runsOf, LogContents.kept, List.flatten_append]
  split
  case isTrue nothing => rw [nothing]; rfl
  case isFalse => rw [List.flatten_singleton]

/-- The blocks of a log hold its points, run by run. -/
theorem Holds.blocks (holds : log.Holds contents) :
    List.Forall₂ Block.Holds log.blocks (runsOf contents) := by
  unfold SeriesLog.blocks runsOf
  rcases holds.current.openBlock? rfl with ⟨nothing, absent⟩ | ⟨some_points, block, here, taken⟩
  · rw [if_pos nothing, absent]
    exact List.rel_append holds.archived .nil
  · rw [if_neg some_points, here]
    exact List.rel_append holds.archived (.cons taken .nil)

theorem Holds.ordered_kept (holds : log.Holds contents) :
    contents.kept.Pairwise Point.NotAfter :=
  (List.pairwise_append.mp holds.ordered).2.1

theorem ordered_of_mem_runsOf {points : List Point}
    (ordered : contents.kept.Pairwise Point.NotAfter) (member : points ∈ runsOf contents) :
    points.Pairwise Point.NotAfter := by
  rw [← flatten_runsOf, List.pairwise_flatten] at ordered
  exact ordered.1 points member

/-! ## Archiving -/

theorem taken_archive (contents : LogContents) :
    LogContents.taken ⟨contents.dropped, runsOf contents, []⟩ = contents.taken := by
  rw [LogContents.taken, LogContents.kept, flatten_runsOf, List.append_nil]
  rfl

/-- Archiving moves the open points behind the archived ones. -/
theorem Holds.archive (holds : log.Holds contents) :
    log.archive.Holds ⟨contents.dropped, runsOf contents, []⟩ := by
  refine ⟨holds.blocks, ?_, rfl, ?_, ?_⟩
  · intro points member
    rcases List.mem_append.mp member with old | new
    · exact holds.filled points old
    · split at new
      · cases new
      · rw [List.mem_singleton.mp new]
        assumption
  · rw [taken_archive]
    exact holds.ordered
  · rw [taken_archive]
    exact holds.newest

/-! ## Taking points -/

/-- A point behind everything taken so far goes to the open block. -/
theorem Holds.append_open (holds : log.Holds contents) {point : Point}
    (inOrder : ∀ last ∈ contents.taken.getLast?, last.NotAfter point) :
    ∃ encoder, (log.current.getD .empty).add point = .ok encoder
      ∧ SeriesLog.Holds { log with current := some encoder, newest := some point.timestamp }
          ⟨contents.dropped, contents.archived, contents.fresh ++ [point]⟩ := by
  have opened : (log.current.getD .empty).Holds contents.fresh
      ∧ (log.current.getD .empty).closed = false := by
    have current := holds.current
    cases here : log.current with
    | none =>
        rw [here] at current
        have nothing : contents.fresh = [] := current
        rw [nothing]
        exact ⟨BlockEncoder.holds_empty, rfl⟩
    | some encoder =>
        rw [here] at current
        exact ⟨current.1, current.2.1⟩
  have freshInOrder : ∀ last ∈ contents.fresh.getLast?, last.timestamp ≤ point.timestamp := by
    intro last ends
    refine inOrder last ?_
    rw [Option.mem_def] at ends ⊢
    rw [LogContents.taken, LogContents.kept, List.getLast?_append, List.getLast?_append, ends]
    rfl
  obtain ⟨encoder, added, taken, isOpen⟩ := opened.1.add opened.2 freshInOrder
  have grown : LogContents.taken ⟨contents.dropped, contents.archived, contents.fresh ++ [point]⟩
      = contents.taken ++ [point] := by
    simp only [LogContents.taken, LogContents.kept, List.append_assoc]
  refine ⟨encoder, added, holds.archived, holds.filled, ⟨taken, isOpen, by simp⟩, ?_, ?_⟩
  · rw [grown, List.pairwise_append]
    refine ⟨holds.ordered, List.pairwise_singleton _ _, ?_⟩
    intro earlier member later here
    rw [List.mem_singleton.mp here]
    obtain ⟨last, ends⟩ :=
      Option.isSome_iff_exists.mp (List.getLast?_isSome.mpr (List.ne_nil_of_mem member))
    exact Int64.le_trans (Point.notAfter_getLast? holds.ordered member ends) (inOrder last ends)
  · rw [grown]
    simp

/-- A point that is not before the newest one is taken; nothing is dropped. -/
theorem Holds.add (holds : log.Holds contents) {point : Point}
    (inOrder : ∀ newest ∈ log.newest, newest ≤ point.timestamp) :
    ∃ next after, log.add point = .ok next ∧ next.Holds after
      ∧ after.taken = contents.taken ++ [point] ∧ after.dropped = contents.dropped
      ∧ next.blockLimit = log.blockLimit := by
  have lastInOrder : ∀ last ∈ contents.taken.getLast?, last.NotAfter point := by
    intro last ends
    refine inOrder last.timestamp ?_
    rw [holds.newest, ends]
    rfl
  have taken : ∃ next after, log.append point = .ok next ∧ next.Holds after
      ∧ after.taken = contents.taken ++ [point] ∧ after.dropped = contents.dropped
      ∧ next.blockLimit = log.blockLimit := by
    unfold SeriesLog.append
    by_cases full : log.isFull = true
    · have archived := holds.archive
      rw [← taken_archive contents] at lastInOrder
      obtain ⟨encoder, added, grown⟩ := archived.append_open lastInOrder
      refine ⟨_, _, ?_, grown, ?_, rfl, rfl⟩
      · simp only [if_pos full, added]
        rfl
      · simp only [LogContents.taken, LogContents.kept, flatten_runsOf, List.append_assoc,
          List.nil_append]
    · obtain ⟨encoder, added, grown⟩ := holds.append_open lastInOrder
      refine ⟨_, _, ?_, grown, ?_, rfl, rfl⟩
      · simp only [if_neg full, added]
        rfl
      · simp only [LogContents.taken, LogContents.kept, List.append_assoc]
  unfold SeriesLog.add
  cases newest : log.newest with
  | none => exact taken
  | some timestamp =>
      have notBefore : ¬ point.timestamp < timestamp :=
        Int64.not_lt.mpr (inOrder timestamp newest)
      simp only [if_neg notBefore]
      exact taken

/-- A point before the newest one is refused. -/
theorem add_outOfOrder {point : Point} {newest : Timestamp} (taken : log.newest = some newest)
    (before : point.timestamp < newest) :
    log.add point = .error (.outOfOrder point.timestamp newest) := by
  simp only [SeriesLog.add, taken, if_pos before]

theorem refused_of_early {point : Point}
    (early : ¬ ∀ newest ∈ log.newest, newest ≤ point.timestamp) :
    ∃ failure, log.add point = .error failure := by
  simp only [not_forall, Int64.not_le] at early
  obtain ⟨newest, known, before⟩ := early
  exact ⟨_, add_outOfOrder known before⟩

/-- A point that is taken is not before the newest one, and is held behind all others. -/
theorem Holds.of_added (holds : log.Holds contents) {point : Point} {grown : SeriesLog}
    (added : log.add point = .ok grown) :
    ∃ after, grown.Holds after ∧ after.dropped = contents.dropped
      ∧ after.kept = contents.kept ++ [point] := by
  by_cases inOrder : ∀ newest ∈ log.newest, newest ≤ point.timestamp
  · obtain ⟨next, after, taken, grownHolds, all, dropped, _⟩ := holds.add inOrder
    rw [added] at taken
    cases taken
    refine ⟨after, grownHolds, dropped, ?_⟩
    rw [LogContents.taken, LogContents.taken, dropped, List.append_assoc] at all
    exact List.append_cancel_left all
  · obtain ⟨failure, refused⟩ := refused_of_early inOrder
    rw [added] at refused
    cases refused

/-! ## Dropping old blocks -/

/-- Of blocks with ordered points, those that end before a cutoff come first, and every point of
them lies before it. -/
theorem filter_last_ge {blocks : List Block} {runs : List (List Point)} (cutoff : Timestamp)
    (holds : List.Forall₂ Block.Holds blocks runs) (filled : ∀ points ∈ runs, points ≠ [])
    (ordered : runs.flatten.Pairwise Point.NotAfter) :
    ∃ old young, runs = old ++ young
      ∧ List.Forall₂ Block.Holds (blocks.filter fun block => cutoff ≤ block.last) young
      ∧ ∀ point ∈ old.flatten, point.timestamp < cutoff := by
  induction holds with
  | nil => exact ⟨[], [], rfl, .nil, by simp⟩
  | @cons block points blocks runs here later ih =>
      have orderedHere : points.Pairwise Point.NotAfter :=
        (List.pairwise_flatten.mp ordered).1 points List.mem_cons_self
      rw [List.flatten_cons, List.pairwise_append] at ordered
      by_cases young : cutoff ≤ block.last
      · -- all later blocks end where this one does or later, so nothing is dropped
        refine ⟨[], points :: runs, rfl, ?_, by simp⟩
        have all_young : ∀ other ∈ block :: blocks, decide (cutoff ≤ other.last) = true := by
          intro other member
          rw [decide_eq_true_eq]
          rcases List.mem_cons.mp member with rfl | behind
          · exact young
          obtain ⟨index, bound, found⟩ := List.getElem_of_mem behind
          have bound' : index < runs.length := later.length_eq ▸ bound
          have held : other.Holds runs[index] := found ▸ later.get bound bound'
          have some_points := filled _ (List.mem_cons_of_mem points (List.getElem_mem bound'))
          obtain ⟨last, ends⟩ :=
            Option.isSome_iff_exists.mp (List.getLast?_isSome.mpr some_points)
          obtain ⟨final, finish⟩ := Option.isSome_iff_exists.mp
            (List.getLast?_isSome.mpr (filled points List.mem_cons_self))
          rw [held.last last ends]
          rw [here.last final finish] at young
          exact Int64.le_trans young (ordered.2.2 final (List.mem_of_getLast? finish) last
            (List.mem_flatten_of_mem (List.getElem_mem bound') (List.mem_of_getLast? ends)))
        rw [List.filter_eq_self.mpr all_young]
        exact .cons here later
      · obtain ⟨old, young', split, kept, before⟩ :=
          ih (fun other member => filled other (List.mem_cons_of_mem _ member)) ordered.2.1
        refine ⟨points :: old, young', by rw [split, List.cons_append], ?_, ?_⟩
        · rw [List.filter_cons_of_neg (by simpa using young)]
          exact kept
        · intro point member
          rw [List.flatten_cons, List.mem_append] at member
          rcases member with member | member
          · exact Int64.lt_of_le_of_lt (here.le_last orderedHere member)
              (Int64.not_le.mp young)
          · exact before point member

/-- Dropping old blocks drops the first runs of the archive, and every point of them lies before the
cutoff. -/
theorem Holds.ageOff_archived (holds : log.Holds contents) (now retention : Timestamp) :
    ∃ old young, contents.archived = old ++ young
      ∧ (log.ageOff now retention).Holds ⟨contents.dropped ++ old.flatten, young, contents.fresh⟩
      ∧ LogContents.taken ⟨contents.dropped ++ old.flatten, young, contents.fresh⟩ = contents.taken
      ∧ ∀ point ∈ old.flatten, point.timestamp < now.saturatingSub retention := by
  have ordered : contents.archived.flatten.Pairwise Point.NotAfter :=
    (List.pairwise_append.mp holds.ordered_kept).1
  obtain ⟨old, young, split, kept, before⟩ :=
    filter_last_ge (now.saturatingSub retention) holds.archived holds.filled ordered
  have same : LogContents.taken ⟨contents.dropped ++ old.flatten, young, contents.fresh⟩
      = contents.taken := by
    simp only [LogContents.taken, LogContents.kept, split, List.flatten_append,
      List.append_assoc]
  refine ⟨old, young, split, ⟨kept, ?_, holds.current, ?_, ?_⟩, same, before⟩
  · intro points member
    exact holds.filled points (by rw [split]; exact List.mem_append_right old member)
  · rw [same]
    exact holds.ordered
  · rw [same]
    exact holds.newest

/-- Dropping old blocks drops points from the front, all of them before the cutoff. -/
theorem Holds.ageOff (holds : log.Holds contents) (now retention : Timestamp) :
    ∃ after older, (log.ageOff now retention).Holds after ∧ after.taken = contents.taken
      ∧ after.dropped = contents.dropped ++ older
      ∧ ∀ point ∈ older, point.timestamp < now.saturatingSub retention := by
  obtain ⟨old, young, _, aged, same, before⟩ := holds.ageOff_archived now retention
  exact ⟨_, old.flatten, aged, same, rfl, before⟩

/-! ## Reading a span -/

/-- The blocks that overlap a span give every point of the span, and blocks are read whole. -/
theorem mapM_overlapping {blocks : List Block} {runs : List (List Point)} (start stop : Timestamp)
    (holds : List.Forall₂ Block.Holds blocks runs)
    (ordered : ∀ points ∈ runs, points.Pairwise Point.NotAfter) :
    ∃ found, (blocks.filter fun block => block.overlaps start stop).mapM Block.toPoints = .ok found
      ∧ found.flatten.filter (Point.isWithin start stop)
        = runs.flatten.filter (Point.isWithin start stop) := by
  induction holds with
  | nil => exact ⟨[], rfl, rfl⟩
  | @cons block points blocks runs here later ih =>
      obtain ⟨found, read, same⟩ :=
        ih fun other member => ordered other (List.mem_cons_of_mem _ member)
      rw [List.flatten_cons, List.filter_append, ← same]
      by_cases overlaps : block.overlaps start stop = true
      · refine ⟨points :: found, ?_, ?_⟩
        · rw [List.filter_cons, if_pos overlaps, List.mapM_cons, here.toPoints, read]
          rfl
        · rw [List.flatten_cons, List.filter_append]
      · refine ⟨found, ?_, ?_⟩
        · rw [List.filter_cons, if_neg overlaps, read]
        · have outside : points.filter (Point.isWithin start stop) = [] := by
            rw [List.filter_eq_nil_iff]
            intro point member within
            simp only [Point.isWithin, Bool.and_eq_true, decide_eq_true_eq] at within
            exact overlaps (here.overlaps (ordered points List.mem_cons_self) member within)
          rw [outside, List.nil_append]

/-- The blocks of a span give every point of the span that the log holds. -/
theorem Holds.pointsWithin (holds : log.Holds contents) (start stop : Timestamp) :
    ∃ found, (log.blocksWithin start stop).mapM Block.toPoints = .ok found
      ∧ found.flatten.filter (Point.isWithin start stop)
        = contents.kept.filter (Point.isWithin start stop) := by
  rw [← flatten_runsOf]
  exact mapM_overlapping start stop holds.blocks fun points member =>
    ordered_of_mem_runsOf holds.ordered_kept member

end SeriesLog

end TimeSeries
