import Mathlib.Data.List.Induction
import TimeSeries.Proofs.Log.Contents

/-!
# The history of a log

A log goes through events: points are offered to it, its open block is archived, and old blocks are
dropped.  Which points it accepts can be said without the log: each one that is not before a point
accepted earlier.  The log of some events holds these points without a number of the oldest, and it
refuses nothing for any other reason than the order of time.

Blocks are dropped from the front of the archive only, and a block is judged by its last point.  So
every point that is gone was archived when some drop found it before the cutoff, and what was never
before a cutoff is still held (`removed_after`).

Blocks are archived when they are full, which bounds the number of points in each of them
(`Bounded.next`), and moves points from one block to another but never changes what is held.

Main statement: `isAppendLog_after`.
-/

set_option autoImplicit false

namespace TimeSeries

/-- What can happen to a log. -/
inductive LogEvent where
  | add (point : Point)
  | archive
  | ageOff (now retention : Timestamp)
  deriving DecidableEq, Repr

namespace LogEvent

/-- The points accepted after one more event: a point is accepted unless it lies before one that was
accepted earlier. -/
def accept (accepted : List Point) : LogEvent → List Point
  | add point =>
      if ∀ earlier ∈ accepted, earlier.timestamp ≤ point.timestamp then accepted ++ [point]
      else accepted
  | _ => accepted

/-- The points accepted in the course of some events, oldest first. -/
def accepted (events : List LogEvent) : List Point := events.foldl accept []

/-- What was accepted stays accepted. -/
theorem prefix_accept (points : List Point) (event : LogEvent) :
    points <+: event.accept points := by
  cases event with
  | add point =>
      rw [accept]
      split
      · exact List.prefix_append _ _
      · exact List.prefix_rfl
  | archive => exact List.prefix_rfl
  | ageOff => exact List.prefix_rfl

theorem accepted_concat (events : List LogEvent) (event : LogEvent) :
    accepted (events ++ [event]) = event.accept (accepted events) := by
  rw [accepted, List.foldl_append]
  rfl

end LogEvent

open LogEvent (accepted)

/-! ## Counting points -/

theorem total_cons (count : Nat) (counts : List Nat) :
    total (count :: counts) = count + total counts := rfl

/-- The counts of blocks add up to the number of their points. -/
theorem total_count {blocks : List Block} {runs : List (List Point)}
    (holds : List.Forall₂ Block.Holds blocks runs) :
    total (blocks.map Block.count) = runs.flatten.length := by
  induction holds with
  | nil => rfl
  | cons here _ ih =>
      rw [List.map_cons, total_cons, ih, here.count, List.flatten_cons, List.length_append]

theorem BlockEncoder.count_of_add {encoder next : BlockEncoder} {point : Point}
    (added : encoder.add point = .ok next) : next.count = encoder.count + 1 := by
  unfold BlockEncoder.add at added
  split at added
  · cases added
  split at added
  case isTrue nothing =>
      rw [isEmpty, beq_iff_eq] at nothing
      rw [← Except.ok.inj added, nothing]
  split at added
  · cases added
  · rw [← Except.ok.inj added]

namespace SeriesLog

/-- The log after an event; a point that is refused leaves it as it was. -/
def next (log : SeriesLog) : LogEvent → SeriesLog
  | .add point => (log.add point).toOption.getD log
  | .archive => log.archive
  | .ageOff now retention => log.ageOff now retention

/-- The log after some events. -/
def after (blockLimit : Nat) (events : List LogEvent) : SeriesLog :=
  events.foldl next (empty blockLimit)

theorem after_concat (blockLimit : Nat) (events : List LogEvent) (event : LogEvent) :
    after blockLimit (events ++ [event]) = (after blockLimit events).next event := by
  rw [after, List.foldl_append]
  rfl

/-- The points of some blocks, block by block. -/
def pointsOf (blocks : List Block) : Except Failure (List Point) :=
  (blocks.mapM Block.toPoints).map List.flatten

/-- The number of points in archived blocks. -/
def archivedCount (log : SeriesLog) : Nat := total (log.archived.map Block.count)

/-- The number of points that were accepted and are held no longer. -/
def gone (blockLimit : Nat) (events : List LogEvent) : Nat :=
  (accepted events).length - (after blockLimit events).size

/-- The accepted points without those that are gone. -/
def heldOf (blockLimit : Nat) (events : List LogEvent) : List Point :=
  (accepted events).drop (gone blockLimit events)

/-- The log with room in its open block. -/
def withRoom (log : SeriesLog) : SeriesLog := if log.isFull then log.archive else log

variable {log : SeriesLog} {contents : LogContents} {blockLimit : Nat} {events : List LogEvent}

/-! ## Contents and events -/

theorem Holds.size (holds : log.Holds contents) : log.size = contents.kept.length := by
  rw [SeriesLog.size, total_count holds.blocks, flatten_runsOf]

theorem Holds.isEmpty_iff (holds : log.Holds contents) :
    log.isEmpty = true ↔ contents.kept = [] := by
  rw [isEmpty, beq_iff_eq, holds.size, List.length_eq_zero_iff]

theorem Holds.archivedCount (holds : log.Holds contents) :
    log.archivedCount = contents.archived.flatten.length :=
  total_count holds.archived

/-- A point is not before the newest one exactly if it is before none. -/
theorem Holds.inOrder_iff (holds : log.Holds contents) (point : Point) :
    (∀ newest ∈ log.newest, newest ≤ point.timestamp)
      ↔ ∀ earlier ∈ contents.taken, earlier.timestamp ≤ point.timestamp := by
  rw [holds.newest]
  constructor
  · intro inOrder earlier member
    obtain ⟨last, ends⟩ :=
      Option.isSome_iff_exists.mp (List.getLast?_isSome.mpr (List.ne_nil_of_mem member))
    have behind := inOrder last.timestamp (by rw [ends]; rfl)
    exact Int64.le_trans (Point.notAfter_getLast? holds.ordered member ends) behind
  · intro inOrder newest ends
    obtain ⟨last, final, rfl⟩ := Option.map_eq_some_iff.mp (Option.mem_def.mp ends)
    exact inOrder last (List.mem_of_getLast? final)

/-- To make room moves points at most from the open block to the archive. -/
theorem Holds.withRoom (holds : log.Holds contents) :
    ∃ roomy, log.withRoom.Holds roomy ∧ roomy.taken = contents.taken := by
  unfold SeriesLog.withRoom
  split
  · exact ⟨_, holds.archive, taken_archive contents⟩
  · exact ⟨contents, holds, rfl⟩

/-- The log has the given contents, and it has taken the accepted points. -/
structure Tracks (log : SeriesLog) (events : List LogEvent) (contents : LogContents) : Prop where
  holds : log.Holds contents
  taken : contents.taken = accepted events

theorem tracks_empty (blockLimit : Nat) : (empty blockLimit).Tracks [] ⟨[], [], []⟩ :=
  ⟨holds_empty blockLimit, rfl⟩

/-- The points that one event removes from what is held are the first of the archive, and before the
cutoff of the event. -/
def Removes (event : LogEvent) (contents : LogContents) (older : List Point) : Prop :=
  older = [] ∨ ∃ now retention, event = .ageOff now retention
    ∧ older <+: contents.archived.flatten
    ∧ ∀ point ∈ older, point.timestamp < now.saturatingSub retention

/-- One event: the log has taken what is accepted, and what was removed is dropped. -/
theorem Tracks.next (tracks : log.Tracks events contents) (event : LogEvent) :
    ∃ later older, (log.next event).Tracks (events ++ [event]) later
      ∧ later.dropped = contents.dropped ++ older ∧ Removes event contents older := by
  obtain ⟨holds, taken⟩ := tracks
  cases event with
  | add point =>
      by_cases inOrder : ∀ newest ∈ log.newest, newest ≤ point.timestamp
      · obtain ⟨grown, later, added, grownHolds, same, dropped, _⟩ := holds.add inOrder
        refine ⟨later, [], ⟨?_, ?_⟩, by rw [dropped, List.append_nil], Or.inl rfl⟩
        · rw [SeriesLog.next, added]
          exact grownHolds
        · rw [holds.inOrder_iff, taken] at inOrder
          rw [same, taken, LogEvent.accepted_concat, LogEvent.accept, if_pos inOrder]
      · obtain ⟨failure, refused⟩ := refused_of_early inOrder
        refine ⟨contents, [], ⟨?_, ?_⟩, (List.append_nil _).symm, Or.inl rfl⟩
        · rw [SeriesLog.next, refused]
          exact holds
        · rw [holds.inOrder_iff, taken] at inOrder
          rw [taken, LogEvent.accepted_concat, LogEvent.accept, if_neg inOrder]
  | archive =>
      refine ⟨_, [], ⟨holds.archive, ?_⟩, (List.append_nil _).symm, Or.inl rfl⟩
      rw [taken_archive, taken, LogEvent.accepted_concat]
      rfl
  | ageOff now retention =>
      obtain ⟨old, young, split, aged, same, before⟩ := holds.ageOff_archived now retention
      refine ⟨_, old.flatten, ⟨aged, ?_⟩, rfl, Or.inr ⟨now, retention, rfl, ?_, before⟩⟩
      · rw [same, taken, LogEvent.accepted_concat]
        rfl
      · rw [split, List.flatten_append]
        exact List.prefix_append _ _

/-- After any events, the log tracks what is accepted. -/
theorem tracks_after (blockLimit : Nat) (events : List LogEvent) :
    ∃ contents, (after blockLimit events).Tracks events contents := by
  induction events using List.reverseRecOn with
  | nil => exact ⟨_, tracks_empty blockLimit⟩
  | append_singleton events event ih =>
      obtain ⟨contents, tracks⟩ := ih
      obtain ⟨later, _, onward, _⟩ := tracks.next event
      exact ⟨later, after_concat blockLimit events event ▸ onward⟩

/-- A point that is before none of those accepted is taken, and no other one. -/
theorem Tracks.isOk_add_iff (tracks : log.Tracks events contents) (point : Point) :
    (log.add point).isOk = true
      ↔ ∀ earlier ∈ accepted events, earlier.timestamp ≤ point.timestamp := by
  rw [← tracks.taken, ← tracks.holds.inOrder_iff]
  constructor
  · intro added newest known
    by_contra early
    rw [add_outOfOrder known (Int64.not_le.mp early)] at added
    cases added
  · intro inOrder
    obtain ⟨grown, _, added, _⟩ := tracks.holds.add inOrder
    rw [added]
    rfl

/-- A point is refused for its timestamp only. -/
theorem Tracks.refused (tracks : log.Tracks events contents) {point : Point} {failure : Failure}
    (failed : log.add point = .error failure) :
    ∃ newest, (accepted events).getLast? = some newest ∧ point.timestamp < newest.timestamp
      ∧ failure = .outOfOrder point.timestamp newest.timestamp := by
  have early : ¬ ∀ newest ∈ log.newest, newest ≤ point.timestamp := by
    intro inOrder
    obtain ⟨grown, _, added, _⟩ := tracks.holds.add inOrder
    rw [added] at failed
    cases failed
  simp only [not_forall, Int64.not_le] at early
  obtain ⟨newest, known, before⟩ := early
  rw [add_outOfOrder known before] at failed
  rw [tracks.holds.newest, tracks.taken, Option.mem_def, Option.map_eq_some_iff] at known
  obtain ⟨last, ends, rfl⟩ := known
  exact ⟨last, ends, before, (Except.error.inj failed).symm⟩

/-- Once there is room, the open block takes a point that is before none of those accepted. -/
theorem Tracks.isOk_add_open (tracks : log.Tracks events contents) (point : Point)
    (inOrder : ∀ earlier ∈ accepted events, earlier.timestamp ≤ point.timestamp) :
    ((log.withRoom.current.getD .empty).add point).isOk = true := by
  obtain ⟨roomy, holds, same⟩ := tracks.holds.withRoom
  have lastInOrder : ∀ last ∈ roomy.taken.getLast?, last.NotAfter point := by
    intro last ends
    rw [same, tracks.taken] at ends
    exact inOrder last (List.mem_of_getLast? ends)
  obtain ⟨encoder, added, _⟩ := holds.append_open lastInOrder
  rw [added]
  rfl

/-- What is gone is what was dropped. -/
theorem Tracks.gone (tracks : (after blockLimit events).Tracks events contents) :
    gone blockLimit events = contents.dropped.length := by
  rw [SeriesLog.gone, tracks.holds.size, ← tracks.taken, LogContents.taken, List.length_append,
    Nat.add_sub_cancel]

theorem Tracks.heldOf (tracks : (after blockLimit events).Tracks events contents) :
    heldOf blockLimit events = contents.kept := by
  rw [SeriesLog.heldOf, tracks.gone, ← tracks.taken, LogContents.taken, List.drop_left]

/-- Every point that is gone was archived when a drop found it before its cutoff. -/
theorem removed_after (blockLimit : Nat) (events : List LogEvent) {position : Nat}
    (past : position < gone blockLimit events) :
    ∃ before now retention behind point, events = before ++ .ageOff now retention :: behind
      ∧ gone blockLimit before ≤ position
      ∧ position < gone blockLimit before + (after blockLimit before).archivedCount
      ∧ (accepted events)[position]? = some point
      ∧ point.timestamp < now.saturatingSub retention := by
  induction events using List.reverseRecOn with
  | nil => cases past
  | append_singleton events event ih =>
      obtain ⟨contents, tracks⟩ := tracks_after blockLimit events
      obtain ⟨later, older, onward, dropped, removes⟩ := tracks.next event
      rw [← after_concat] at onward
      by_cases earlier : position < gone blockLimit events
      · -- the point was gone before, and so it is by the earlier drop
        obtain ⟨before, now, retention, behind, point, split, low, high, found, old⟩ := ih earlier
        refine ⟨before, now, retention, behind ++ [event], point, by rw [split]; simp, low, high,
          ?_, old⟩
        obtain ⟨rest, grown⟩ := LogEvent.prefix_accept (accepted events) event
        have inside := (List.getElem?_eq_some_iff.mp found).1
        rw [LogEvent.accepted_concat, ← grown, List.getElem?_append_left inside, found]
      · rw [onward.gone, dropped, List.length_append, ← tracks.gone] at past
        rcases removes with rfl | ⟨now, retention, rfl, front, old⟩
        · exact absurd past earlier
        · have inside : position - gone blockLimit events < older.length := by omega
          refine ⟨events, now, retention, [], older[position - gone blockLimit events], rfl,
            Nat.le_of_not_lt earlier, ?_, ?_, old _ (List.getElem_mem inside)⟩
          · have bound := front.length_le
            rw [← tracks.holds.archivedCount] at bound
            omega
          · have length := tracks.gone
            rw [← onward.taken, LogContents.taken, dropped, List.append_assoc,
              List.getElem?_append_right (by omega)]
            simp only [← length]
            rw [List.getElem?_append_left inside, List.getElem?_eq_getElem]

/-! ## Full blocks -/

/-- No block holds more points than the limit allows. -/
structure Bounded (log : SeriesLog) : Prop where
  archived : ∀ block ∈ log.archived, block.count ≤ log.blockLimit
  current : ∀ encoder ∈ log.current, encoder.count ≤ log.blockLimit

theorem bounded_empty (blockLimit : Nat) : (empty blockLimit).Bounded :=
  ⟨by simp [empty], by simp [empty]⟩

theorem count_of_mem_openBlock? {block : Block} (here : block ∈ log.openBlock?) :
    ∃ encoder ∈ log.current, block.count = encoder.count := by
  unfold SeriesLog.openBlock? at here
  split at here
  case _ encoder same =>
      split at here
      · cases here
      · rw [← Option.some.inj here]
        exact ⟨encoder, same, rfl⟩
  · cases here

theorem Bounded.blocks (bounded : log.Bounded) {block : Block} (member : block ∈ log.blocks) :
    block.count ≤ log.blockLimit := by
  rcases List.mem_append.mp member with old | new
  · exact bounded.archived block old
  · obtain ⟨encoder, here, count⟩ := count_of_mem_openBlock? (Option.mem_toList.mp new)
    rw [count]
    exact bounded.current encoder here

theorem Bounded.archive (bounded : log.Bounded) : log.archive.Bounded :=
  ⟨fun _ member => bounded.blocks member, by simp [SeriesLog.archive]⟩

theorem Bounded.ageOff (bounded : log.Bounded) (now retention : Timestamp) :
    (log.ageOff now retention).Bounded :=
  ⟨fun block member => bounded.archived block (List.mem_filter.mp member).1, bounded.current⟩

/-- In a log with room, the open block takes one more point without exceeding the limit. -/
theorem Bounded.withRoom (bounded : log.Bounded) (limited : 0 < log.blockLimit) :
    log.withRoom.Bounded ∧ log.withRoom.blockLimit = log.blockLimit
      ∧ (log.withRoom.current.getD .empty).count < log.blockLimit := by
  unfold SeriesLog.withRoom
  split
  · exact ⟨bounded.archive, rfl, limited⟩
  case isFalse room =>
      refine ⟨bounded, rfl, ?_⟩
      unfold isFull at room
      cases here : log.current with
      | none => exact limited
      | some encoder =>
          simp only [here, Bool.and_eq_true, decide_eq_true_eq, not_and, Nat.not_le] at room
          exact room limited

/-- A log that takes a point puts it into its open block, once there is room. -/
theorem exists_encoder_of_append {point : Point} {grown : SeriesLog}
    (added : log.append point = .ok grown) :
    ∃ encoder, (log.withRoom.current.getD .empty).add point = .ok encoder
      ∧ grown = { log.withRoom with current := some encoder, newest := some point.timestamp } := by
  have unfolded : log.append point = (log.withRoom.current.getD .empty).add point >>=
      fun encoder => pure { log.withRoom with
        current := some encoder, newest := some point.timestamp } := rfl
  rw [unfolded] at added
  cases taken : (log.withRoom.current.getD .empty).add point with
  | error failure =>
      rw [taken] at added
      cases added
  | ok encoder =>
      rw [taken] at added
      exact ⟨encoder, rfl, (Except.ok.inj added).symm⟩

theorem append_of_add {point : Point} {grown : SeriesLog} (added : log.add point = .ok grown) :
    log.append point = .ok grown := by
  unfold SeriesLog.add at added
  split at added
  · split at added
    · cases added
    · exact added
  · exact added

/-- No event makes a block larger than the limit, and the limit stays. -/
theorem Bounded.next (bounded : log.Bounded) (limited : 0 < log.blockLimit) (event : LogEvent) :
    (log.next event).Bounded ∧ (log.next event).blockLimit = log.blockLimit := by
  cases event with
  | add point =>
      cases added : log.add point with
      | error failure =>
          rw [SeriesLog.next, added]
          exact ⟨bounded, rfl⟩
      | ok grown =>
          obtain ⟨encoder, taken, rfl⟩ := exists_encoder_of_append (append_of_add added)
          obtain ⟨roomy, same, room⟩ := bounded.withRoom limited
          rw [SeriesLog.next, added]
          refine ⟨⟨roomy.archived, fun other here => ?_⟩, same⟩
          rw [← Option.some.inj here, BlockEncoder.count_of_add taken]
          exact same ▸ room
  | archive => exact ⟨bounded.archive, rfl⟩
  | ageOff now retention => exact ⟨bounded.ageOff now retention, rfl⟩

theorem bounded_after (limited : 0 < blockLimit) (events : List LogEvent) :
    (after blockLimit events).Bounded ∧ (after blockLimit events).blockLimit = blockLimit := by
  induction events using List.reverseRecOn with
  | nil => exact ⟨bounded_empty blockLimit, rfl⟩
  | append_singleton events event ih =>
      obtain ⟨bounded, limit⟩ := ih
      obtain ⟨onward, same⟩ := bounded.next (by rw [limit]; exact limited) event
      rw [after_concat]
      exact ⟨onward, same.trans limit⟩

/-! ## Reading -/

theorem exists_run_of_mem {blocks : List Block} {runs : List (List Point)}
    (holds : List.Forall₂ Block.Holds blocks runs) {block : Block} (member : block ∈ blocks) :
    ∃ points ∈ runs, block.Holds points := by
  induction holds with
  | nil => cases member
  | @cons first points _ runs here _ ih =>
      rcases List.mem_cons.mp member with rfl | behind
      · exact ⟨points, List.mem_cons_self, here⟩
      · obtain ⟨others, among, held⟩ := ih behind
        exact ⟨others, List.mem_cons_of_mem points among, held⟩

theorem filled_runsOf (filled : ∀ points ∈ contents.archived, points ≠ []) :
    ∀ points ∈ runsOf contents, points ≠ [] := by
  intro points member
  rcases List.mem_append.mp member with old | new
  · exact filled points old
  · split at new
    · cases new
    · rw [List.mem_singleton.mp new]
      assumption

/-- The oldest of ordered runs starts with the first point of all. -/
theorem min?_first {blocks : List Block} {runs : List (List Point)}
    (holds : List.Forall₂ Block.Holds blocks runs) (filled : ∀ points ∈ runs, points ≠ [])
    (ordered : runs.flatten.Pairwise Point.NotAfter) :
    ((blocks.filter fun block => !block.isEmpty).map Block.first).min?
      = runs.flatten.head?.map Point.timestamp := by
  have full : (blocks.filter fun block => !block.isEmpty) = blocks := by
    rw [List.filter_eq_self]
    intro block member
    obtain ⟨points, among, here⟩ := exists_run_of_mem holds member
    have some_points := mt here.isEmpty_iff.mp (filled points among)
    rw [Bool.not_eq_true] at some_points
    rw [some_points]
    rfl
  rw [full]
  cases holds with
  | nil => rfl
  | @cons block points blocks runs here later =>
      obtain ⟨first, rest, rfl⟩ := List.exists_cons_of_ne_nil (filled points List.mem_cons_self)
      have start := here.first first rfl
      have after_first : ∀ point ∈ (first :: rest) ++ runs.flatten, first.NotAfter point := by
        intro point member
        rcases List.mem_cons.mp member with rfl | behind
        · exact Int64.le_refl _
        · exact (List.pairwise_cons.mp ordered).1 point behind
      rw [List.flatten_cons, List.cons_append, List.head?_cons, Option.map_some,
        List.min?_eq_some_iff]
      refine ⟨by rw [← start]; exact List.mem_cons_self, fun other member => ?_⟩
      obtain ⟨block', among, rfl⟩ := List.mem_map.mp member
      rcases List.mem_cons.mp among with rfl | behind
      · exact start ▸ Int64.le_refl _
      · obtain ⟨run, found, held⟩ := exists_run_of_mem later behind
        obtain ⟨head, tail, rfl⟩ :=
          List.exists_cons_of_ne_nil (filled run (List.mem_cons_of_mem _ found))
        rw [held.first head rfl]
        exact after_first head
          (List.mem_append_right _ (List.mem_flatten_of_mem found List.mem_cons_self))

theorem Holds.oldest? (holds : log.Holds contents) :
    log.oldest? = contents.kept.head?.map Point.timestamp := by
  have ordered := holds.ordered_kept
  rw [← flatten_runsOf] at ordered ⊢
  exact min?_first holds.blocks (filled_runsOf holds.filled) ordered

theorem Holds.pointsOf (holds : log.Holds contents) (start stop : Timestamp) :
    ∃ points, pointsOf (log.blocksWithin start stop) = .ok points
      ∧ points.filter (Point.isWithin start stop)
        = contents.kept.filter (Point.isWithin start stop) := by
  obtain ⟨found, read, same⟩ := holds.pointsWithin start stop
  exact ⟨found.flatten, by rw [SeriesLog.pointsOf, read]; rfl, same⟩

/-- Every point lies between the ends of all timestamps. -/
theorem filter_isWithin_all (points : List Point) :
    points.filter (Point.isWithin Timestamp.earliest Timestamp.latest) = points := by
  rw [List.filter_eq_self]
  intro point _
  rw [Point.isWithin, Bool.and_eq_true, decide_eq_true_iff, decide_eq_true_iff]
  exact ⟨Int64.minValue_le _, Int64.le_maxValue _⟩

/-! ## The log of some events -/

/-- The log of some events holds the points accepted, without some of the oldest. -/
structure IsAppendLog (blockLimit : Nat) (events : List LogEvent) : Prop where
  /-- A point is taken exactly if it is before none that was accepted. -/
  accepts : ∀ point, ((after blockLimit events).add point).isOk = true
    ↔ ∀ earlier ∈ accepted events, earlier.timestamp ≤ point.timestamp
  /-- A point that is refused is before the newest one ever accepted, and nothing changes. -/
  refuses : ∀ point failure, (after blockLimit events).add point = .error failure →
    (∃ newest, (accepted events).getLast? = some newest
      ∧ point.timestamp < newest.timestamp
      ∧ failure = .outOfOrder point.timestamp newest.timestamp)
    ∧ after blockLimit (events ++ [.add point]) = after blockLimit events
  /-- The open block, once there is room in it, takes whatever is in order. -/
  opens : ∀ point : Point, (∀ earlier ∈ accepted events, earlier.timestamp ≤ point.timestamp) →
    (((after blockLimit events).withRoom.current.getD .empty).add point).isOk = true
  /-- All blocks together give what is held, in the order in which it was accepted. -/
  decoded : pointsOf ((after blockLimit events).blocksWithin Timestamp.earliest Timestamp.latest)
    = .ok (heldOf blockLimit events)
  /-- A point that is gone was archived at some drop of old blocks and before the cutoff then. -/
  removed : ∀ position, position < gone blockLimit events →
    ∃ before now retention behind point, events = before ++ .ageOff now retention :: behind
      ∧ gone blockLimit before ≤ position
      ∧ position < gone blockLimit before + (after blockLimit before).archivedCount
      ∧ (accepted events)[position]? = some point
      ∧ point.timestamp < now.saturatingSub retention
  /-- A point that was never before a cutoff is held. -/
  retained : ∀ position point, (accepted events)[position]? = some point →
    (∀ now retention, .ageOff now retention ∈ events →
      now.saturatingSub retention ≤ point.timestamp) → gone blockLimit events ≤ position
  size : (after blockLimit events).size = (heldOf blockLimit events).length
  oldest : (after blockLimit events).oldest?
    = (heldOf blockLimit events).head?.map Point.timestamp
  /-- No block holds more points than the limit allows, if there is a limit. -/
  bounded : 0 < blockLimit → ∀ block ∈ (after blockLimit events).blocks,
    ∃ points, block.toPoints = .ok points ∧ block.count = points.length
      ∧ points.length ≤ blockLimit
  /-- The blocks of a span give all the points of the span that are held. -/
  within : ∀ start stop, ∃ points,
    pointsOf ((after blockLimit events).blocksWithin start stop) = .ok points
      ∧ points.filter (Point.isWithin start stop)
        = (heldOf blockLimit events).filter (Point.isWithin start stop)

/-- **A log appends, and drops from the front only.**  Whatever the limit of its blocks and whatever
happens to a log, it holds the points accepted without a number of the oldest, each of which was
archived and before the cutoff at some drop of old blocks. -/
theorem isAppendLog_after (blockLimit : Nat) (events : List LogEvent) :
    IsAppendLog blockLimit events := by
  obtain ⟨contents, tracks⟩ := tracks_after blockLimit events
  have holds := tracks.holds
  refine ⟨tracks.isOk_add_iff, fun point failure failed => ⟨tracks.refused failed, ?_⟩,
    tracks.isOk_add_open, ?_, fun position => removed_after blockLimit events, ?_, ?_, ?_,
    fun limited block member => ?_, fun start stop => ?_⟩
  · rw [after_concat, SeriesLog.next, failed]
    rfl
  · obtain ⟨points, read, same⟩ := holds.pointsOf Timestamp.earliest Timestamp.latest
    rw [filter_isWithin_all, filter_isWithin_all] at same
    rw [read, same, tracks.heldOf]
  · intro position point found young
    by_contra past
    obtain ⟨before, now, retention, behind, old, split, _, _, here, expired⟩ :=
      removed_after blockLimit events (Nat.lt_of_not_le past)
    rw [found, Option.some.injEq] at here
    have cutoff := young now retention (by rw [split]; simp)
    rw [here] at cutoff
    exact absurd expired (Int64.not_lt.mpr cutoff)
  · rw [holds.size, tracks.heldOf]
  · rw [holds.oldest?, tracks.heldOf]
  · obtain ⟨points, _, here⟩ := exists_run_of_mem holds.blocks member
    obtain ⟨bounded, limit⟩ := bounded_after limited events
    refine ⟨points, here.toPoints, here.count, ?_⟩
    rw [← here.count, ← limit]
    exact bounded.blocks member
  · rw [tracks.heldOf]
    exact holds.pointsOf start stop

/-- A drop of old blocks leaves the open block alone, whatever its age. -/
example : heldOf 1 [.add ⟨0, ⟨1⟩⟩, .add ⟨0, ⟨2⟩⟩, .ageOff 10 2] = [⟨0, ⟨2⟩⟩] := by decide

end SeriesLog

end TimeSeries
