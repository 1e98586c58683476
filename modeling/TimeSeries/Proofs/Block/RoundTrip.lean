import Mathlib.Data.List.Induction
import TimeSeries.Proofs.Block.Fields

/-!
# Blocks give back the points they took

An encoder that has taken some points has written the bits of those points, each relative to the
link behind the one before it, and stands at the link behind the last one (`BlockEncoder.Holds`).
A decoder that stands at the same link, in front of the bits of the points that follow, reads just
these points.  Both walk along the same chain of links, so nothing but the link has to be compared.

An encoder may be called in any order: points may be offered, the block closed and snapshots taken.
What it has taken by then is said without any encoder by an `Intake`, a list of points and whether
it is closed.

Main statement: `BlockEncoder.toBlock_after_calls` says that at any moment the block of an encoder
is read as the points of the intake, that a point is refused exactly when the intake does not accept
it, and that calls which were refused leave no trace.
-/

set_option autoImplicit false

namespace TimeSeries

/-! ## The bits of points -/

/-- The bits of points that follow a link. -/
def Link.pointBits (link : Link) : List Point → List Bool
  | [] => []
  | point :: points => fieldBits (link.fields point) ++ (link.follow point).pointBits points

/-- The link behind points that follow a link. -/
def Link.followAll (link : Link) (points : List Point) : Link := points.foldl Link.follow link

theorem Link.pointBits_append (link : Link) (points : List Point) (point : Point) :
    link.pointBits (points ++ [point])
      = link.pointBits points ++ fieldBits ((link.followAll points).fields point) := by
  induction points generalizing link with
  | nil => exact List.append_nil _
  | cons next points ih =>
      show fieldBits (link.fields next) ++ (link.follow next).pointBits (points ++ [point]) = _
      rw [ih, ← List.append_assoc]
      rfl

theorem Link.timestamp_followAll (link : Link) (points : List Point) :
    (link.followAll points).timestamp
      = (points.getLast?.map Point.timestamp).getD link.timestamp := by
  induction points generalizing link with
  | nil => rfl
  | cons point points ih =>
      have onward : link.followAll (point :: points) = (link.follow point).followAll points := rfl
      rw [onward, ih, List.getLast?_cons]
      cases points.getLast? <;> rfl

/-- The bits of a block of points. -/
def blockBits : List Point → List Bool
  | [] => []
  | point :: points => fieldBits (Link.firstFields point) ++ (Link.ofFirst point).pointBits points

/-! ## Encoders -/

namespace BlockEncoder

/-- The encoder has taken the given points. -/
structure Holds (encoder : BlockEncoder) (points : List Point) : Prop where
  count : encoder.count = points.length
  bits : encoder.writer.bits = blockBits points
  first : ∀ point ∈ points.head?, encoder.first = point.timestamp
  link : ∀ point rest, points = point :: rest →
    encoder.link = (Link.ofFirst point).followAll rest

theorem holds_empty : empty.Holds [] where
  count := rfl
  bits := rfl
  first := by simp
  link := by simp

variable {encoder : BlockEncoder} {points : List Point}

theorem Holds.isEmpty_iff (holds : encoder.Holds points) :
    encoder.isEmpty = true ↔ points = [] := by
  rw [isEmpty, holds.count, beq_iff_eq, List.length_eq_zero_iff]

/-- The link of an encoder stands at its last point. -/
theorem Holds.timestamp_link (holds : encoder.Holds points) {last : Point}
    (ends : points.getLast? = some last) : encoder.link.timestamp = last.timestamp := by
  cases points with
  | nil => cases ends
  | cons point rest =>
      rw [holds.link point rest rfl, Link.timestamp_followAll]
      rw [List.getLast?_cons] at ends
      rw [← Option.some.inj ends]
      cases rest.getLast? <;> rfl

theorem Holds.close (holds : encoder.Holds points) : encoder.close.Holds points :=
  ⟨holds.count, holds.bits, holds.first, holds.link⟩

/-- What an open encoder makes of a point that does not lie before its last one. -/
theorem Holds.add (holds : encoder.Holds points) {point : Point}
    (isOpen : encoder.closed = false)
    (inOrder : ∀ last ∈ points.getLast?, last.timestamp ≤ point.timestamp) :
    ∃ next, encoder.add point = .ok next ∧ next.Holds (points ++ [point])
      ∧ next.closed = false := by
  unfold BlockEncoder.add
  rw [isOpen, if_neg Bool.false_ne_true]
  cases points with
  | nil =>
      rw [if_pos (holds.isEmpty_iff.mpr rfl)]
      refine ⟨_, rfl, ⟨rfl, ?_, ?_, ?_⟩, rfl⟩
      · rw [bits_writeFields, holds.bits]
        exact (List.append_nil _).symm
      · intro first here
        cases here
        rfl
      · intro first rest same
        cases same
        rfl
  | cons first rest =>
      rw [if_neg (mt holds.isEmpty_iff.mp (List.cons_ne_nil first rest))]
      obtain ⟨last, ends⟩ := List.getLast?_isSome.mpr (List.cons_ne_nil first rest)
        |> Option.isSome_iff_exists.mp
      have notBefore : ¬ point.timestamp < encoder.link.timestamp := by
        rw [holds.timestamp_link ends, Int64.not_lt]
        exact inOrder last ends
      rw [if_neg notBefore]
      have link := holds.link first rest rfl
      refine ⟨_, rfl, ⟨?_, ?_, ?_, ?_⟩, rfl⟩
      · simp only [holds.count, List.length_append, List.length_singleton]
      · rw [bits_writeFields, holds.bits, link, List.cons_append, blockBits, blockBits,
          Link.pointBits_append, List.append_assoc]
      · exact holds.first
      · intro head tail same
        rw [List.cons_append, List.cons.injEq] at same
        obtain ⟨rfl, rfl⟩ := same
        simp only [link, Link.followAll, List.foldl_append, List.foldl_cons, List.foldl_nil]

/-- A point that lies before the last one is refused. -/
theorem Holds.add_outOfOrder (holds : encoder.Holds points) {point last : Point}
    (isOpen : encoder.closed = false) (ends : points.getLast? = some last)
    (before : point.timestamp < last.timestamp) :
    encoder.add point = .error (.outOfOrder point.timestamp last.timestamp) := by
  have some_points : points ≠ [] := by
    rintro rfl
    cases ends
  unfold BlockEncoder.add
  rw [isOpen, if_neg Bool.false_ne_true, if_neg (mt holds.isEmpty_iff.mp some_points),
    holds.timestamp_link ends, if_pos before]

end BlockEncoder

/-! ## Decoders -/

namespace BlockDecoder

theorem toPoints_of_finished {decoder : BlockDecoder} (stepped : decoder.step = .finished) :
    decoder.toPoints = .ok [] := by
  rw [toPoints]
  split <;> simp_all

theorem toPoints_of_read {decoder next : BlockDecoder} {point : Point}
    (stepped : decoder.step = .read point next) :
    decoder.toPoints = next.toPoints.map (point :: ·) := by
  rw [toPoints]
  split <;> simp_all

/-- A decoder that has not read all of its points takes the point in turn off the bits. -/
theorem step_of_reads {decoder : BlockDecoder} {bits rest : List Bool} {point : Point}
    {link : Link} (fine : decoder.failed = false) (more : decoder.decoded < decoder.count)
    (reads : Reads decoder.readPoint bits (point, link))
    (shown : decoder.reader.Shows (bits ++ rest)) :
    ∃ reader, decoder.step = .read point
        { decoder with reader := reader, decoded := decoder.decoded + 1, link := link }
      ∧ reader.Shows rest := by
  obtain ⟨reader, read, onward⟩ := reads decoder.reader rest shown
  refine ⟨reader, ?_, onward⟩
  rw [step, fine, Bool.false_or, if_neg (by simpa using more), read]

/-- Behind its first point, a decoder reads the points whose bits it stands in front of. -/
theorem toPoints_of_shows {decoder : BlockDecoder} {points : List Point} {rest : List Bool}
    (fine : decoder.failed = false) (started : decoder.decoded ≠ 0)
    (count : decoder.count = decoder.decoded + points.length)
    (sound : decoder.link.window.Sound)
    (shown : decoder.reader.Shows (decoder.link.pointBits points ++ rest)) :
    decoder.toPoints = .ok points := by
  induction points generalizing decoder with
  | nil =>
      refine toPoints_of_finished ?_
      rw [step, fine, Bool.false_or, if_pos (by simp [count])]
  | cons point points ih =>
      have reads : Reads decoder.readPoint (fieldBits (decoder.link.fields point))
          (point, decoder.link.follow point) := by
        rw [readPoint, if_neg started]
        exact reads_next sound point
      rw [Link.pointBits, List.append_assoc] at shown
      obtain ⟨reader, stepped, onward⟩ :=
        step_of_reads fine (by simp [count]) reads shown
      have remaining : decoder.count = decoder.decoded + 1 + points.length := by
        rw [count, List.length_cons]
        omega
      have later := @ih
        ⟨reader, decoder.count, decoder.decoded + 1, decoder.failed, decoder.link.follow point⟩
        fine (Nat.succ_ne_zero _) remaining (Link.sound_follow sound point) onward
      rw [toPoints_of_read stepped, later]
      rfl

end BlockDecoder

/-- The block of an encoder is read as the points that the encoder has taken. -/
theorem BlockEncoder.Holds.toPoints_toBlock {encoder : BlockEncoder} {points : List Point}
    (holds : encoder.Holds points) : encoder.toBlock.toPoints = .ok points := by
  have shown := BitWriter.shows_toBytes encoder.writer
  rw [holds.bits] at shown
  let start := BlockDecoder.ofBlock encoder.toBlock
  have count : start.count = points.length := holds.count
  show start.toPoints = _
  cases points with
  | nil =>
      refine BlockDecoder.toPoints_of_finished ?_
      rw [BlockDecoder.step, count]
      rfl
  | cons point points =>
      have reads : BlockDecoder.Reads start.readPoint (fieldBits (Link.firstFields point))
          (point, Link.ofFirst point) :=
        (BlockDecoder.reads_first point).map fun point => (point, Link.ofFirst point)
      rw [blockBits, List.append_assoc] at shown
      have more : start.decoded < start.count := by
        rw [count]
        exact Nat.succ_pos _
      obtain ⟨reader, stepped, onward⟩ := BlockDecoder.step_of_reads rfl more reads shown
      have remaining : start.count = 0 + 1 + points.length := by
        rw [count, List.length_cons]
        omega
      have later := @BlockDecoder.toPoints_of_shows
        ⟨reader, start.count, 0 + 1, false, Link.ofFirst point⟩ points _
        rfl (Nat.succ_ne_zero _) remaining (Link.sound_ofFirst point) onward
      rw [BlockDecoder.toPoints_of_read stepped]
      show Except.map _ (BlockDecoder.toPoints ⟨reader, start.count, 0 + 1, false, _⟩) = _
      rw [later]
      rfl

/-! ## Calls in any order -/

namespace BlockEncoder

/-- What may be asked of an encoder. -/
inductive Call where
  | add (point : Point)
  | close
  | snapshot
  deriving DecidableEq, Repr

/-- The encoder after a call; a point that is refused is lost to the caller. -/
def after (encoder : BlockEncoder) : Call → BlockEncoder
  | .add point =>
      match encoder.add point with
      | .ok next => next
      | .error _ => encoder
  | .close => encoder.close
  | .snapshot => encoder

/-- The points taken so far, and whether more are taken. -/
structure Intake where
  points : List Point
  closed : Bool
  deriving DecidableEq, Repr

namespace Intake

def empty : Intake := ⟨[], false⟩

/-- A point is accepted unless the intake is closed or the point lies before the last one. -/
def accepts (intake : Intake) (point : Point) : Bool :=
  !intake.closed && intake.points.getLast?.all fun last => last.timestamp ≤ point.timestamp

def after (intake : Intake) : Call → Intake
  | .add point =>
      if intake.accepts point then { intake with points := intake.points ++ [point] } else intake
  | .close => { intake with closed := true }
  | .snapshot => intake

end Intake

/-- The encoder has taken the points of the intake, and is closed if the intake is. -/
structure Follows (encoder : BlockEncoder) (intake : Intake) : Prop where
  holds : encoder.Holds intake.points
  closed : encoder.closed = intake.closed

variable {encoder : BlockEncoder} {intake : Intake}

/-- An encoder takes the points that its intake accepts. -/
theorem Follows.add (follows : encoder.Follows intake) {point : Point}
    (accepted : intake.accepts point = true) :
    ∃ next, encoder.add point = .ok next
      ∧ next.Follows { intake with points := intake.points ++ [point] } := by
  simp only [Intake.accepts, Bool.and_eq_true, Bool.not_eq_true', Option.all_eq_true,
    decide_eq_true_eq] at accepted
  obtain ⟨isOpen, inOrder⟩ := accepted
  obtain ⟨next, added, holds, stillOpen⟩ :=
    follows.holds.add (follows.closed.trans isOpen) inOrder
  exact ⟨next, added, holds, stillOpen.trans isOpen.symm⟩

/-- An encoder refuses the points that its intake does not accept. -/
theorem Follows.add_refused (follows : encoder.Follows intake) {point : Point}
    (refused : intake.accepts point = false) :
    ∃ failure, encoder.add point = .error failure := by
  by_cases isClosed : intake.closed = true
  · refine ⟨.closed, ?_⟩
    rw [BlockEncoder.add, follows.closed, if_pos isClosed]
  · have isOpen : intake.closed = false := Bool.eq_false_iff.mpr isClosed
    rw [Intake.accepts, isOpen, Bool.not_false, Bool.true_and] at refused
    cases ends : intake.points.getLast? with
    | none =>
        rw [ends] at refused
        cases refused
    | some last =>
        rw [ends] at refused
        have before : point.timestamp < last.timestamp := by
          simpa using refused
        exact ⟨_, follows.holds.add_outOfOrder (follows.closed.trans isOpen) ends before⟩

/-- Each call leaves an encoder that follows its intake. -/
theorem Follows.after (follows : encoder.Follows intake) (call : Call) :
    (encoder.after call).Follows (intake.after call) := by
  cases call with
  | add point =>
      cases accepted : intake.accepts point with
      | true =>
          obtain ⟨next, added, onward⟩ := follows.add accepted
          simp only [BlockEncoder.after, added, Intake.after, accepted, if_true]
          exact onward
      | false =>
          obtain ⟨failure, refused⟩ := follows.add_refused accepted
          simp only [BlockEncoder.after, refused, Intake.after, accepted]
          exact follows
  | close => exact ⟨follows.holds.close, rfl⟩
  | snapshot => exact follows

theorem follows_foldl (calls : List Call) (follows : encoder.Follows intake) :
    (calls.foldl BlockEncoder.after encoder).Follows (calls.foldl Intake.after intake) := by
  induction calls generalizing encoder intake with
  | nil => exact follows
  | cons call calls ih => exact ih (follows.after call)

theorem follows_empty : empty.Follows .empty := ⟨holds_empty, rfl⟩

/-- The encoder that was offered some points and nothing else. -/
def ofPoints (points : List Point) : BlockEncoder :=
  points.foldl (fun encoder point => encoder.after (.add point)) empty

theorem closed_of_add {next : BlockEncoder} {point : Point}
    (added : encoder.add point = .ok next) : next.closed = encoder.closed := by
  unfold BlockEncoder.add at added
  split at added
  · cases added
  split at added
  · rw [← Except.ok.inj added]
  split at added
  · cases added
  · rw [← Except.ok.inj added]

/-- Offering a point does not close an encoder. -/
theorem closed_after_add (encoder : BlockEncoder) (point : Point) :
    (encoder.after (.add point)).closed = encoder.closed := by
  simp only [BlockEncoder.after]
  cases added : encoder.add point with
  | ok next => exact closed_of_add added
  | error failure => rfl

theorem closed_ofPoints (points : List Point) : (ofPoints points).closed = false := by
  induction points using List.reverseRecOn with
  | nil => rfl
  | append_singleton points point ih =>
      rw [ofPoints, List.foldl_append]
      exact (closed_after_add _ point).trans ih

/-- Apart from being closed, an encoder is the one that was offered only the accepted points. -/
theorem foldl_after_eq (calls : List Call) :
    let intake := calls.foldl Intake.after .empty
    calls.foldl BlockEncoder.after empty
      = { ofPoints intake.points with closed := intake.closed } := by
  induction calls using List.reverseRecOn with
  | nil => rfl
  | append_singleton calls call ih =>
      have follows := follows_foldl calls follows_empty
      simp only [List.foldl_append, List.foldl_cons, List.foldl_nil]
      revert ih follows
      generalize calls.foldl BlockEncoder.after empty = encoder
      generalize calls.foldl Intake.after .empty = intake
      intro same follows
      cases call with
      | close => rw [same]; rfl
      | snapshot => exact same
      | add point =>
          cases accepted : intake.accepts point with
          | false =>
              obtain ⟨failure, refused⟩ := follows.add_refused accepted
              simp only [BlockEncoder.after, refused, Intake.after, accepted]
              exact same
          | true =>
              obtain ⟨next, added, onward⟩ := follows.add accepted
              have isOpen : intake.closed = false := by
                simp only [Intake.accepts, Bool.and_eq_true, Bool.not_eq_true'] at accepted
                exact accepted.1
              have offered : ofPoints (intake.points ++ [point]) = next := by
                have started : encoder = ofPoints intake.points := by
                  rw [same, isOpen, ← closed_ofPoints intake.points]
                rw [ofPoints, List.foldl_append, List.foldl_cons, List.foldl_nil]
                show (ofPoints intake.points).after (.add point) = next
                rw [← started, BlockEncoder.after, added]
              simp only [BlockEncoder.after, added, Intake.after, accepted, if_true, offered]
              rw [← onward.closed]

/-- At any moment the block of an encoder gives back, in order and bit for bit, the points that were
accepted by then, and its count and its ends are those of the points.  A point is refused exactly
when the intake does not accept it; a refused call leaves the encoder as it was, so the block is the
one that the accepted points alone would have given. -/
theorem toBlock_after_calls (calls : List Call) :
    let encoder := calls.foldl BlockEncoder.after empty
    let intake := calls.foldl Intake.after .empty
    encoder.toBlock.toPoints = .ok intake.points
      ∧ encoder.toBlock.count = intake.points.length
      ∧ (∀ first ∈ intake.points.head?, encoder.toBlock.first = first.timestamp)
      ∧ (∀ last ∈ intake.points.getLast?, encoder.toBlock.last = last.timestamp)
      ∧ (∀ point, intake.accepts point = false ↔ ∃ failure, encoder.add point = .error failure)
      ∧ (∀ point, intake.accepts point = false → encoder.after (.add point) = encoder)
      ∧ encoder.toBlock = (ofPoints intake.points).toBlock := by
  intro encoder intake
  have follows : encoder.Follows intake := follows_foldl calls follows_empty
  refine ⟨follows.holds.toPoints_toBlock, follows.holds.count, follows.holds.first,
    fun last ends => follows.holds.timestamp_link ends, fun point => ⟨follows.add_refused, ?_⟩,
    fun point refused => ?_, ?_⟩
  · rintro ⟨failure, refused⟩
    by_contra accepted
    obtain ⟨next, added, _⟩ := follows.add ((Bool.not_eq_false _).mp accepted)
    rw [added] at refused
    cases refused
  · obtain ⟨failure, refused⟩ := follows.add_refused refused
    simp only [BlockEncoder.after, refused]
  · show BlockEncoder.toBlock (calls.foldl BlockEncoder.after empty) = _
    rw [foldl_after_eq]
    rfl

end BlockEncoder

end TimeSeries
