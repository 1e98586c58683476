import TimeSeries.Proofs.Entries.Canonical
import TimeSeries.Proofs.Readers.Yields

/-!
# Packed runs

Bytes of the length of some points are those of just one list of points (`packPoints_pointsIn`,
`pointsIn_packPoints`).  They are a packed run if these points strictly ascend.

A reader does not know beforehand whether they do.  It yields them up to the first one that is not
behind its predecessor, reports that one, and yields nothing more.  What it yields as points is the
longest beginning that ascends (`LongestAscending`).

Main statement: `PackedReader.format`.
-/

set_option autoImplicit false

namespace TimeSeries

/-! ## The points in some bytes -/

/-- The points in some bytes, one behind the other. -/
def pointsIn (bytes : Bytes) : List Point :=
  match _taken : takePoint? bytes with
  | some (point, rest) => point :: pointsIn rest
  | none => []
termination_by bytes.length
decreasing_by
  have := PackedReader.length_of_takePoint? _taken
  omega

theorem pointsIn_of_taken {bytes rest : Bytes} {point : Point}
    (taken : takePoint? bytes = some (point, rest)) : pointsIn bytes = point :: pointsIn rest := by
  rw [pointsIn.eq_def]
  split
  case _ found => rw [taken] at found; cases found; rfl
  case _ nothing => rw [taken] at nothing; cases nothing

theorem pointsIn_of_spent {bytes : Bytes} (nothing : takePoint? bytes = none) :
    pointsIn bytes = [] := by
  rw [pointsIn.eq_def]
  split
  case _ found => rw [nothing] at found; cases found
  case _ => rfl

theorem exists_takePoint? {bytes : Bytes} (room : 16 ≤ bytes.length) :
    ∃ point rest, takePoint? bytes = some (point, rest) := by
  have half : 8 ≤ (bytes.drop 8).length := by
    rw [List.length_drop]
    omega
  simp only [takePoint?, Bytes.takeWord?, if_pos (Nat.le_trans (by decide : 8 ≤ 16) room),
    if_pos half, Option.bind_eq_bind, Option.bind_some]
  exact ⟨_, _, rfl⟩

/-- Of bytes of the length of some points there are points unless there are no bytes. -/
theorem pointsIn_eq_nil_iff {bytes : Bytes} (whole : bytes.length % 16 = 0) :
    pointsIn bytes = [] ↔ bytes = [] := by
  constructor
  · intro nothing
    refine List.length_eq_zero_iff.mp (Nat.eq_zero_of_not_pos fun some_bytes => ?_)
    obtain ⟨point, rest, taken⟩ := exists_takePoint? (show 16 ≤ bytes.length by omega)
    rw [pointsIn_of_taken taken] at nothing
    cases nothing
  · rintro rfl
    exact pointsIn_of_spent rfl

/-! ## Bytes and points -/

theorem Bytes.eq_append_of_takeWord? {bytes rest : Bytes} {word : UInt64}
    (taken : takeWord? bytes = some (word, rest)) : bytes = ofWord word ++ rest := by
  rw [takeWord?] at taken
  split at taken
  case isTrue eight =>
    cases taken
    rw [ofWord_toNatBE (List.length_take_of_le eight), List.take_append_drop]
  case isFalse => cases taken

/-- Bytes that begin with a point begin with the bytes of that point. -/
theorem eq_append_of_takePoint? {bytes rest : Bytes} {point : Point}
    (taken : takePoint? bytes = some (point, rest)) : bytes = point.toBytes ++ rest := by
  obtain ⟨⟨time, behind⟩, timeTaken, taken⟩ := Option.bind_eq_some_iff.mp taken
  obtain ⟨⟨value, last⟩, valueTaken, taken⟩ := Option.bind_eq_some_iff.mp taken
  cases taken
  rw [Bytes.eq_append_of_takeWord? timeTaken, Bytes.eq_append_of_takeWord? valueTaken,
    Point.toBytes, Binary64.toBytes, UInt64.toUInt64_toInt64, List.append_assoc]

theorem packPoints_cons (point : Point) (points : List Point) :
    packPoints (point :: points) = point.toBytes ++ packPoints points := List.flatMap_cons

/-- Bytes of the length of some points are the bytes of the points in them. -/
theorem packPoints_pointsIn {bytes : Bytes} (whole : bytes.length % 16 = 0) :
    packPoints (pointsIn bytes) = bytes := by
  fun_induction pointsIn bytes with
  | case1 bytes point rest taken ih =>
      have length := PackedReader.length_of_takePoint? taken
      rw [packPoints_cons, ih (by omega), ← eq_append_of_takePoint? taken]
  | case2 bytes nothing =>
      have none_left : bytes = [] := (pointsIn_eq_nil_iff whole).mp (pointsIn_of_spent nothing)
      rw [none_left]
      rfl

/-- The points in a packed run are the points that were packed. -/
theorem pointsIn_packPoints (points : List Point) : pointsIn (packPoints points) = points := by
  induction points with
  | nil => exact pointsIn_of_spent rfl
  | cons point points ih =>
      rw [packPoints_cons, pointsIn_of_taken (takePoint?_toBytes_append point _), ih]

theorem length_packPoints_mod (points : List Point) : (packPoints points).length % 16 = 0 := by
  rw [length_packPoints]
  exact Nat.mul_mod_right 16 points.length

/-! ## Points in order -/

/-- Points that are read in turn, up to the first that is not behind its predecessor. -/
def inOrder (previous : Option Timestamp) : List Point → List (Except Failure Point)
  | [] => []
  | point :: rest =>
      match previous with
      | none => .ok point :: inOrder (some point.timestamp) rest
      | some last =>
          if point.timestamp ≤ last then
            [.error (.malformed (.packedOrder point.timestamp last))]
          else
            .ok point :: inOrder (some point.timestamp) rest

/-- Points are read in turn to the last of them exactly if each is behind the one before it. -/
theorem inOrder_iff (previous : Option Timestamp) (points : List Point) :
    (∀ outcome ∈ inOrder previous points, ∃ point, outcome = .ok point)
      ↔ (∀ last ∈ previous, ∀ point ∈ points, last < point.timestamp)
        ∧ StrictlyAscending points := by
  induction points generalizing previous with
  | nil => simp [inOrder, StrictlyAscending]
  | cons point points ih =>
      have onward : (∀ outcome ∈ .ok point :: inOrder (some point.timestamp) points,
            ∃ point, outcome = Except.ok point)
          ↔ StrictlyAscending (point :: points) := by
        rw [List.forall_mem_cons, ih, StrictlyAscending, StrictlyAscending, List.pairwise_cons]
        simp
      cases previous with
      | none =>
          rw [inOrder, onward]
          simp
      | some last =>
          rw [inOrder]
          split
          case isTrue early =>
            refine iff_of_false (fun fine => ?_) fun ahead => ?_
            · obtain ⟨_, same⟩ := fine _ List.mem_cons_self
              cases same
            · exact Int64.not_lt.mpr early (ahead.1 last rfl point List.mem_cons_self)
          case isFalse late =>
            rw [onward]
            refine ⟨fun ascending => ⟨fun other same later member => ?_, ascending⟩, And.right⟩
            cases same
            have before := Int64.not_le.mp late
            rcases List.mem_cons.mp member with rfl | behind
            · exact before
            · exact Int64.lt_trans before ((List.pairwise_cons.mp ascending).1 later behind)

/-- The longest beginning of some points that strictly ascends. -/
structure LongestAscending (valid points : List Point) : Prop where
  isPrefix : valid <+: points
  ascending : StrictlyAscending valid
  longest : ∀ other, other <+: points → StrictlyAscending other → other <+: valid

/-- What is reported of the points behind the longest beginning that ascends: the first of them is
not behind its predecessor.  If there are none, nothing is reported. -/
def complaint (valid behind : List Point) : List (Except Failure Point) :=
  match valid.getLast?, behind with
  | some last, point :: _ =>
      [.error (.malformed (.packedOrder point.timestamp last.timestamp))]
  | _, _ => []

theorem complaint_nil (valid : List Point) : complaint valid [] = [] := by
  unfold complaint
  cases valid.getLast? <;> rfl

/-- A beginning that ascends is the longest one if the point behind it is not behind its last. -/
theorem longestAscending_append {valid behind : List Point} (ascending : StrictlyAscending valid)
    (ends : ∀ point ∈ behind.head?, ∃ last ∈ valid.getLast?, point.timestamp ≤ last.timestamp) :
    LongestAscending valid (valid ++ behind) where
  isPrefix := List.prefix_append valid behind
  ascending := ascending
  longest := by
    intro other beginning ascends
    rcases List.prefix_or_prefix_of_prefix beginning (List.prefix_append valid behind) with
      shorter | ⟨more, rfl⟩
    · exact shorter
    cases more with
    | nil => simp
    | cons point more =>
        obtain ⟨later, rfl⟩ := (List.prefix_append_right_inj valid).mp beginning
        obtain ⟨last, isLast, early⟩ := ends point rfl
        have before := (List.pairwise_append.mp ascends).2.2 last (List.mem_of_getLast? isLast)
          point List.mem_cons_self
        exact absurd early (Int64.not_le.mpr before)

namespace LongestAscending

variable {valid behind : List Point}

/-- All points ascend exactly if there are none behind the longest beginning that does. -/
theorem ascending_iff (longest : LongestAscending valid (valid ++ behind)) :
    StrictlyAscending (valid ++ behind) ↔ behind = [] := by
  constructor
  · intro ascending
    have whole := (longest.longest _ List.prefix_rfl ascending).length_le
    rw [List.length_append] at whole
    exact List.length_eq_zero_iff.mp (by omega)
  · rintro rfl
    rw [List.append_nil]
    exact longest.ascending

/-- If there are points behind it, the first of these is reported. -/
theorem complaint_cons {point : Point}
    (longest : LongestAscending valid (valid ++ point :: behind)) :
    ∃ last ∈ valid.getLast?, complaint valid (point :: behind)
      = [.error (.malformed (.packedOrder point.timestamp last.timestamp))] := by
  cases ends : valid.getLast? with
  | some last =>
      exact ⟨last, rfl, by simp only [complaint, ends]⟩
  | none =>
      rw [List.getLast?_eq_none_iff.mp ends] at longest
      have alone := longest.longest [point] (List.prefix_append [point] behind)
        (List.pairwise_singleton _ _)
      cases List.prefix_nil.mp alone

end LongestAscending

/-- Behind a point, points are read as long as they ascend from it. -/
theorem exists_inOrder (first : Point) (points : List Point) :
    ∃ valid behind, points = valid ++ behind ∧ StrictlyAscending (first :: valid)
      ∧ (∀ point ∈ behind.head?, ∃ last ∈ (first :: valid).getLast?,
          point.timestamp ≤ last.timestamp)
      ∧ inOrder (some first.timestamp) points
        = valid.map .ok ++ complaint (first :: valid) behind := by
  induction points generalizing first with
  | nil => exact ⟨[], [], rfl, List.pairwise_singleton _ _, by simp, rfl⟩
  | cons point points ih =>
      rw [inOrder]
      split
      case isTrue early =>
        exact ⟨[], point :: points, rfl, List.pairwise_singleton _ _, by simpa using early, rfl⟩
      case isFalse late =>
        obtain ⟨valid, behind, rfl, ascending, ends, read⟩ := ih point
        refine ⟨point :: valid, behind, rfl, ?_, ?_, ?_⟩
        · have before : first.timestamp < point.timestamp := Int64.not_le.mp late
          refine List.pairwise_cons.mpr ⟨List.forall_mem_cons.mpr ⟨before, ?_⟩, ascending⟩
          exact fun other later =>
            Int64.lt_trans before ((List.pairwise_cons.mp ascending).1 other later)
        · rwa [List.getLast?_cons_cons]
        · rw [read]
          simp only [complaint, List.getLast?_cons_cons, List.map_cons, List.cons_append]

/-- Points are read up to the end of the longest beginning that ascends. -/
theorem exists_longestAscending (points : List Point) :
    ∃ valid behind, points = valid ++ behind ∧ LongestAscending valid points
      ∧ inOrder none points = valid.map .ok ++ complaint valid behind := by
  cases points with
  | nil => exact ⟨[], [], rfl, longestAscending_append List.Pairwise.nil (by simp), rfl⟩
  | cons first points =>
      obtain ⟨valid, behind, rfl, ascending, ends, read⟩ := exists_inOrder first points
      refine ⟨first :: valid, behind, rfl, longestAscending_append ascending ends, ?_⟩
      simp only [inOrder, read, List.map_cons, List.cons_append]

/-! ## Reading runs -/

namespace PackedReader

/-- What reading one point yields, and the reader for the next call. -/
def call (reader : PackedReader) : Option (Except Failure Point) × PackedReader :=
  match reader.step with
  | .finished => (none, reader)
  | .read point next => (some (.ok point), next)
  | .broken cause next => (some (.error (.malformed cause)), next)

theorem collects : Collects call toPoints := by
  intro reader
  rw [toPoints]
  split <;> rename_i stepped <;> rw [call, stepped]

theorem call_of_failed {reader : PackedReader} (failed : reader.failed = true) :
    reader.call = (none, reader) := by
  rw [call, step, if_pos failed]

/-- The points in the bytes are yielded in turn, up to the first that is not behind its
predecessor. -/
theorem yields_inOrder (bytes : Bytes) (previous : Option Timestamp) :
    Yields call ⟨bytes, previous, false⟩ (inOrder previous (pointsIn bytes)) := by
  fun_induction pointsIn bytes generalizing previous with
  | case1 bytes point rest taken ih =>
      have onward : Yields call ⟨rest, some point.timestamp, false⟩ _ := ih (some point.timestamp)
      cases previous with
      | none =>
          refine Yields.cons ?_ onward
          rw [call, step, if_neg Bool.false_ne_true]
          simp only [taken]
      | some last =>
          rw [inOrder]
          split
          case isTrue early =>
            have spent : Yields call ⟨rest, some last, true⟩ [] := yields_nil (call_of_failed rfl)
            refine Yields.cons ?_ spent
            rw [call, step, if_neg Bool.false_ne_true]
            simp only [taken, if_pos early]
          case isFalse late =>
            refine Yields.cons ?_ onward
            rw [call, step, if_neg Bool.false_ne_true]
            simp only [taken, if_neg late]
  | case2 bytes nothing =>
      refine yields_nil ?_
      rw [call, step, if_neg Bool.false_ne_true]
      simp only [nothing]

/-- A reader at the start of the bytes yields the longest beginning of the points in them that
ascends, and then what is to be said of the others. -/
theorem exists_yields (bytes : Bytes) :
    ∃ valid behind, pointsIn bytes = valid ++ behind
      ∧ LongestAscending valid (valid ++ behind)
      ∧ Yields call ⟨bytes, none, false⟩ (valid.map .ok ++ complaint valid behind) := by
  obtain ⟨valid, behind, same, longest, read⟩ := exists_longestAscending (pointsIn bytes)
  rw [same] at longest
  exact ⟨valid, behind, same, longest, read ▸ yields_inOrder bytes none⟩

/-- The points in bytes that are read from the start are had as a whole exactly if they ascend. -/
theorem toPoints_outcome (bytes : Bytes) :
    match toPoints ⟨bytes, none, false⟩ with
    | .ok points => points = pointsIn bytes ∧ StrictlyAscending points
    | .error _ => ¬ StrictlyAscending (pointsIn bytes) := by
  obtain ⟨valid, behind, same, longest, yields⟩ := exists_yields bytes
  rw [same, longest.ascending_iff]
  cases behind with
  | nil =>
      rw [complaint_nil, List.append_nil] at yields
      rw [collects.of_yields_points yields]
      exact ⟨(List.append_nil valid).symm, longest.ascending⟩
  | cons point behind =>
      obtain ⟨last, _, complaint⟩ := longest.complaint_cons
      rw [complaint] at yields
      rw [collects.of_yields_failure yields]
      exact List.cons_ne_nil point behind

end PackedReader

/-! ## The format -/

/-- What is unpacked of bytes are the points in them, and these can be had exactly if the bytes have
the length of some points and the points strictly ascend. -/
theorem unpackPoints_outcome (bytes : Bytes) :
    match unpackPoints bytes with
    | .ok points => bytes.length % 16 = 0 ∧ StrictlyAscending (pointsIn bytes)
        ∧ points = pointsIn bytes
    | .error _ => ¬ (bytes.length % 16 = 0 ∧ StrictlyAscending (pointsIn bytes)) := by
  by_cases whole : bytes.length % 16 = 0
  · have opened : PackedReader.ofBytes bytes = .ok ⟨bytes, none, false⟩ := if_pos whole
    have unpacked : unpackPoints bytes = PackedReader.toPoints ⟨bytes, none, false⟩ := by
      rw [unpackPoints, opened]
      rfl
    have read := PackedReader.toPoints_outcome bytes
    rw [unpacked]
    cases found : PackedReader.toPoints ⟨bytes, none, false⟩ with
    | ok points =>
        rw [found] at read
        obtain ⟨rfl, ascending⟩ := read
        exact ⟨whole, ascending, rfl⟩
    | error failure =>
        rw [found] at read
        exact fun both => read both.2
  · have refused : unpackPoints bytes
        = .error (.malformed (.packedLength bytes.length)) := by
      rw [unpackPoints, PackedReader.ofBytes, if_neg whole]
      rfl
    rw [refused]
    exact fun both => whole both.1

/-- **The packed format.**  Packed points are read back exactly if they strictly ascend.  Bytes are
a packed run exactly if they have the length of some points and the points in them strictly ascend,
and then they are what these points are packed to.  Call by call, a reader yields the longest
beginning of the points that ascends, at most one failure behind it, and nothing after that. -/
theorem PackedReader.format (points : List Point) (bytes : Bytes) :
    (match unpackPoints (packPoints points) with
      | .ok read => StrictlyAscending points ∧ read = points
      | .error _ => ¬ StrictlyAscending points)
    ∧ (match unpackPoints bytes with
      | .ok read => bytes.length % 16 = 0 ∧ StrictlyAscending (pointsIn bytes)
          ∧ packPoints read = bytes
      | .error _ => ¬ (bytes.length % 16 = 0 ∧ StrictlyAscending (pointsIn bytes)))
    ∧ (match PackedReader.ofBytes bytes with
      | .ok reader => bytes.length % 16 = 0 ∧ ∃ valid behind, packPoints (valid ++ behind) = bytes
          ∧ LongestAscending valid (valid ++ behind)
          ∧ Yields PackedReader.call reader (valid.map .ok ++ complaint valid behind)
      | .error _ => bytes.length % 16 ≠ 0) := by
  refine ⟨?_, ?_, ?_⟩
  · have packed := unpackPoints_outcome (packPoints points)
    rw [pointsIn_packPoints] at packed
    revert packed
    cases unpackPoints (packPoints points) with
    | ok read => exact fun packed => packed.2
    | error failure =>
        intro refused ascending
        exact refused ⟨length_packPoints_mod points, ascending⟩
  · have read := unpackPoints_outcome bytes
    revert read
    cases unpackPoints bytes with
    | ok read =>
        rintro ⟨whole, ascending, rfl⟩
        exact ⟨whole, ascending, packPoints_pointsIn whole⟩
    | error failure => exact id
  · obtain ⟨valid, behind, same, longest, yields⟩ := PackedReader.exists_yields bytes
    rw [PackedReader.ofBytes]
    by_cases whole : bytes.length % 16 = 0
    · rw [if_pos whole]
      exact ⟨whole, valid, behind, same ▸ packPoints_pointsIn whole, longest, yields⟩
    · rw [if_neg whole]
      exact whole

end TimeSeries
