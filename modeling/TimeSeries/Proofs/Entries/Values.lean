import TimeSeries.Packed

/-!
# Values are read back

A single value is read back from its eight bytes, and a packed run is read back point by point, as
long as its timestamps strictly increase.  A packed run of anything but half a point is told apart
from a single value by its length.

Main statements: `Binary64.ofBytes_toBytes` and `unpackPoints_packPoints`.
-/

set_option autoImplicit false

namespace TimeSeries

/-! ## Single values -/

@[simp] theorem Binary64.length_toBytes (value : Binary64) : value.toBytes.length = 8 :=
  Bytes.length_ofWord value.bits

@[simp] theorem Binary64.ofBytes_toBytes (value : Binary64) :
    Binary64.ofBytes value.toBytes = .ok value := by
  have word : UInt64.ofNat (Bytes.toNatBE value.toBytes) = value.bits := by
    rw [Binary64.toBytes, Bytes.ofWord, Bytes.toNatBE_ofNatBE,
      Nat.mod_eq_of_lt (show value.bits.toNat < 256 ^ 8 from UInt64.toNat_lt _),
      UInt64.ofNat_toNat]
  rw [Binary64.ofBytes, if_pos value.length_toBytes, word]

/-- Eight bytes are a value. -/
theorem Binary64.ofBytes_of_length {bytes : Bytes} (eight : bytes.length = 8) :
    ∃ value, Binary64.ofBytes bytes = .ok value :=
  ⟨_, if_pos eight⟩

theorem isPacked_of_length {bytes : Bytes} (eight : bytes.length = 8) : isPacked bytes = false := by
  rw [isPacked, eight]
  rfl

@[simp] theorem isPacked_toBytes (value : Binary64) : isPacked value.toBytes = false :=
  isPacked_of_length value.length_toBytes

/-! ## Packed runs -/

/-- The timestamps of the points strictly increase. -/
def StrictlyAscending (points : List Point) : Prop :=
  points.Pairwise fun earlier later => earlier.timestamp < later.timestamp

theorem Point.length_toBytes (point : Point) : point.toBytes.length = 16 := by
  rw [Point.toBytes, List.length_append, Bytes.length_ofWord, Binary64.length_toBytes]

theorem length_packPoints (points : List Point) :
    (packPoints points).length = 16 * points.length := by
  induction points with
  | nil => rfl
  | cons point points ih =>
      rw [packPoints, List.flatMap_cons, List.length_append, ← packPoints, ih,
        Point.length_toBytes, List.length_cons]
      omega

theorem isPacked_packPoints (points : List Point) : isPacked (packPoints points) = true := by
  rw [isPacked, length_packPoints, bne_iff_ne]
  omega

theorem takePoint?_toBytes_append (point : Point) (rest : Bytes) :
    takePoint? (point.toBytes ++ rest) = some (point, rest) := by
  simp only [takePoint?, Point.toBytes, Binary64.toBytes, List.append_assoc,
    Bytes.takeWord?_ofWord_append, Option.bind_eq_bind, Option.bind_some,
    Int64.toInt64_toUInt64]
  rfl

namespace PackedReader

/-- A reader of a packed run stands in front of the given points. -/
structure Faces (reader : PackedReader) (points : List Point) : Prop where
  rest : reader.rest = packPoints points
  sound : reader.failed = false
  ahead : ∀ previous ∈ reader.previous, ∀ point ∈ points, previous < point.timestamp
  ascending : StrictlyAscending points

theorem faces_ofBytes {points : List Point} (ascending : StrictlyAscending points) :
    ∃ reader, ofBytes (packPoints points) = .ok reader ∧ reader.Faces points := by
  refine ⟨⟨packPoints points, none, false⟩, ?_, rfl, rfl, by simp, ascending⟩
  rw [ofBytes, if_pos]
  rw [length_packPoints]
  omega

theorem step_of_faces_nil {reader : PackedReader} (faces : reader.Faces []) :
    reader.step = .finished := by
  rw [step, if_neg (by simp [faces.sound]), faces.rest]
  rfl

/-- The points are read in turn. -/
theorem step_of_faces_cons {reader : PackedReader} {point : Point} {points : List Point}
    (faces : reader.Faces (point :: points)) :
    ∃ next, reader.step = .read point next ∧ next.Faces points := by
  have taken : takePoint? reader.rest = some (point, packPoints points) := by
    rw [faces.rest, packPoints, List.flatMap_cons]
    exact takePoint?_toBytes_append point _
  have ascending := List.pairwise_cons.mp faces.ascending
  refine ⟨⟨packPoints points, some point.timestamp, false⟩, ?_, rfl, rfl, ?_, ascending.2⟩
  · simp only [step, faces.sound, taken]
    cases held : reader.previous with
    | none => rfl
    | some previous =>
        have before := faces.ahead previous held point List.mem_cons_self
        simp only [if_neg (Int64.not_le.mpr before)]
        rfl
  · intro previous same later member
    cases same
    exact ascending.1 later member

theorem toPoints_of_faces {points : List Point} :
    ∀ {reader : PackedReader}, reader.Faces points → reader.toPoints = .ok points := by
  induction points with
  | nil =>
      intro reader faces
      have finished := step_of_faces_nil faces
      unfold toPoints
      split <;> rename_i stepped <;> rw [finished] at stepped <;> cases stepped
  | cons point points ih =>
      intro reader faces
      obtain ⟨next, read, onward⟩ := step_of_faces_cons faces
      unfold toPoints
      split <;> rename_i stepped <;> rw [read] at stepped <;> cases stepped
      rw [ih onward]
      rfl

end PackedReader

/-- A packed run is read back. -/
theorem unpackPoints_packPoints {points : List Point} (ascending : StrictlyAscending points) :
    unpackPoints (packPoints points) = .ok points := by
  obtain ⟨reader, opened, faces⟩ := PackedReader.faces_ofBytes ascending
  rw [unpackPoints, opened]
  exact PackedReader.toPoints_of_faces faces

end TimeSeries
