import TimeSeries.Row
import TimeSeries.Proofs.Entries.Values

/-!
# What is read was written

There is one way to write a row, a value and a packed run: bytes that can be read are the bytes of
what is read.  The points of a packed run that can be read to its end strictly ascend.

Main statements: `Row.eq_ofPoint_of_decode`, `Binary64.toBytes_of_ofBytes` and
`strictlyAscending_of_unpackPoints`.
-/

set_option autoImplicit false

namespace TimeSeries

/-- Eight bytes are those of their word. -/
theorem Bytes.ofWord_toNatBE {bytes : Bytes} (eight : bytes.length = 8) :
    ofWord (UInt64.ofNat (toNatBE bytes)) = bytes := by
  have fits : toNatBE bytes < 2 ^ 64 := by
    have below := toNatBE_lt bytes
    rwa [eight] at below
  rw [ofWord, UInt64.toNat_ofNat_of_lt' fits, ← eight, ofNatBE_toNatBE]

theorem Text.encode_of_decode {bytes : Bytes} {text : String} (read : decode bytes = .ok text) :
    encode text = bytes := by
  unfold decode String.fromUTF8? at read
  split at read
  case h_1 _ found =>
    split at found
    · cases found
      cases read
      rfl
    · cases found
  case h_2 => cases read

/-! ## Rows -/

namespace Row

theorem eq_append_of_split? {row name time : Bytes} {boundary : UInt8}
    (parts : split? row = some (name, boundary, time)) :
    row = name ++ boundary :: time ∧ time.length = 8 := by
  unfold split? at parts
  split at parts
  case h_1 _ _ back =>
    split at parts
    case isTrue long =>
      cases parts
      have length := congrArg List.length back
      rw [List.length_drop, List.length_cons] at length
      exact ⟨by rw [← back, List.take_append_drop], by omega⟩
    case isFalse => cases parts
  case h_2 => cases parts

/-- A row that can be read is the row of what is read. -/
theorem eq_ofPoint_of_decode {row : Bytes} {metric : String} {timestamp : Timestamp}
    (read : decode row = .ok (metric, timestamp)) : row = ofPoint metric timestamp := by
  unfold decode at read
  split at read
  case h_1 => cases read
  case h_2 _ name boundary time parts =>
    obtain ⟨joined, eight⟩ := eq_append_of_split? parts
    split at read
    case isTrue => cases read
    case isFalse zero =>
      split at read
      case h_1 => cases read
      case h_2 _ _ text =>
        cases read
        rw [joined, ofPoint, Text.encode_of_decode text, timeWord_ofTimeWord,
          Bytes.ofWord_toNatBE eight, Decidable.not_not.mp zero]

/-- A row that names a metric is one of its rows. -/
theorem exists_ofPoint_of_metric {row : Bytes} {metric : String}
    (named : Row.metric row = .ok metric) : ∃ timestamp, row = ofPoint metric timestamp := by
  rw [Row.metric] at named
  cases decoded : decode row with
  | error failure => rw [decoded] at named; cases named
  | ok found =>
      rw [decoded] at named
      cases named
      exact ⟨found.2, eq_ofPoint_of_decode decoded⟩

end Row

/-! ## Values -/

theorem Binary64.toBytes_of_ofBytes {bytes : Bytes} {value : Binary64}
    (read : ofBytes bytes = .ok value) : value.toBytes = bytes := by
  rw [ofBytes] at read
  split at read
  case isTrue eight =>
    cases read
    exact Bytes.ofWord_toNatBE eight
  case isFalse => cases read

namespace PackedReader

theorem step_of_toPoints_nil {reader : PackedReader} (read : reader.toPoints = .ok []) :
    reader.step = .finished := by
  unfold toPoints at read
  split at read
  case _ stepped => exact stepped
  case _ => cases read
  case _ point next _ => cases all : next.toPoints <;> rw [all] at read <;> cases read

theorem step_of_toPoints_cons {reader : PackedReader} {point : Point} {points : List Point}
    (read : reader.toPoints = .ok (point :: points)) :
    ∃ next, reader.step = .read point next ∧ next.toPoints = .ok points := by
  unfold toPoints at read
  split at read
  case _ => cases read
  case _ => cases read
  case _ next stepped =>
    cases all : next.toPoints with
    | error failure => rw [all] at read; cases read
    | ok others =>
        rw [all] at read
        cases read
        exact ⟨next, stepped, all⟩

/-- A point that is read is behind the one before it. -/
theorem previous_of_step_read {reader next : PackedReader} {point : Point}
    (stepped : reader.step = .read point next) :
    next.previous = some point.timestamp
      ∧ ∀ previous, reader.previous = some previous → previous < point.timestamp := by
  unfold step at stepped
  split at stepped
  · cases stepped
  split at stepped
  · cases stepped
  split at stepped
  case _ first =>
    cases stepped
    exact ⟨rfl, fun previous held => by rw [first] at held; cases held⟩
  case _ previous held =>
    split at stepped
    · cases stepped
    case isFalse ahead =>
      cases stepped
      refine ⟨rfl, fun other same => ?_⟩
      rw [held] at same
      cases same
      exact Int64.not_le.mp ahead

/-- The points that are read to the end strictly ascend, behind the one before them. -/
theorem ascending_of_toPoints {points : List Point} {reader : PackedReader}
    (read : reader.toPoints = .ok points) :
    (∀ previous, reader.previous = some previous → ∀ point ∈ points, previous < point.timestamp)
      ∧ StrictlyAscending points := by
  induction points generalizing reader with
  | nil => exact ⟨fun _ _ _ member => absurd member List.not_mem_nil, List.Pairwise.nil⟩
  | cons point points ih =>
      obtain ⟨next, stepped, onward⟩ := step_of_toPoints_cons read
      obtain ⟨last, ahead⟩ := previous_of_step_read stepped
      obtain ⟨behind, ascending⟩ := ih onward
      refine ⟨fun previous held => List.forall_mem_cons.mpr ⟨ahead previous held, ?_⟩,
        List.pairwise_cons.mpr ⟨behind _ last, ascending⟩⟩
      exact fun other member => Int64.lt_trans (ahead previous held) (behind _ last other member)

end PackedReader

theorem strictlyAscending_of_unpackPoints {bytes : Bytes} {points : List Point}
    (read : unpackPoints bytes = .ok points) : StrictlyAscending points := by
  unfold unpackPoints at read
  cases opened : PackedReader.ofBytes bytes with
  | error failure => rw [opened] at read; cases read
  | ok reader =>
      rw [opened] at read
      exact (PackedReader.ascending_of_toPoints read).2

end TimeSeries
