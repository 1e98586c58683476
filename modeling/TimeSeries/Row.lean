import TimeSeries.Binary64
import TimeSeries.Failure

/-!
# Rows

A row names a metric and a time.  It is the metric in UTF-8, a zero byte and the timestamp in eight
bytes, most significant first, with the sign bit flipped.  Flipping the sign bit makes the order of
the bytes the order of the timestamps, so the rows of one metric sort by time.

Main statement: `decode_ofPoint` says that metric and timestamp are read back from a row, whatever
the metric.
-/

set_option autoImplicit false

namespace TimeSeries

namespace Row

/-- The byte between the metric and the timestamp. -/
def separator : UInt8 := 0

/-- The word whose unsigned order is the order of timestamps. -/
def timeWord (timestamp : Timestamp) : UInt64 :=
  timestamp.toUInt64 ^^^ Binary64.signBit

/-- The timestamp of such a word. -/
def ofTimeWord (word : UInt64) : Timestamp :=
  (word ^^^ Binary64.signBit).toInt64

/-- The row of a metric at a time. -/
def ofPoint (metric : String) (timestamp : Timestamp) : Bytes :=
  Text.encode metric ++ separator :: Bytes.ofWord (timeWord timestamp)

/-- The first row of a metric. -/
def first (metric : String) : Bytes :=
  ofPoint metric Timestamp.earliest

/-- A row behind every row of a metric and before those of any longer name without a zero. -/
def behind (metric : String) : Bytes :=
  Text.encode metric ++ [separator + 1]

/-- The bytes of the metric, the byte after it and the bytes of the timestamp. -/
def split? (row : Bytes) : Option (Bytes × UInt8 × Bytes) :=
  match row.drop (row.length - 9) with
  | boundary :: time =>
      if 9 ≤ row.length then some (row.take (row.length - 9), boundary, time) else none
  | [] => none

/-- The metric and the timestamp of a row. -/
def decode (row : Bytes) : Except Failure (String × Timestamp) :=
  match split? row with
  | none => .error (.malformed (.rowTooShort row.length))
  | some (metric, boundary, time) =>
      if boundary ≠ separator then
        .error (.malformed .rowWithoutSeparator)
      else
        match Text.decode metric with
        | .error defect => .error (.malformed (.metricNotText defect))
        | .ok name => .ok (name, ofTimeWord (UInt64.ofNat (Bytes.toNatBE time)))

/-- The metric of a row. -/
def metric (row : Bytes) : Except Failure String :=
  (decode row).map Prod.fst

/-- The timestamp of a row. -/
def timestamp (row : Bytes) : Except Failure Timestamp :=
  (decode row).map Prod.snd

/-! ## Laws -/

@[simp] theorem ofTimeWord_timeWord (timestamp : Timestamp) :
    ofTimeWord (timeWord timestamp) = timestamp := by
  simp only [ofTimeWord, timeWord, UInt64.xor_assoc, UInt64.xor_self, UInt64.xor_zero]
  exact Int64.toInt64_toUInt64 timestamp

@[simp] theorem timeWord_ofTimeWord (word : UInt64) : timeWord (ofTimeWord word) = word := by
  simp only [ofTimeWord, timeWord, UInt64.toUInt64_toInt64, UInt64.xor_assoc, UInt64.xor_self,
    UInt64.xor_zero]

theorem split?_append (name : Bytes) (boundary : UInt8) (time : Bytes) (whole : time.length = 8) :
    split? (name ++ boundary :: time) = some (name, boundary, time) := by
  have length : (name ++ boundary :: time).length = name.length + 9 := by simp [whole]
  have front : (name ++ boundary :: time).take name.length = name := by simp
  have back : (name ++ boundary :: time).drop name.length = boundary :: time := by simp
  simp only [split?, length, Nat.add_sub_cancel, front, back, Nat.le_add_left, if_true]

/-- Metric and timestamp are read back from a row. -/
theorem decode_ofPoint (metric : String) (timestamp : Timestamp) :
    decode (ofPoint metric timestamp) = .ok (metric, timestamp) := by
  have word : UInt64.ofNat (Bytes.toNatBE (Bytes.ofWord (timeWord timestamp)))
      = timeWord timestamp := by
    rw [Bytes.ofWord, Bytes.toNatBE_ofNatBE,
      Nat.mod_eq_of_lt (show (timeWord timestamp).toNat < 256 ^ 8 from UInt64.toNat_lt _),
      UInt64.ofNat_toNat]
  rw [decode, ofPoint, split?_append _ _ _ (Bytes.length_ofWord _)]
  simp only [ne_eq, not_true_eq_false, if_false, Text.decode_encode, word, ofTimeWord_timeWord]

end Row

end TimeSeries
