import TimeSeries.Proofs.Entries.Canonical
import TimeSeries.Proofs.Row.Order

/-!
# Rows stand for names and times

A row stands for a name and a timestamp, whatever the name is: both are read back from it, and no
other bytes are read as the same pair (`Row.decode_eq_ok_iff`).  Among names without zeros the order
of bytes is the order of these pairs, so the order of rows may be forgotten for it
(`Row.compare_ofPoint_eq`).

The bounds of the ranges of a metric are least keys of rows.  Which keys a range holds is therefore
told from their rows, whatever columns, visibilities and timestamps they have beside it.

Main statement: `Row.faithful`.
-/

set_option autoImplicit false

namespace TimeSeries

namespace Row

/-- Bytes are read as a name and a time exactly if they are the row of both. -/
theorem decode_eq_ok_iff {row : Bytes} {metric : String} {timestamp : Timestamp} :
    decode row = .ok (metric, timestamp) ↔ row = ofPoint metric timestamp := by
  constructor
  · exact eq_ofPoint_of_decode
  · rintro rfl
    exact decode_ofPoint metric timestamp

/-- Rows are ordered as the pairs of name and time are. -/
theorem compare_ofPoint_eq {metric other : String} (free : ZeroFree metric)
    (otherFree : ZeroFree other) (left right : Timestamp) :
    compare (ofPoint metric left) (ofPoint other right)
      = compare (Text.encode metric, left) (Text.encode other, right) := by
  rw [compare_ofPoint free otherFree, compare_pair]

end Row

namespace KeyRange

/-- The rows of a metric are those of all time. -/
theorem ofMetric_eq_between (metric : String) :
    ofMetric metric = between metric Timestamp.earliest Timestamp.latest := rfl

/-- The range of a metric holds the keys of that metric. -/
theorem contains_ofMetric {metric other : String} (free : Row.ZeroFree metric)
    (otherFree : Row.ZeroFree other) {key : Key} {timestamp : Timestamp}
    (named : key.row = Row.ofPoint other timestamp) :
    (ofMetric metric).contains key = true ↔ other = metric := by
  rw [ofMetric_eq_between, contains_between free otherFree named]
  exact and_iff_left ⟨timestamp.minValue_le, timestamp.le_maxValue⟩

end KeyRange

namespace Row

/-- The rows of two metrics are in the order of names and times, and the ranges of one metric tell
its keys from those of the other one. -/
structure Faithful (metric other : String) : Prop where
  /-- Byte by byte, rows are ordered by the bytes of the names and then by the times. -/
  order : ∀ left right : Timestamp, compare (ofPoint metric left) (ofPoint other right)
    = compare (Text.encode metric, left) (Text.encode other, right)
  /-- The range of a metric holds the keys with its rows and no others. -/
  ofMetric : ∀ (key : Key) (timestamp : Timestamp), key.row = ofPoint other timestamp →
    ((KeyRange.ofMetric metric).contains key = true ↔ other = metric)
  /-- The range of a metric and a span holds those with times within the span. -/
  between : ∀ (key : Key) (timestamp : Timestamp), key.row = ofPoint other timestamp →
    ∀ first last : Timestamp, (KeyRange.between metric first last).contains key = true
      ↔ other = metric ∧ first ≤ timestamp ∧ timestamp ≤ last

/-- **Rows embed names and times**: names and times are read back from rows, and nothing else is
read as them; rows of names without zeros are in the order of names and times, and the ranges of
such names are exact. -/
theorem faithful {metric other : String} (free : ZeroFree metric) (otherFree : ZeroFree other) :
    (∀ (row : Bytes) (name : String) (timestamp : Timestamp),
        decode row = .ok (name, timestamp) ↔ row = ofPoint name timestamp)
      ∧ Faithful metric other :=
  ⟨fun _ _ _ => decode_eq_ok_iff, compare_ofPoint_eq free otherFree,
    fun _ _ named => KeyRange.contains_ofMetric free otherFree named,
    fun _ _ named => KeyRange.contains_between free otherFree named⟩

/-- One name begins with the other. -/
theorem faithful_of_beginning : ZeroFree "load" ∧ ZeroFree "load.cpu"
    ∧ (∀ (row : Bytes) (name : String) (timestamp : Timestamp),
        decode row = .ok (name, timestamp) ↔ row = ofPoint name timestamp)
    ∧ Faithful "load" "load.cpu" := by
  have short : ZeroFree "load" := by rw [ZeroFree]; decide
  have long : ZeroFree "load.cpu" := by rw [ZeroFree]; decide
  exact ⟨short, long, faithful short long⟩

end Row

end TimeSeries
