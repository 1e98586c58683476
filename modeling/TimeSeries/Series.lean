import TimeSeries.Binary64
import TimeSeries.SortedMap
import TimeSeries.Timestamp

/-!
# Series and samples

A series is named by a metric, a set of tags and, if its points are not for everyone, a visibility
expression.  Tags are a map in key order, so the order in which they were given leaves no trace.
On the way in, the tag key `viz` is not a tag: its value is the visibility.

A sample is one point of a series: a timestamp and a value.
-/

set_option autoImplicit false

namespace TimeSeries

/-- Tag keys with their values. -/
abbrev Tags := SortedMap String String

/-- The tag key that stands for the visibility. -/
def visibilityTag : String := "viz"

/-- The name of a series. -/
structure Series where
  metric : String
  tags : Tags
  visibility : Option String
  deriving DecidableEq, Repr, Inhabited

/-- A value at a time. -/
structure Point where
  timestamp : Timestamp
  value : Binary64
  deriving DecidableEq, Repr, Inhabited

/-- A point of a series. -/
structure Sample where
  series : Series
  point : Point
  deriving DecidableEq, Repr, Inhabited

namespace Series

/-- The series of a metric without tags, for everyone. -/
def ofMetric (metric : String) : Series := ⟨metric, .empty, none⟩

/-- Adds a tag, in place of one with the same key; the key `viz` sets the visibility. -/
def withTag (series : Series) (key value : String) : Series :=
  if key = visibilityTag then
    { series with visibility := some value }
  else
    { series with tags := series.tags.insert key value }

/-- The series of a metric with tags given in any order. -/
def ofTags (metric : String) (tags : List (String × String)) : Series :=
  tags.foldl (fun series tag => series.withTag tag.1 tag.2) (ofMetric metric)

/-- The series in one line: the metric, the tags in key order and the visibility, separated by
commas. -/
def text (series : Series) : String :=
  let tags := series.tags.toList.map fun tag => "," ++ tag.1 ++ "=" ++ tag.2
  let visibility := match series.visibility with
    | some visibility => ",viz=" ++ visibility
    | none => ""
  series.metric ++ String.join tags ++ visibility

/-! ## The order of series

Series are ordered by metric, then by tags as a list of pairs, then by visibility; a series without
one comes first. -/

/-- What the order of series compares, in this order. -/
def rank (series : Series) : String × List (String × String) × List String :=
  (series.metric, series.tags.toList, series.visibility.toList)

theorem rank_injective {left right : Series} (same : left.rank = right.rank) : left = right := by
  obtain ⟨leftMetric, leftTags, leftVisibility⟩ := left
  obtain ⟨rightMetric, rightTags, rightVisibility⟩ := right
  simp only [rank, Prod.mk.injEq] at same
  obtain ⟨metric, tags, visibility⟩ := same
  have visibility : leftVisibility = rightVisibility := by
    cases leftVisibility <;> cases rightVisibility <;> simp_all
  rw [metric, SortedMap.ext_toList tags, visibility]

instance : Ord Series := ⟨compareOn rank⟩

instance : Std.TransOrd Series := transOrd_on rank

instance : Std.LawfulEqOrd Series := lawfulEqOrd_on rank rank_injective

end Series

end TimeSeries
