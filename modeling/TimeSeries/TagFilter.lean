import TimeSeries.Pattern.Reader
import TimeSeries.Query.Basic

/-!
# Tag filters

A tag filter names tag keys and a pattern for each.  It selects the series that have all these tags
with values that have the pattern as a whole, and it groups them by these tags.
-/

set_option autoImplicit false

namespace TimeSeries

/-- Tag keys with the patterns of their values, in the order of the keys. -/
structure TagFilter where
  patterns : List (String × Pattern)
  deriving DecidableEq, Repr, Inhabited

namespace TagFilter

/-- Reads patterns in the order of their keys; the first that is none is a fault. -/
def compile (patterns : SortedMap String String) : Except Failure TagFilter := do
  let read ← patterns.toList.mapM fun (key, text) =>
    match Pattern.ofWhole? text with
    | some pattern => .ok (key, pattern)
    | none => .error (.query (.tagPattern key))
  return ⟨read⟩

/-- The tags have a matching value for every key. -/
def accepts (filter : TagFilter) (tags : Tags) : Bool :=
  filter.patterns.all fun (key, pattern) =>
    match tags.get? key with
    | some value => pattern.isFoundIn value
    | none => false

/-- The tags whose keys the filter names. -/
def groupOf (filter : TagFilter) (tags : Tags) : Tags :=
  tags.filter fun key _ => filter.patterns.any fun pattern => pattern.1 == key

end TagFilter

/-- The filter for the tags of the selected series. -/
def Subquery.tagFilter (subquery : Subquery) : Except Failure TagFilter :=
  TagFilter.compile subquery.patterns

end TimeSeries
