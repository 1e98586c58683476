import TimeSeries.Cache.Status

/-!
# The exposition of a status

A status as lines of text for a monitoring system: for each quantity its type and its value, and for
what is held now also what the quantity means.
-/

set_option autoImplicit false

namespace TimeSeries

/-- The full name of an exposed quantity. -/
def quantityName (name : String) : String := "metricstore_" ++ name

/-- The lines of a quantity that can rise and fall. -/
def gaugeLines (name meaning : String) (value : Nat) : List String :=
  let full := quantityName name
  [s!"# HELP {full} {meaning}", s!"# TYPE {full} gauge", s!"{full} {value}"]

/-- The lines of a quantity that only rises. -/
def counterLines (name : String) (value : Nat) : List String :=
  let full := quantityName name ++ "_total"
  [s!"# TYPE {full} counter", s!"{full} {value}"]

/-- The exposition of a status, each line with its end. -/
def CacheStatus.exposition (status : CacheStatus) : String :=
  let lines :=
    gaugeLines "series" "Series held in the cache" status.series
      ++ gaugeLines "points" "Points held in the cache" status.points
      ++ gaugeLines "compressed_bytes" "Compressed bytes held" status.byteSize
      ++ status.counters.named.flatMap fun counter => counterLines counter.1 counter.2
  String.join (lines.map fun line => line ++ "\n")

end TimeSeries
