import TimeSeries.Cache.Answer
import TimeSeries.Cache.Status
import TimeSeries.Json.Encode

/-!
# What a cache has to tell, as documents

The documents of a status and of the answer to a query.
-/

set_option autoImplicit false

namespace TimeSeries

/-- The document of counters. -/
def CacheCounters.toJson (counters : CacheCounters) : Json :=
  .record (counters.named.map fun (name, count) => (name, .ofCount count))

/-- The document of a status. -/
def CacheStatus.toJson (status : CacheStatus) : Json :=
  .record [("series", .ofCount status.series),
    ("metrics", .ofList .string status.metrics),
    ("uncached_metrics", .ofList .string status.uncachedMetrics),
    ("points", .ofCount status.points),
    ("archived_blocks", .ofCount status.archivedBlocks),
    ("size_bytes", .ofCount status.byteSize),
    ("oldest_timestamp", .ofOption .ofTimestamp status.oldest),
    ("newest_timestamp", .ofOption .ofTimestamp status.newest),
    ("stats", status.counters.toJson)]

/-- The document of an answer; it names omissions only if there are any. -/
def Answer.toJson (answer : Answer) : Json :=
  let groups := answer.groups.map fun group =>
    .record [("metric", .string group.metric),
      ("tags", .ofMap id .string group.tags),
      ("dps", .ofMap Timestamp.text .ofValue group.points)]
  let omissions := answer.omissions.map fun omission => .string omission.message
  .record (("series", .array groups true) ::
    if omissions.isEmpty then [] else [("errors", .array omissions true)])

end TimeSeries
