import TimeSeries.Json.Decode
import TimeSeries.Query.Basic

/-!
# Queries as documents

The fields of a query document and their defaults.  A span and a list of subqueries are mandatory
in a query, and the metric in a subquery; the list goes by the names `subqueries` and `queries`.
-/

set_option autoImplicit false

namespace TimeSeries

open Json (Decoded Fields)

/-- An aggregator by its name. -/
def Aggregator.ofJson (json : Json) : Decoded Aggregator := do
  let name ← json.toText
  match ofName? name with
  | some aggregator => return aggregator
  | none => throw .shape

namespace RateOptions

/-- The fields of the options of a rate. -/
def fields : Fields RateOptions where
  names := [["counter"], ["counter_max"], ["reset_value"], ["interval_millis"]]
  take name json options :=
    match name with
    | "counter" => return { options with counter := ← json.toBool }
    | "counter_max" => return { options with counterMax := ← json.toValue }
    | "reset_value" => return { options with resetValue := ← json.toValue }
    | _ => return { options with interval := ← json.toTimestamp }

/-- The options of a rate; what is missing is standard. -/
def ofJson : Json → Decoded RateOptions := fields.decode .standard

end RateOptions

namespace Subquery

/-- The fields of a subquery, with the metric apart as long as it may be missing. -/
def fields : Fields (Option String × Subquery) where
  names := [["metric"], ["tags"], ["downsample"], ["rate"], ["rate_options"], ["aggregator"]]
  take name json read := do
    let (metric, subquery) := read
    match name with
    | "metric" => return (some (← json.toText), subquery)
    | "tags" => return (metric, { subquery with patterns := ← json.toMap Json.toText })
    | "downsample" =>
        return (metric, { subquery with downsampling := ← json.toOption Json.toText })
    | "rate" => return (metric, { subquery with rate := ← json.toBool })
    | "rate_options" => return (metric, { subquery with rateOptions := ← RateOptions.ofJson json })
    | _ => return (metric, { subquery with aggregator := ← Aggregator.ofJson json })

/-- A subquery; only the metric must be there. -/
def ofJson (json : Json) : Decoded Subquery := do
  let (metric, subquery) ← fields.decode (none, .ofMetric "") json
  return { subquery with metric := ← Json.required metric }

end Subquery

namespace Query

/-- What is known of a query while its document is read. -/
structure Draft where
  start : Option Timestamp
  stop : Option Timestamp
  inMilliseconds : Bool
  subqueries : Option (List Subquery)

/-- The fields of a query. -/
def fields : Fields Draft where
  names := [["start"], ["end"], ["ms_resolution"], ["subqueries", "queries"]]
  take name json draft :=
    match name with
    | "start" => return { draft with start := some (← json.toTimestamp) }
    | "end" => return { draft with stop := some (← json.toTimestamp) }
    | "ms_resolution" => return { draft with inMilliseconds := ← json.toBool }
    | _ => return { draft with subqueries := some (← json.toList Subquery.ofJson) }

/-- A query. -/
def ofJson (json : Json) : Decoded Query := do
  let draft ← fields.decode ⟨none, none, false, none⟩ json
  return ⟨← Json.required draft.start, ← Json.required draft.stop, draft.inMilliseconds,
    ← Json.required draft.subqueries⟩

end Query

end TimeSeries
