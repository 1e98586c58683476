import TimeSeries.Cache.Settings.Basic
import TimeSeries.Json.Decode
import TimeSeries.Json.Encode

/-!
# Settings as documents

The fields of a settings document.  Every field may be missing and then has its standard value;
only the retention, where it is given, must say what the default time is.
-/

set_option autoImplicit false

namespace TimeSeries

open Json (Decoded Fields)

namespace Eviction

/-- The name of a way of making room. -/
def name : Eviction → String
  | .oldest => "oldest"
  | .leastRecentlyUsed => "least_recently_used"

/-- The way of making room that a name stands for. -/
def ofName? (text : String) : Option Eviction :=
  if text = oldest.name then some .oldest
  else if text = leastRecentlyUsed.name then some .leastRecentlyUsed
  else none

/-- Every way of making room is found by its name. -/
theorem ofName?_name (eviction : Eviction) : ofName? eviction.name = some eviction := by
  cases eviction <;> rfl

/-- The name, alone or as the only member of an object, whose value is then `null`. -/
def ofJson : Json → Decoded Eviction
  | .string text | .object [(text, .null)] true =>
      match ofName? text with
      | some eviction => .ok eviction
      | none => .error .shape
  | json => json.otherShape

end Eviction

namespace Retention

/-- The fields of a retention, with the default apart as long as it may be missing. -/
def fields : Fields Draft where
  names := [["default_ttl_millis"], ["overrides"]]
  take name json draft :=
    match name with
    | "default_ttl_millis" => return { draft with standard := some (← json.toTimestamp) }
    | _ => return { draft with overrides := ← json.toMap Json.toTimestamp }

def ofJson (json : Json) : Decoded Retention := do
  let draft ← fields.decode ⟨none, .empty⟩ json
  return ⟨← Json.required draft.standard, draft.overrides⟩

def toJson (retention : Retention) : Json :=
  .record [("default_ttl_millis", .ofTimestamp retention.standard),
    ("overrides", .ofMap id .ofTimestamp retention.overrides)]

end Retention

namespace CacheSettings

/-- The fields of the settings. -/
def fields : Fields CacheSettings where
  names := [["max_series"], ["eviction"], ["age_off"], ["staleness_millis"],
    ["max_points_per_block"], ["maintenance_interval_millis"], ["non_cached_metrics"],
    ["max_tag_sets_per_metric"]]
  take name json settings :=
    match name with
    | "max_series" => return { settings with seriesLimit := ← json.toCount }
    | "eviction" => return { settings with eviction := ← Eviction.ofJson json }
    | "age_off" => return { settings with retention := ← Retention.ofJson json }
    | "staleness_millis" => return { settings with staleness := ← json.toOption Json.toTimestamp }
    | "max_points_per_block" => return { settings with blockLimit := ← json.toCount }
    | "maintenance_interval_millis" =>
        return { settings with maintenanceInterval := ← json.toCount }
    | "non_cached_metrics" =>
        return { settings with excludedMetrics := ← json.toList Json.toText }
    | _ => return { settings with tagSetLimit := ← json.toCount }

/-- The settings in a document. -/
def ofJson : Json → Decoded CacheSettings := fields.decode .standard

/-- The document of the settings, with every field. -/
def toJson (settings : CacheSettings) : Json :=
  .record [("max_series", .ofCount settings.seriesLimit),
    ("eviction", .string settings.eviction.name),
    ("age_off", settings.retention.toJson),
    ("staleness_millis", .ofOption .ofTimestamp settings.staleness),
    ("max_points_per_block", .ofCount settings.blockLimit),
    ("maintenance_interval_millis", .ofCount settings.maintenanceInterval),
    ("non_cached_metrics", .ofList .string settings.excludedMetrics),
    ("max_tag_sets_per_metric", .ofCount settings.tagSetLimit)]

end CacheSettings

end TimeSeries
