import TimeSeries.Entry
import TimeSeries.Text.Blank
import TimeSeries.Text.Numeral

/-!
# Retention

Points are kept for a time that depends on their metric: a default, and exceptions for some
metrics.  A point is retained as long as its age does not exceed that time.  Ages and limits that
would leave the range of timestamps stay at its ends, on every path in the same way.

An entry whose row names no metric is retained: to drop what cannot be read would be to lose it.
-/

set_option autoImplicit false

namespace TimeSeries

/-- How long points are kept, in milliseconds. -/
structure Retention where
  standard : Timestamp
  /-- The metrics with a time of their own. -/
  overrides : SortedMap String Timestamp
  deriving DecidableEq, Repr, Inhabited

namespace Retention

/-- One time for all metrics. -/
def ofDefault (standard : Timestamp) : Retention := ⟨standard, .empty⟩

/-- The time that points of a metric are kept. -/
def forMetric (retention : Retention) (metric : String) : Timestamp :=
  (retention.overrides.get? metric).getD retention.standard

/-- The oldest timestamp that is still retained. -/
def oldestRetained (retention : Retention) (metric : String) (now : Timestamp) : Timestamp :=
  now.saturatingSub (retention.forMetric metric)

/-- A point of a metric is retained. -/
def retains (retention : Retention) (metric : String) (timestamp now : Timestamp) : Bool :=
  now.saturatingSub timestamp ≤ retention.forMetric metric

/-- No time may be negative. -/
def validate (retention : Retention) : Except Failure Unit :=
  if retention.standard < 0 then
    .error (.configuration .defaultRetentionNegative)
  else
    match retention.overrides.toList.find? fun override => override.2 < 0 with
    | some (metric, _) => .error (.configuration (.retentionNegative metric))
    | none => .ok ()

/-! ## Options -/

/-- What the options read so far say. -/
structure Draft where
  standard : Option Timestamp
  overrides : SortedMap String Timestamp

/-- The option name without its common beginning. -/
def strip? (start : String) (option : String) : Option String :=
  if start.toList.isPrefixOf option.toList then
    some (String.ofList (option.toList.drop start.length))
  else
    none

/-- The time that an option gives. -/
def optionTime (option value : String) : Except Failure Timestamp :=
  match Text.readTimestamp? (Text.trim value) with
  | none => .error (.configuration (.retentionNotNumber option value))
  | some time =>
      if time < 0 then .error (.configuration (.retentionOptionNegative option time))
      else .ok time

/-- Reads one option; those with another beginning say nothing. -/
def takeOption (start : String) (draft : Draft) (option value : String) : Except Failure Draft :=
  match strip? start option with
  | none => .ok draft
  | some name => do
      let time ← optionTime option value
      if name = "default" then
        return { draft with standard := some time }
      else
        return { draft with overrides := draft.overrides.insert name time }

/-- The retention in options that are read in the order in which they are listed: the common
beginning followed by `default` gives the default, and followed by a metric the time for that
metric. -/
def ofListed (start : String) (listed : List (String × String)) : Except Failure Retention := do
  let draft ← listed.foldlM
    (fun draft option => takeOption start draft option.1 option.2) ⟨none, .empty⟩
  match draft.standard with
  | some standard => return ⟨standard, draft.overrides⟩
  | none => throw (.configuration (.retentionMissing (start ++ "default")))

/-- The retention in a map of options. -/
def ofOptions (start : String) (options : SortedMap String String) : Except Failure Retention :=
  ofListed start options.toList

end Retention

/-- Retention at a given time. -/
structure RetentionFilter where
  retention : Retention
  now : Timestamp
  deriving DecidableEq, Repr, Inhabited

/-- The entry of a key is retained. -/
def RetentionFilter.accepts (filter : RetentionFilter) (key : Key) : Bool :=
  match key.metric with
  | .ok metric => filter.retention.retains metric key.timestamp filter.now
  | .error _ => true

end TimeSeries
