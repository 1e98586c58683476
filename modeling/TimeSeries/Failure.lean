import TimeSeries.Bytes
import TimeSeries.Timestamp
import TimeSeries.Text.Utf8

/-!
# What can go wrong

A failure says what kind of thing went wrong and why.  The causes of each kind are listed here with
the facts that a reader of the message needs; the wording is in one function per kind, and the kind
itself is named in front of the cause by `Failure.message`.

Two classes of failures matter to callers: those worth a second attempt (`Failure.isRetryable`) and
those that show stored bytes to be damaged (`Failure.isCorruption`).
-/

set_option autoImplicit false

namespace TimeSeries

/-- Why bytes are not what they should encode. -/
inductive Malformation where
  | rowTooShort (length : Nat)
  | rowWithoutSeparator
  | metricNotText (defect : Text.Utf8Defect)
  | valueLength (length : Nat)
  | packedLength (length : Nat)
  | packedOrder (timestamp previous : Timestamp)
  | truncatedBlock
  | valueWindow (leading meaningful : Nat)
  | imageTooShort
  | checksumMismatch (stored computed : UInt32)
  | blockImage
  | other (reason : String)
  deriving DecidableEq, Repr

/-- A 32-bit word in eight hexadecimal digits. -/
def checksumText (checksum : UInt32) : String :=
  Bytes.toHex (Bytes.ofNatBE 4 checksum.toNat)

def Malformation.message : Malformation → String
  | .rowTooShort length => s!"row key too short: {length} bytes"
  | .rowWithoutSeparator => "row key missing metric separator"
  | .metricNotText defect => "metric name is not UTF-8: " ++ defect.message
  | .valueLength length => s!"expected 8 value bytes, got {length}"
  | .packedLength length => s!"packed length {length} is not a multiple of 16"
  | .packedOrder timestamp previous =>
      "packed timestamps not strictly increasing: " ++ timestamp.text ++ " after " ++ previous.text
  | .truncatedBlock => "compressed block ends mid-point"
  | .valueWindow leading meaningful =>
      s!"value window of {leading} leading and {meaningful} meaningful bits exceeds 64"
  | .imageTooShort => "serialized block too short"
  | .checksumMismatch stored computed =>
      "block checksum mismatch: stored " ++ checksumText stored ++ ", computed "
        ++ checksumText computed
  | .blockImage => "block image: "
  | .other reason => reason

/-- Why a configuration is refused. -/
inductive Misconfiguration where
  | retentionNotNumber (option value : String)
  | retentionOptionNegative (option : String) (retention : Timestamp)
  | retentionMissing (option : String)
  | defaultRetentionNegative
  | retentionNegative (metric : String)
  | windowNotPositive (width : Timestamp)
  | noWeights
  | stalenessNotPositive (staleness : Timestamp)
  | maintenanceIntervalZero
  | metricPattern (pattern : String)
  | other (reason : String)
  deriving DecidableEq, Repr

def Misconfiguration.message : Misconfiguration → String
  | .retentionNotNumber option value => s!"age-off for '{option}' is not a number: {value}"
  | .retentionOptionNegative option retention =>
      s!"age-off for '{option}' is negative: " ++ retention.text
  | .retentionMissing option => s!"missing mandatory '{option}' age-off"
  | .defaultRetentionNegative => "default age-off is negative"
  | .retentionNegative metric => s!"age-off for '{metric}' is negative"
  | .windowNotPositive width => "window must be positive, got " ++ width.text
  | .noWeights => "filter needs at least one weight"
  | .stalenessNotPositive staleness => "staleness must be positive, got " ++ staleness.text
  | .maintenanceIntervalZero => "maintenance interval must be positive"
  | .metricPattern pattern => s!"bad non-cached metric pattern '{pattern}': "
  | .other reason => reason

/-- Why entries cannot share one value. -/
inductive Incompatibility where
  | visibility (found expected : String)
  | malformed (cause : Malformation)
  | order (timestamp previous : Timestamp)
  | other (reason : String)
  deriving DecidableEq, Repr

def Incompatibility.message : Incompatibility → String
  | .visibility found expected => s!"visibility '{found}' differs from '{expected}'"
  | .malformed cause => cause.message
  | .order timestamp previous =>
      "timestamp " ++ timestamp.text ++ " does not follow " ++ previous.text
  | .other reason => reason

/-- What is wrong with a line that should put a sample. -/
inductive LineDefect where
  | metricMissing
  | metricWithNul
  | timestampMissing
  | timestampInvalid
  | timestampOutOfRange
  | valueMissing
  | valueInvalid
  | tagInvalid (word : String)
  | noTag
  deriving DecidableEq, Repr

def LineDefect.message : LineDefect → String
  | .metricMissing => "missing metric"
  | .metricWithNul => "metric name contains NUL"
  | .timestampMissing => "missing timestamp"
  | .timestampInvalid => "invalid timestamp"
  | .timestampOutOfRange => "timestamp out of range"
  | .valueMissing => "missing value"
  | .valueInvalid => "invalid value"
  | .tagInvalid word => s!"invalid tag '{word}'"
  | .noTag => "at least one tag is required"

/-- Why text does not have the form that it should have. -/
inductive FormatDefect where
  | columnTag (column : String)
  | columnEscape (column : String)
  | weight (word weights : String)
  | line (defect : LineDefect) (text : String)
  | other (reason : String)
  deriving DecidableEq, Repr

def FormatDefect.message : FormatDefect → String
  | .columnTag column => s!"bad tag in column: {column}"
  | .columnEscape column => s!"dangling escape in column: {column}"
  | .weight word weights => s!"bad filter weight '{word}' in '{weights}'"
  | .line defect text => defect.message ++ ": " ++ text
  | .other reason => reason

/-- Why a query, or a part of one, has no answer. -/
inductive QueryFault where
  | downsampling (text : String)
  | aggregator (name : String)
  | window (first last : Timestamp)
  | tagPattern (key : String)
  | emptyBucket (label : String)
  | other (reason : String)
  deriving DecidableEq, Repr

def QueryFault.message : QueryFault → String
  | .downsampling text => s!"invalid downsample '{text}'"
  | .aggregator name => s!"unknown aggregator '{name}'"
  | .window first last => "start " ++ first.text ++ " is after end " ++ last.text
  | .tagPattern key => s!"bad pattern for tag '{key}': "
  | .emptyBucket label => s!"empty bucket at {label}"
  | .other reason => reason

/-- What went wrong. -/
inductive Failure where
  /-- Reading or writing outside the store failed. -/
  | io (reason : String)
  /-- Stored bytes do not encode what they should. -/
  | malformed (cause : Malformation)
  /-- A point is older than the newest point its series has accepted. -/
  | outOfOrder (timestamp newest : Timestamp)
  /-- A setting is missing or out of its range. -/
  | configuration (cause : Misconfiguration)
  /-- Entries cannot be merged into one value. -/
  | incompatible (cause : Incompatibility)
  /-- A write reached a block that no longer takes points. -/
  | closed
  /-- Text does not have the form that it should have. -/
  | format (defect : FormatDefect)
  /-- A query, or a part of one, has no answer. -/
  | query (fault : QueryFault)
  deriving DecidableEq, Repr

namespace Failure

/-- The failure in words. -/
def message : Failure → String
  | .io reason => "IO error: " ++ reason
  | .malformed cause => "Malformed blob: " ++ cause.message
  | .outOfOrder timestamp newest =>
      "Out of order point: timestamp " ++ timestamp.text ++ " is older than newest " ++ newest.text
  | .configuration cause => "Configuration error: " ++ cause.message
  | .incompatible cause => "Incompatible merge: " ++ cause.message
  | .closed => "Compressor is closed"
  | .format defect => "Invalid format: " ++ defect.message
  | .query fault => "Query error: " ++ fault.message

/-- A second attempt may succeed. -/
def isRetryable : Failure → Bool
  | .io _ => true
  | _ => false

/-- Stored bytes are damaged. -/
def isCorruption : Failure → Bool
  | .malformed _ => true
  | _ => false

/-- The first of two failures that may both have happened. -/
def first (earlier later : Option Failure) : Option Failure :=
  earlier.or later

end Failure

end TimeSeries
