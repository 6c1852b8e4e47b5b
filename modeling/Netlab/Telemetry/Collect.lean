import Mathlib.Data.List.Sort
import Netlab.Prelude.Order

/-!
# Which metric samples are shown

`collect` in `netlab/telemetry.py` reads the metric files of the results directory: the canonical
file first, then the newer before the older ones, of each at most as many rows as are shown
altogether, until there are enough. What is too many is cut off in front, which is where the rows of
the first file are. The events and what is computed from rows and events are left out.
-/

namespace Netlab.Telemetry

variable {F : Type}

/-! ## Reading a metric file -/

/-- A row of a metric file by the names of the columns, with the values that were read. -/
abbrev Row (F : Type) := Dict String (Json F)

/-- `xs[-limit:]`. -/
def lastItems {α : Type} (limit : ℤ) (xs : List α) : List α :=
  if 0 < limit then xs.drop (xs.length - limit.toNat) else xs.drop (-limit).toNat

section

variable [PyText F] [PyFloat F]

/-- The value that a field stands for (`_coerce`): a truth value, a number, or the text itself. A
field that a record lacks has no text. -/
def coerce : Option String → Json F
  | none => .null
  | some value =>
      let text := PyText.strip F value
      let lowered := PyText.lower F text
      if lowered ∈ ["true", "false"] then .bool (lowered = "true")
      -- a number needs a point or an exponent to become a float
      else if '.' ∈ lowered.toList ∨ 'e' ∈ lowered.toList then
        match PyText.ofText text with
        | some x => .float x
        | none => .str text
      else
        match PyText.intOfText F text with
        | some n => .int n
        | none => .str text

end

/-- A metric file: its name, when it was changed, and its records as `csv.DictReader` reads them.
Fields beyond the header are left out. -/
structure MetricFile where
  name : String
  mtime : ℚ
  records : List (Dict String (Option String))

/-- The metric files that are found in the results directory. -/
structure MetricFiles where
  files : List MetricFile
  /-- the names in a directory are different -/
  nodup : (files.map MetricFile.name).Nodup

/-- The rows at the end of a file (`read_csv_tail`). -/
def readCsvTail [PyText F] [PyFloat F] (file : MetricFile) (limit : ℤ) : List (Row F) :=
  (lastItems limit file.records).map fun record => record.map fun _ value => coerce value

/-! ## The order of the files -/

/-- The name of the file that always comes first. -/
def canonicalMetric : String := "snaas_link_metrics.csv"

/-- The metric files in the order in which they are read: the canonical one first, then by when they
were changed, the last one first. -/
def MetricFiles.sorted (found : MetricFiles) : List MetricFile :=
  let metricFiles := found.files.insertionSort fun a b => b.mtime ≤ a.mtime
  match found.files.find? fun file => file.name = canonicalMetric with
  | some canonical => canonical :: metricFiles.filter fun file => file.name ≠ canonicalMetric
  | none => metricFiles

/-! ## Where the samples come from -/

/-- The sources that samples are said to come from. -/
inductive TelemetrySource
  | live
  | replay
  | preview
  | offline
  | stale
  | degraded
  | unavailable
  deriving DecidableEq, Repr

/-- A source with the age of the last sample and the reason. -/
structure SourceReport (F : Type) where
  source : TelemetrySource
  age : Option F
  reason : String

section

variable [PyText F] [PyFloat F]

/-- `token in text`. -/
def occursIn (token text : String) : Bool := decide (token.toList <:+: text.toList)

/-- The timestamp of a row; none when it does not read as a number. -/
def timestamp (row : Row F) : Option F := row.getFloat "timestamp" 0.0

/-- `max(timestamps, default=0.0)`. -/
def latestOf : List F → F
  | [] => 0.0
  | t :: timestamps => timestamps.foldl PyFloat.max t

/-- How long ago an instant was, unless it is not positive. -/
def ageAt (now latest : F) : Option F :=
  if PyFloat.lt 0.0 latest then some (PyFloat.max 0.0 (now - latest)) else none

/-- `classify_source` at a time. -/
def classifySource (rows : List (Row F)) (latestStatus : Dict String (Json F)) (staleAfter now : F) :
    SourceReport F :=
  if rows ≠ [] then
    let age := ageAt now (latestOf (rows.filterMap timestamp))
    -- rows without a timestamp are stale
    if age.any fun age => PyFloat.le age staleAfter then
      { source := .live, age, reason := "fresh metric samples" }
    else { source := .stale, age, reason := "metric file exists but samples are stale" }
  else
    -- without rows it is the status that tells
    let statusSource := PyText.lower F (latestStatus.getText "source" "")
    if occursIn "preview" statusSource || occursIn "snapshot" statusSource then
      { source := .preview, age := none
        reason := "configuration snapshot without live link samples" }
    else if latestStatus.entries ≠ [] then
      { source := .degraded, age := none, reason := "runtime status exists without link samples" }
    else { source := .offline, age := none, reason := "no runtime status or metric samples" }

/-! ## Collecting -/

/-- The column that says where a row comes from. -/
def sourceColumn : String := "source_file"

/-- The rows at the end of a file, each with the name of the file. -/
def labelledTail (file : MetricFile) (limit : ℤ) : List (Row F) :=
  (readCsvTail file limit).map fun row => row.set sourceColumn (.str file.name)

/-- Read the files in order until there are enough rows. -/
def gather (limit : ℤ) : List MetricFile → List (Row F) → List (Row F)
  | [], rows => rows
  | file :: files, rows =>
      let rows := rows ++ labelledTail file limit
      if limit ≤ rows.length then rows else gather limit files rows

/-- What is shown: the rows, their source, and the names of the files. -/
structure Collected (F : Type) where
  source : SourceReport F
  rows : List (Row F)
  metricFiles : List String

/-- `collect` at a time, as far as it is about metric samples. Four files are looked at, and ten are
named. -/
def collect (found : MetricFiles) (latestStatus : Dict String (Json F)) (limit : ℤ)
    (staleAfter now : F) : Collected F :=
  let metricFiles := found.sorted
  let rows := lastItems limit (gather limit (metricFiles.take 4) [])
  { source := classifySource rows latestStatus staleAfter now
    rows
    metricFiles := (metricFiles.take 10).map MetricFile.name }

end

end Netlab.Telemetry
