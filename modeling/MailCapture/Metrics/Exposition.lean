import MailCapture.Decimal.Cut
import MailCapture.Decimal.Notation
import MailCapture.Metrics
import MailCapture.Text.Pieces
import MailCapture.Text.Sorted
/-!
The text form of metrics.  A family is a name, a help line, a type and the lines of its samples; a
family without samples is left out.  Lines between comments stand in the order of their text.
-/
namespace MailCapture.Metrics

abbrev Labels := List (String × String)

structure Family where
  name : String
  help : String
  typeName : String
  samples : List String

/-- One sample; label values are written as they are. -/
def sample (name : String) (labels : Labels) (value : String) : String :=
  let shown := labels.map (fun l => l.1 ++ "=\"" ++ l.2 ++ "\"")
  name ++ (if labels.isEmpty then "" else "\x7b" ++ String.intercalate "," shown ++ "\x7d") ++
    " " ++ value

namespace Family

/-- The lines of a sample; a label value with a line break spreads it over several. -/
def sampleLines (sample : String) : List String := (Text.split '\n' sample).map Text.withoutReturn

def lines (f : Family) : List String :=
  if f.samples.isEmpty then []
  else
    ("# HELP " ++ f.name ++ " " ++ f.help ++ ".") :: ("# TYPE " ++ f.name ++ " " ++ f.typeName) ::
      f.samples.flatMap sampleLines

end Family

def keyLabels (k : Key) : Labels := [("namespace", k.ns), ("name", k.name)]

/-- Whole numbers that only grow; their samples are marked as totals. -/
def counter {κ : Type} (name help : String) (labels : κ → Labels) (samples : List (κ × Nat)) :
    Family where
  name := name
  help := help
  typeName := "counter"
  samples := samples.map (fun s => sample (name ++ "_total") (labels s.1) (toString s.2))

def gauge (name help : String) (samples : List (Key × Int64)) : Family where
  name := name
  help := help
  typeName := "gauge"
  samples := samples.map (fun s => sample name (keyLabels s.1) (toString s.2.toInt))

/-- Numbers are positional from 10⁻⁶ up to 10²¹. -/
def numberLayout : Decimal.Layout := ⟨-6, 21, false⟩

def number (x : Double) : String := String.ofList (numberLayout.write Double.cut x)

def total : Total → String
  | .finite x => number x
  | .infinite negative => if negative then "-inf" else "inf"

def histogramSamples (name : String) (labels : Labels) (h : Histogram) : List String :=
  let bucket (bound : String) (n : Nat) : String :=
    sample (name ++ "_bucket") (("le", bound) :: labels) (toString n)
  sample (name ++ "_sum") labels (total h.sum) ::
    sample (name ++ "_count") labels (toString h.count) ::
    (List.zipWith (fun b n => bucket (number b) n) Histogram.bounds h.within ++
      [bucket "+Inf" h.count])

def histogram (name help : String) (samples : List (Key × Histogram)) : Family where
  name := name
  help := help
  typeName := "histogram"
  samples := samples.flatMap (fun s => histogramSamples name (keyLabels s.1) s.2)

def families (m : Metrics) : List Family := [
  counter "mailhog_reconciliations" "Total number of reconciliations" keyLabels m.reconciliations,
  counter "mailhog_reconciliation_errors" "Total number of reconciliation errors" keyLabels
    m.failures,
  histogram "mailhog_reconcile_duration_seconds" "Duration of reconciliation in seconds"
    m.durations,
  counter "mailhog_child_operations" "Child objects created, updated or deleted"
    (fun (k : ChildKind × Verb) => [("kind", k.1.name), ("verb", k.2.text)]) m.childWrites,
  counter "mailhog_status_updates" "MailhogInstance status writes" (fun () => [])
    [((), m.statusWrites)],
  gauge "mailhog_instance_pods" "Pods selected by each MailhogInstance" m.pods,
  gauge "mailhog_instance_ready_pods" "Ready pods of each MailhogInstance" m.readyPods]

def isComment (line : String) : Bool := line.toList.head? == some '#'

/-- Lines with the runs between comments in the order of their text; `run` is the one that is being
read. -/
def arranged (run : List String) : List String → List String
  | [] => Text.sorted run
  | line :: rest =>
    if isComment line then Text.sorted run ++ line :: arranged [] rest
    else arranged (line :: run) rest

def text (m : Metrics) : String :=
  String.intercalate "\n" (arranged [] (m.families.flatMap Family.lines ++ ["# EOF"]))

end MailCapture.Metrics
