import Deferral.Metrics

/-!
Metrics as text for a collector: one line per counter and gauge.
-/

namespace Deferral.Service

/-- Escapes a label. A backslash is held back until what follows it is seen: before another one or before
a quotation mark it counts as the escape that was due, and a line break leaves it waiting. -/
private def escapeLabel (held : Bool) : List Char → String
  | [] => if held then "\\\\" else ""
  | '\n' :: rest => "\\n" ++ escapeLabel held rest
  | '"' :: rest => "\\\"" ++ escapeLabel false rest
  | '\\' :: rest => (if held then "\\\\" else "") ++ escapeLabel (!held) rest
  | c :: rest => (if held then "\\\\" else "") ++ c.toString ++ escapeLabel false rest

private def labelText (label : String × String) : String :=
  label.1 ++ "=\"" ++ escapeLabel false label.2.toList ++ "\""

private def metricLine (metric : Metric) (value : Nat) : String :=
  let (name, labels) := metric.labels
  let labels := if labels.isEmpty then ""
    else "\x7b" ++ ",".intercalate (labels.map labelText) ++ "\x7d"
  s!"{name}{labels} {value}"

private def isSampled : Metric → Bool
  | .resolveDurations _ | .requestDurations _ => true
  | _ => false

def exposition (metrics : Metrics) : List String :=
  ((metrics.entries.filter (!isSampled ·.1)).map fun (metric, value) => metricLine metric value).eraseDups
    |>.mergeSort (fun a b => decide (a ≤ b))

end Deferral.Service
