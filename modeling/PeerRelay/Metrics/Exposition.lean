import PeerRelay.Decimal.Shortest

/-!
# The text form of metrics

Metrics are grouped into families. A family is announced by a line of help and
a line with its kind, and each of its samples takes one line. Families stand in
the order of their names.
-/

namespace PeerRelay.Metrics

/-- What kind of numbers a family holds. -/
inductive Kind where
  | counter
  | gauge
  | histogram
  deriving DecidableEq, Repr

def Kind.name : Kind → String
  | counter => "counter"
  | gauge => "gauge"
  | histogram => "histogram"

/-- One number of a family: what follows the family's name, and the value. -/
structure Sample where
  suffix : String := ""
  value : Float

def Sample.text (family : String) (s : Sample) : String :=
  s!"{family}{s.suffix} {Decimal.shortest s.value}"

/-- Numbers that belong together. -/
structure Family where
  name : String
  help : String
  kind : Kind
  samples : List Sample

/-- The lines of one family. -/
def Family.lines (f : Family) : List String :=
  s!"# HELP {f.name} {f.help}" :: s!"# TYPE {f.name} {f.kind.name}" ::
    f.samples.map (Sample.text f.name)

/-- The lines of all families, by name. -/
def exposition (families : List Family) : List String :=
  (families.mergeSort (fun a b => decide (a.name ≤ b.name))).flatMap Family.lines

end PeerRelay.Metrics
