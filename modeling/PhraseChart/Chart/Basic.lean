import PhraseChart.Chart.Cell

namespace PhraseChart

/-- One cell for every stretch of one or more of the tokens: `rows[start][k]` covers `k + 1` tokens
from `start` on. -/
structure Chart where
  size : Nat
  rows : Array (Array Cell)
deriving DecidableEq, Repr

namespace Chart

def blankRow (size start : Nat) : Array Cell :=
  (Array.range (size - start)).map fun k => { span := ⟨start, start + k + 1⟩ }

def blank (size : Nat) : Chart := ⟨size, (Array.range size).map (blankRow size)⟩

def isEmpty (c : Chart) : Bool := c.size == 0

/-- Whether a chart over this many tokens has a cell for the span. -/
def Covers (size : Nat) (span : Span) : Prop := span.start < span.stop ∧ span.stop ≤ size

instance (size : Nat) (span : Span) : Decidable (Covers size span) :=
  inferInstanceAs (Decidable (_ ∧ _))

def cell (c : Chart) (span : Span) : Except SpanError Cell :=
  if Covers c.size span then
    match c.rows[span.start]?.bind fun row => row[span.stop - span.start - 1]? with
    | some cell => .ok cell
    | none => .error (.outside span)
  else .error (.outside span)

/-- Changes one cell, if there is one for the span. -/
def update (c : Chart) (span : Span) (f : Cell → Cell) : Chart :=
  if Covers c.size span then
    { c with
      rows := c.rows.modify span.start fun row => row.modify (span.stop - span.start - 1) f }
  else c

/-- The cell that covers all tokens, if there are any. -/
def top (c : Chart) : Option Cell := (c.cell ⟨0, c.size⟩).toOption

/-- By first token, then by length. -/
def cells (c : Chart) : List Cell := c.rows.toList.flatMap Array.toList

/-- A line for each cell and one, indented, for each of its labels. -/
def text (c : Chart) : String :=
  String.join (c.cells.map fun cell =>
    "Cell " ++ cell.span.text ++ ":\n"
      ++ String.join (cell.labels.map fun l => "  " ++ l.text ++ "\n"))

instance : ToString Chart := ⟨text⟩

end Chart

end PhraseChart
