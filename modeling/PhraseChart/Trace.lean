import PhraseChart.Parser

namespace PhraseChart

inductive Level where
  | debug
  | trace
deriving DecidableEq, Repr

/-- What is reported while a grammar is indexed and a sentence analysed. -/
inductive Event where
  | indexed (start : String) (unary binary : Nat)
  | began (tokens : Nat)
  | entered
  | cellStep (span : Span) (step : Step)
  | filled (topLabels : Nat)
  | exited
  | analyzed (tokens labelCount analyses : Nat)
deriving DecidableEq, Repr

namespace Step

def message : Step → String
  | seed _ => "seed"
  | unary _ _ => "unary"
  | unaryCycle _ _ => "unary cycle skipped"
  | binary _ _ _ _ => "binary"

def fields (span : Span) : Step → List (String × String)
  | seed token => [("span", pair), ("token", token)]
  | unary parent child | unaryCycle parent child =>
    [("span", pair), ("lhs", parent), ("child", child.text)]
  | binary middle parent left right =>
    [("start", toString span.start), ("mid", toString middle), ("end", toString span.stop),
      ("lhs", parent), ("left", left.text), ("right", right.text)]
where
  pair : String := "(" ++ toString span.start ++ ", " ++ toString span.stop ++ ")"

end Step

namespace Event

def level : Event → Level
  | cellStep _ _ => .trace
  | _ => .debug

def message : Event → String
  | indexed _ _ _ => "built grammar index"
  | began _ => "span parse_chart"
  | entered => "enter"
  | cellStep _ step => step.message
  | filled _ => "chart filled"
  | exited => "exit"
  | analyzed _ _ _ => "filled chart"

def fields : Event → List (String × String)
  | indexed start unary binary =>
    [("start", start), ("unary", toString unary), ("binary", toString binary)]
  | began tokens => [("tokens", toString tokens)]
  | entered | exited => []
  | cellStep span step => step.fields span
  | filled topLabels => [("top_labels", toString topLabels)]
  | analyzed tokens labelCount analyses =>
    [("tokens", toString tokens), ("label_count", toString labelCount),
      ("analyses", toString analyses)]

end Event

/-- Something at work, and all that has been reported up to now. -/
structure Traced (α : Type) where
  value : α
  events : Array Event

namespace Traced

def report {α : Type} (t : Traced α) (e : Event) : Traced α := { t with events := t.events.push e }

/-- Reports a step of a cell, and notes it there. -/
def note (t : Traced Cell) (s : Step) : Traced Cell :=
  ⟨t.value.note s, t.events.push (.cellStep t.value.span s)⟩

def push (t : Traced Cell) (l : Label) : Traced Cell := { t with value := t.value.push l }

/-- Adds a label and what the unary rules make of it. Each rule is reported before its label is
added, also when that label turns out to be there. -/
def add (ix : Index) (t : Traced Cell) (l : Label) : Traced Cell :=
  if l ∈ t.value then t
  else
    (ix.unaryParents l.symbol).attach.foldl
      (fun t p =>
        if _h : p.1 ∈ l.derivation.chain then t.note (.unaryCycle p.1 l.symbol)
        else add ix (t.note (.unary p.1 l.symbol)) (.ofRule p.1 [l.derivation]))
      (t.push l)
termination_by (ix.openHeads l.derivation).length
decreasing_by exact Index.length_openHeads_lt p.2 (by assumption)

/-- The binary rules of a cut are all reported before the first of their labels is added. -/
def addJoins (ix : Index) (middle : Nat) (joins : List Join) (t : Traced Cell) : Traced Cell :=
  joins.foldl (fun t j => t.add ix j.label) (joins.foldl (fun t j => t.note (j.step middle)) t)

/-- Works on one cell of a chart, if there is one for the span. -/
def inCell (t : Traced Chart) (span : Span) (f : Traced Cell → Traced Cell) : Traced Chart :=
  match t.value.cell span with
  | .error _ => t
  | .ok cell =>
    let after := f ⟨cell, t.events⟩
    ⟨t.value.update span fun _ => after.value, after.events⟩

def seed (ix : Index) (t : Traced Chart) (token : String) (position : Nat) : Traced Chart :=
  t.inCell ⟨position, position + 1⟩ fun cell => (cell.note (.seed token)).add ix (.ofToken token)

def combine (ix : Index) (t : Traced Chart) (s : Split) : Traced Chart :=
  match t.value.cell s.left, t.value.cell s.right with
  | .ok left, .ok right => t.inCell s.whole (addJoins ix s.middle (Join.all ix left right))
  | _, _ => t

/-- The chart of a sentence, filled token by token and then cut by cut. -/
def filled (ix : Index) (tokens : List String) : Traced Chart :=
  let blank : Traced Chart := ⟨.blank tokens.length, #[.began tokens.length, .entered]⟩
  (splits tokens.length).foldl (combine ix)
    (tokens.zipIdx.foldl (fun t k => t.seed ix k.1 k.2) blank)

/-- The filling of a chart from its beginning to its end. -/
def fill (ix : Index) (tokens : List String) : Traced Chart :=
  let t := filled ix tokens
  (t.report (.filled (t.value.top.elim 0 Cell.size))).report .exited

end Traced

namespace Parser

/-- The analysis of a sentence with all that is reported meanwhile. -/
def trace (p : Parser) (tokens : List String) : Traced Analysis :=
  let t := Traced.fill p.index tokens
  let a := Analysis.ofChart p.start t.value
  ⟨a, t.events.push (.analyzed tokens.length a.recognition.labelCount a.recognition.analyses)⟩

/-- All that is reported from the making of the parser to the end of the analysis. -/
def events (p : Parser) (tokens : List String) : List Event :=
  .indexed p.start p.index.unary.size p.index.binary.size :: (p.trace tokens).events.toList

end Parser

end PhraseChart
