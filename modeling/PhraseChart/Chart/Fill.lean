import PhraseChart.Chart.Basic

namespace PhraseChart

/-- A stretch of tokens cut in two. -/
structure Split where
  start : Nat
  middle : Nat
  stop : Nat
deriving DecidableEq, Repr

namespace Split

def left (s : Split) : Span := ⟨s.start, s.middle⟩

def right (s : Split) : Span := ⟨s.middle, s.stop⟩

def whole (s : Split) : Span := ⟨s.start, s.stop⟩

end Split

/-- All ways to cut a stretch of this many tokens that begins at `start`, leftmost cut first. -/
def splitsOf (length start : Nat) : List Split :=
  (List.range' (start + 1) (length - 1)).map fun middle => ⟨start, middle, start + length⟩

/-- All cuts of all stretches of two or more of the tokens. Shorter stretches come first, so that a
stretch is looked at only after everything inside it. -/
def splits (size : Nat) : List Split :=
  (List.range' 2 (size - 1)).flatMap fun length =>
    (List.range (size + 1 - length)).flatMap fun start => splitsOf length start

/-- A binary rule applied to two labels that stand side by side. -/
structure Join where
  parent : String
  left : Label
  right : Label

namespace Join

def label (j : Join) : Label := .ofRule j.parent [j.left.derivation, j.right.derivation]

def step (middle : Nat) (j : Join) : Step := .binary middle j.parent j.left.symbol j.right.symbol

/-- Every label of the left cell with every label of the right one, through every rule for both. -/
def all (ix : Index) (left right : Cell) : List Join :=
  left.labels.flatMap fun l => right.labels.flatMap fun r =>
    (ix.binaryParents l.symbol r.symbol).map fun parent => ⟨parent, l, r⟩

end Join

/-- Adds all that the rules make of two neighbouring cells; the log has the rules first. -/
def Cell.addJoins (ix : Index) (middle : Nat) (joins : List Join) (c : Cell) : Cell :=
  joins.foldl (fun c j => c.add ix j.label) (joins.foldl (fun c j => c.note (j.step middle)) c)

namespace Chart

/-- Puts a token into the cell of its position. -/
def seed (ix : Index) (c : Chart) (token : String) (position : Nat) : Chart :=
  c.update ⟨position, position + 1⟩ fun cell =>
    (cell.note (.seed token)).add ix (.ofToken token)

/-- Adds to a stretch what comes of its two sides. -/
def combine (ix : Index) (c : Chart) (s : Split) : Chart :=
  match c.cell s.left, c.cell s.right with
  | .ok left, .ok right => c.update s.whole (Cell.addJoins ix s.middle (Join.all ix left right))
  | _, _ => c

def seeded (ix : Index) (tokens : List String) : Chart :=
  tokens.zipIdx.foldl (fun c t => c.seed ix t.1 t.2) (blank tokens.length)

/-- The finished chart of a sentence. -/
def fill (ix : Index) (tokens : List String) : Chart :=
  (splits tokens.length).foldl (combine ix) (seeded ix tokens)

end Chart

end PhraseChart
