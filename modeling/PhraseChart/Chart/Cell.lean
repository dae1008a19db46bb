import PhraseChart.Chart.Label
import PhraseChart.Grammar.Index
import PhraseChart.Span

namespace PhraseChart

/-- What happens to a cell while the chart is filled. -/
inductive Step where
  | seed (token : String)
  | unary (parent : String) (child : Symbol)
  | unaryCycle (parent : String) (child : Symbol)
  | binary (middle : Nat) (parent : String) (left right : Symbol)
deriving DecidableEq, Repr

/-- The labels found for a stretch of tokens, in the order they were found, and how they were. -/
structure Cell where
  span : Span
  found : Array Label := #[]
  log : Array Step := #[]
deriving DecidableEq, Repr

inductive SpanError where
  | belowDiagonal (span : Span)
  | outside (span : Span)
deriving DecidableEq, Repr

def SpanError.message : SpanError → String
  | .belowDiagonal span => "cell " ++ span.text ++ " is below the diagonal"
  | .outside span => "no cell " ++ span.text

/-- The unary heads that do not yet stand on the chain of a derivation. -/
def Index.openHeads (ix : Index) (d : Derivation) : List String :=
  ix.unary.heads.filter fun head => head ∉ d.chain

theorem Index.length_openHeads_lt {ix : Index} {s : Symbol} {d : Derivation} {p : String}
    (hp : p ∈ ix.unaryParents s) (hc : p ∉ d.chain) :
    (ix.openHeads (.node p [d])).length < (ix.openHeads d).length := by
  have hfilter : ix.openHeads (.node p [d]) = (ix.openHeads d).filter fun head => head ≠ p := by
    rw [openHeads, openHeads, List.filter_filter]
    congr 1
    funext head
    simp
  rw [hfilter, List.length_filter_lt_length_iff_exists]
  exact ⟨p, by simp [openHeads, ParentTable.mem_heads_of_mem_parents hp, hc], by simp⟩

namespace Cell

/-- A cell with no labels; it has to cover at least one token. -/
def blank? (span : Span) : Except SpanError Cell :=
  if span.start < span.stop then .ok { span } else .error (.belowDiagonal span)

def labels (c : Cell) : List Label := c.found.toList

def size (c : Cell) : Nat := c.found.size

def isEmpty (c : Cell) : Bool := c.found.isEmpty

instance : Membership Label Cell := ⟨fun c l => l ∈ c.found⟩

instance (l : Label) (c : Cell) : Decidable (l ∈ c) := inferInstanceAs (Decidable (l ∈ c.found))

theorem mem_iff {l : Label} {c : Cell} : l ∈ c ↔ l ∈ c.labels := Array.mem_toList_iff.symm

def hasSymbol (c : Cell) (s : Symbol) : Bool := c.found.any fun l => l.symbol = s

def labelsFor (c : Cell) (name : String) : List Label := c.labels.filter fun l => l.isFor name

def push (c : Cell) (l : Label) : Cell := { c with found := c.found.push l }

def note (c : Cell) (s : Step) : Cell := { c with log := c.log.push s }

@[simp] theorem labels_push (c : Cell) (l : Label) : (c.push l).labels = c.labels ++ [l] := by
  simp [labels, push]

@[simp] theorem labels_note (c : Cell) (s : Step) : (c.note s).labels = c.labels := rfl

@[simp] theorem span_push (c : Cell) (l : Label) : (c.push l).span = c.span := rfl

@[simp] theorem span_note (c : Cell) (s : Step) : (c.note s).span = c.span := rfl

/-- A new label brings along what the unary rules make of it, depth first and in rule order. A head
on the label's own chain is passed over, which is what ends a cycle of unary rules. -/
def add (ix : Index) (c : Cell) (l : Label) : Cell :=
  if l ∈ c then c
  else
    (ix.unaryParents l.symbol).attach.foldl
      (fun c p =>
        if _h : p.1 ∈ l.derivation.chain then c.note (.unaryCycle p.1 l.symbol)
        else add ix (c.note (.unary p.1 l.symbol)) (.ofRule p.1 [l.derivation]))
      (c.push l)
termination_by (ix.openHeads l.derivation).length
decreasing_by exact Index.length_openHeads_lt p.2 (by assumption)

/-- What adding a label does with one unary parent of it. -/
def addParent (ix : Index) (l : Label) (c : Cell) (p : String) : Cell :=
  if p ∈ l.derivation.chain then c.note (.unaryCycle p l.symbol)
  else (c.note (.unary p l.symbol)).add ix (.ofRule p [l.derivation])

theorem add_of_mem {ix : Index} {c : Cell} {l : Label} (h : l ∈ c) : c.add ix l = c := by
  rw [add, if_pos h]

theorem add_of_not_mem {ix : Index} {c : Cell} {l : Label} (h : l ∉ c) :
    c.add ix l = (ix.unaryParents l.symbol).foldl (addParent ix l) (c.push l) := by
  rw [add, if_neg h, List.foldl_subtype (g := addParent ix l)]
  · simp
  · intro c p hp
    simp [addParent]

end Cell

end PhraseChart
