import PhraseChart.Chart.Fill
import PhraseChart.Grammar.Reader
import PhraseChart.Tree.Layout

namespace PhraseChart

/-- What a chart says about its sentence in numbers: whether the start symbol covers all of it, how
many labels do, and how many of these are for the start symbol. -/
structure Recognition where
  accepted : Bool
  labelCount : Nat
  analyses : Nat
deriving DecidableEq, Repr

inductive Verdict where
  | parsed (tree : Tree) (labelCount analyses : Nat)
  | noParse
deriving DecidableEq, Repr

namespace Verdict

def tree? : Verdict → Option Tree
  | parsed tree _ _ => some tree
  | noParse => none

def text : Verdict → String
  | parsed tree _ _ => tree.bracketed
  | noParse => "no parse"

instance : ToString Verdict := ⟨text⟩

end Verdict

/-- A grammar whose rules all have one or two symbols, with its index. -/
structure Parser where
  grammar : Grammar
  index : Index
  indexed : Index.ofRules grammar.rules = .ok index

/-- A filled chart and what it says about its sentence. -/
structure Analysis where
  chart : Chart
  start : String
  recognition : Recognition

namespace Analysis

def ofChart (start : String) (chart : Chart) : Analysis :=
  match chart.top with
  | none => ⟨chart, start, false, 0, 0⟩
  | some top =>
    let analyses := (top.labelsFor start).length
    ⟨chart, start, decide (0 < analyses), top.size, analyses⟩

def startLabels (a : Analysis) : List Label :=
  match a.chart.top with
  | none => []
  | some top => top.labelsFor a.start

def firstTree? (a : Analysis) : Option Tree :=
  a.startLabels.head?.map fun l => l.derivation.toTree 0

/-- One tree for each analysis, in the order they were found. -/
def trees (a : Analysis) : List Tree := a.startLabels.map fun l => l.derivation.toTree 0

def verdict (a : Analysis) : Verdict :=
  match a.firstTree? with
  | none => .noParse
  | some tree => .parsed tree a.recognition.labelCount a.recognition.analyses

end Analysis

namespace Parser

def ofGrammar (g : Grammar) : Except GrammarError Parser :=
  match h : Index.ofRules g.rules with
  | .error e => .error e
  | .ok ix => .ok ⟨g, ix, h⟩

def start (p : Parser) : String := p.grammar.start

def chart (p : Parser) (tokens : List String) : Chart := .fill p.index tokens

def analyze (p : Parser) (tokens : List String) : Analysis := .ofChart p.start (p.chart tokens)

def recognize (p : Parser) (tokens : List String) : Recognition := (p.analyze tokens).recognition

def parse (p : Parser) (tokens : List String) : Verdict := (p.analyze tokens).verdict

def parseAll (p : Parser) (tokens : List String) : List Tree := (p.analyze tokens).trees

end Parser

end PhraseChart
