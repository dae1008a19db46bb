import PhraseChart.Grammar.Error
import PhraseChart.Grammar.ParentTable

namespace PhraseChart

/-- The rules of a grammar by what stands on their right-hand side, one or two symbols. -/
structure Index where
  unary : ParentTable Symbol := {}
  binary : ParentTable (Symbol × Symbol) := {}
deriving DecidableEq, Repr

namespace Index

def add (ix : Index) (r : Rule) : Except GrammarError Index :=
  match r.body with
  | [child] => .ok { ix with unary := ix.unary.add child r.head }
  | [left, right] => .ok { ix with binary := ix.binary.add (left, right) r.head }
  | _ => .error (.badArity r)

/-- Fails at the first rule that has neither one nor two symbols. -/
def ofRules (rules : List Rule) : Except GrammarError Index := rules.foldlM add {}

/-- The heads of the rules whose right-hand side is the one symbol. -/
def unaryParents (ix : Index) (child : Symbol) : List String := ix.unary.parents child

/-- The heads of the rules whose right-hand side is the two symbols. -/
def binaryParents (ix : Index) (left right : Symbol) : List String :=
  ix.binary.parents (left, right)

end Index

end PhraseChart
