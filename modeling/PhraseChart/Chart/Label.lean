import PhraseChart.Derivation

namespace PhraseChart

/-- A symbol and one way to derive it. Each derivation of a symbol makes a label of its own. -/
structure Label where
  symbol : Symbol
  derivation : Derivation
deriving DecidableEq, Repr

namespace Label

def ofToken (token : String) : Label := ⟨.terminal token, .word token⟩

/-- What a rule with this head makes of the derivations of its right-hand side. -/
def ofRule (head : String) (parts : List Derivation) : Label :=
  ⟨.nonterminal head, .node head parts⟩

theorem ofRule_inj {head head' : String} {parts parts' : List Derivation} :
    ofRule head parts = ofRule head' parts' ↔ head = head' ∧ parts = parts' := by
  simp [ofRule]

theorem ofRule_singleton_inj {head head' : String} {part part' : Derivation} :
    ofRule head [part] = ofRule head' [part'] ↔ head = head' ∧ part = part' := by
  simp [ofRule]

theorem ofRule_pair_inj {head head' : String} {left left' right right' : Derivation} :
    ofRule head [left, right] = ofRule head' [left', right'] ↔
      head = head' ∧ left = left' ∧ right = right' := by
  simp [ofRule]

def isFor (l : Label) (name : String) : Bool := l.symbol = .nonterminal name

def text (l : Label) : String := l.symbol.text ++ ": " ++ l.derivation.text

instance : ToString Label := ⟨text⟩

end Label

end PhraseChart
