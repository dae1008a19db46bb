import PhraseChart.Symbol

namespace PhraseChart

/-- A start symbol and the rules in the order they were written. -/
structure Grammar where
  start : String
  rules : List Rule
deriving DecidableEq, Repr

namespace Grammar

/-- The names that head a rule, in code point order and each once. -/
def categories (g : Grammar) : List String :=
  ((g.rules.map Rule.head).mergeSort (· ≤ ·)).eraseReps

/-- The start symbol and the categories as comments, then one rule a line. -/
def text (g : Grammar) : String :=
  "# start: " ++ g.start ++ "\n# nonterminals:"
    ++ String.join (g.categories.map fun name => " " ++ name) ++ "\n"
    ++ String.join (g.rules.map fun r => r.text ++ "\n")

instance : ToString Grammar := ⟨text⟩

end Grammar

end PhraseChart
