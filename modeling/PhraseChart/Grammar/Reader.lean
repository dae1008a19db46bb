import PhraseChart.Grammar.Basic
import PhraseChart.Grammar.Error
import PhraseChart.Text.Lines

namespace PhraseChart.Grammar

/-- The rules of numbered lines in order; the first line that cannot be read is the error. -/
def rulesOfLines (number : Nat) : List (List Char) → Except GrammarError (List Rule)
  | [] => .ok []
  | line :: rest =>
    match Line.rules line with
    | .error e => .error (.badLine number e)
    | .ok rules => (rulesOfLines (number + 1) rest).map (rules ++ ·)

/-- Lines are counted from one. -/
def readRules (text : String) : Except GrammarError (List Rule) :=
  rulesOfLines 1 (Text.lines text.toList)

/-- The head of the first rule is the start symbol. -/
def ofRules? : List Rule → Option Grammar
  | [] => none
  | first :: rest => some ⟨first.head, first :: rest⟩

def read (text : String) : Except GrammarError Grammar :=
  match readRules text with
  | .error e => .error e
  | .ok rules =>
    match ofRules? rules with
    | none => .error .noRules
    | some g => .ok g

/-- Reads the content of a file, which has to be UTF-8. -/
def ofFile : Except FileError ByteArray → Except GrammarError Grammar
  | .error e => .error (.unreadable e)
  | .ok bytes =>
    match String.fromUTF8? bytes with
    | none => .error (.unreadable .notText)
    | some text => read text

end PhraseChart.Grammar
