import PhraseChart.Grammar.Line

namespace PhraseChart

/-- Why a file gives no text. Failures of the operating system have a number, and failures of
reading a kind and a text; any other is known by the two forms it is shown in. -/
inductive FileError where
  | system (code : Int) (kind text : String)
  | reading (kind text : String)
  | other (text record : String)
deriving DecidableEq, Repr

namespace FileError

def notFound : FileError := system 2 "NotFound" "No such file or directory"

def isDirectory : FileError := system 21 "IsADirectory" "Is a directory"

def notText : FileError := reading "InvalidData" "stream did not contain valid UTF-8"

def message : FileError → String
  | system code _ text => text ++ " (os error " ++ toString code ++ ")"
  | reading _ text => text
  | other text _ => text

end FileError

/-- Why there is no grammar, or none that can be parsed with. -/
inductive GrammarError where
  | badLine (number : Nat) (cause : LineError)
  | noRules
  | badArity (rule : Rule)
  | unreadable (cause : FileError)
deriving DecidableEq, Repr

def GrammarError.message : GrammarError → String
  | .badLine number cause =>
    "grammar syntax error on line " ++ toString number ++ ": " ++ cause.message
  | .noRules => "empty ruleset"
  | .badArity rule =>
    "invalid grammar: rule `" ++ rule.text ++ "` has " ++ toString rule.arity
      ++ " right-hand side symbols, expected 1 or 2"
  | .unreadable cause => "couldn't read grammar file: " ++ cause.message

end PhraseChart
