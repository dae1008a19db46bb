import PhraseChart.Text.Lines
import PhraseChart.Tree.Basic

namespace PhraseChart.Tree

mutual

/-- Nested brackets on one line, without spans. -/
def bracketed : Tree → String
  | leaf word _ => word
  | branch name _ children => "(" ++ name ++ bracketedAll children ++ ")"

def bracketedAll : List Tree → String
  | [] => ""
  | t :: ts => " " ++ t.bracketed ++ bracketedAll ts

end

/-- The text line by line, each on a line of its own and two blanks further in. -/
def indented (text : String) : String :=
  String.join ((Text.lines text.toList).map fun line => "\n  " ++ String.ofList line)

/-- What a node shows of itself. -/
def caption (span : Span) (value : String) : String := span.text ++ ": " ++ value

mutual

/-- Nested brackets with spans. An only child stays on its parent's line, in brackets of its own;
other children stand below their parent and further in. -/
def outline : Tree → String
  | leaf word span => caption span word
  | branch name span [child] => "(" ++ caption span name ++ " (" ++ child.outline ++ "))"
  | branch name span children => "(" ++ caption span name ++ outlineAll children ++ ")"

def outlineAll : List Tree → String
  | [] => ""
  | t :: ts => indented t.outline ++ outlineAll ts

end

instance : ToString Tree := ⟨outline⟩

end PhraseChart.Tree
