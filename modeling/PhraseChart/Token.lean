import PhraseChart.Text.CharTables

namespace PhraseChart

namespace WordClass

variable (w : WordClass)

/-- Characters of a whole word: word characters and hyphens. -/
def isPart (c : Char) : Bool := c == '-' || w.holds c

/-- Characters of a run of punctuation: whatever is neither blank nor part of a word. -/
def isPunctuation (c : Char) : Bool := !w.isPart c && !Text.isBlank c

/-- Whether an apostrophe before this text opens a clitic. -/
def opensClitic : List Char → Bool
  | [] => false
  | c :: _ => w.holds c

/-- Words, clitics (an apostrophe and the word characters after it) and runs of punctuation, each
as long as it can be; blanks only separate. -/
def tokensOf : List Char → List (List Char)
  | [] => []
  | c :: cs =>
    if Text.isBlank c then tokensOf cs
    else if w.isPart c then (c :: cs.takeWhile w.isPart) :: tokensOf (cs.dropWhile w.isPart)
    else if c = '\'' ∧ w.opensClitic cs then
      (c :: cs.takeWhile w.holds) :: tokensOf (cs.dropWhile w.holds)
    else (c :: cs.takeWhile w.isPunctuation) :: tokensOf (cs.dropWhile w.isPunctuation)
termination_by s => s.length
decreasing_by
  · exact Nat.lt_succ_self _
  all_goals exact Nat.lt_succ_of_le (List.dropWhile_sublist _).length_le

/-- The tokens of a text, which are what the terminals of a grammar are matched against. -/
def tokenize (text : String) : List String := (w.tokensOf text.toList).map String.ofList

end WordClass

def tokenize (text : String) : List String := CharTables.unicode.words.tokenize text

end PhraseChart
