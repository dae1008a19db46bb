import PhraseChart.Text.Shown
import PhraseChart.Text.WordChar

namespace PhraseChart

/-- What is looked up in tables of Unicode: the characters of words, and those that a quoted text
shows as they are. -/
structure CharTables where
  words : WordClass
  shown : Char → Bool

namespace CharTables

def unicode : CharTables where
  words :=
    { holds := Text.isWordChar
      isBlank_of_holds := Text.isBlank_of_isWordChar
      holds_hyphen := by decide +kernel
      holds_apostrophe := by decide +kernel }
  shown := Text.isShown

end CharTables

end PhraseChart
