import PhraseChart.Text.Blank

namespace PhraseChart

/-- The characters that words are made of. Which ones they are is for the tables of Unicode to say,
but blanks, the hyphen and the apostrophe are not among them. -/
structure WordClass where
  holds : Char → Bool
  isBlank_of_holds : ∀ {c : Char}, holds c = true → Text.isBlank c = false
  holds_hyphen : holds '-' = false
  holds_apostrophe : holds '\'' = false

end PhraseChart
