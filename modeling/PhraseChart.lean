import PhraseChart.Trace
import PhraseChart.Main
import PhraseChart.Proofs.Language
import PhraseChart.Proofs.Agreement
import PhraseChart.Proofs.RoundTrip
import PhraseChart.Proofs.Saturation
import PhraseChart.Proofs.Locality
import PhraseChart.Proofs.Restriction
import PhraseChart.Proofs.RuleLists
import PhraseChart.Proofs.RenamedChart
import PhraseChart.Proofs.Counting
import PhraseChart.Proofs.CellLog
import PhraseChart.Proofs.Sources
import PhraseChart.Proofs.EventStream
import PhraseChart.Proofs.Tokens
import PhraseChart.Proofs.Brackets
import PhraseChart.Proofs.Conversation
import PhraseChart.Proofs.Output
import PhraseChart.Proofs.Additions
import PhraseChart.Proofs.Constituents
import PhraseChart.Proofs.Spacing
import PhraseChart.Proofs.Indentation
import PhraseChart.Proofs.CheckedFill
