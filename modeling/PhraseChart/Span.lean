namespace PhraseChart

/-- A stretch of tokens, from `start` up to but not including `stop`. -/
structure Span where
  start : Nat
  stop : Nat
deriving DecidableEq, Repr

def Span.text (s : Span) : String := toString s.start ++ ".." ++ toString s.stop

end PhraseChart
