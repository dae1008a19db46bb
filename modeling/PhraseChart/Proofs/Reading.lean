import PhraseChart.Parser

namespace PhraseChart

theorem Cell.hasSymbol_iff {c : Cell} {s : Symbol} :
    c.hasSymbol s = true ↔ ∃ l ∈ c.labels, l.symbol = s := by
  rw [hasSymbol, ← Array.any_toList, List.any_eq_true]
  simp [labels]

namespace Analysis

@[simp] theorem chart_ofChart (start : String) (c : Chart) : (ofChart start c).chart = c := by
  rw [ofChart]
  split <;> rfl

@[simp] theorem start_ofChart (start : String) (c : Chart) : (ofChart start c).start = start := by
  rw [ofChart]
  split <;> rfl

theorem startLabels_ofChart (start : String) (c : Chart) :
    (ofChart start c).startLabels = c.top.elim [] fun top => top.labelsFor start := by
  rw [startLabels, chart_ofChart, start_ofChart]
  cases c.top <;> rfl

theorem analyses_ofChart (start : String) (c : Chart) :
    (ofChart start c).recognition.analyses = (ofChart start c).startLabels.length := by
  rw [startLabels_ofChart, ofChart]
  cases c.top <;> rfl

theorem accepted_ofChart (start : String) (c : Chart) :
    (ofChart start c).recognition.accepted =
      decide (0 < (ofChart start c).recognition.analyses) := by
  rw [ofChart]
  cases c.top <;> rfl

theorem labelCount_ofChart (start : String) (c : Chart) :
    (ofChart start c).recognition.labelCount = c.top.elim 0 Cell.size := by
  rw [ofChart]
  cases c.top <;> rfl

theorem tree?_verdict (a : Analysis) : a.verdict.tree? = a.firstTree? := by
  rw [verdict]
  split
  · rename_i h
    exact h.symm
  · rename_i h
    exact h.symm

theorem head?_trees (a : Analysis) : a.trees.head? = a.firstTree? := by
  rw [trees, firstTree?, List.head?_map]

end Analysis

end PhraseChart
