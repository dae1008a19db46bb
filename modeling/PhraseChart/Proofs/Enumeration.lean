import PhraseChart.Proofs.Closure
import PhraseChart.Proofs.Finished
import PhraseChart.Proofs.Indexing
import PhraseChart.Proofs.Reading

namespace PhraseChart
open FirstOccurrences

namespace Index

/-- What the binary rules make of two lists of labels that stand side by side. -/
def joins (ix : Index) (ls rs : List Label) : List Label :=
  ls.flatMap fun l => rs.flatMap fun r =>
    (ix.binaryParents l.symbol r.symbol).map fun p => .ofRule p [l.derivation, r.derivation]

theorem mem_joins {ix : Index} {ls rs : List Label} {x : Label} :
    x ∈ ix.joins ls rs ↔ ∃ l ∈ ls, ∃ r ∈ rs, ∃ p ∈ ix.binaryParents l.symbol r.symbol,
      .ofRule p [l.derivation, r.derivation] = x := by
  simp [joins]

theorem map_label_all (ix : Index) (left right : Cell) :
    (Join.all ix left right).map Join.label = ix.joins left.labels right.labels := by
  simp [Join.all, joins, List.map_flatMap, Join.label, Function.comp_def]

/-- The labels of a span in the order in which they are found. -/
def enumeration (ix : Index) (tokens : List String) (span : Span) : List Label :=
  if span.stop = span.start + 1 then
    (tokens[span.start]?.toList.flatMap fun token => ix.closure (.ofToken token)).eraseDups
  else
    (span.middles.attach.flatMap fun m =>
      (ix.joins (ix.enumeration tokens ⟨span.start, m.1⟩)
        (ix.enumeration tokens ⟨m.1, span.stop⟩)).flatMap ix.closure).eraseDups
termination_by span.stop - span.start
decreasing_by
  all_goals
    have := Span.mem_middles.1 m.2
    omega

theorem enumeration_token (ix : Index) {tokens : List String} {k : Nat} {token : String}
    (h : tokens[k]? = some token) :
    ix.enumeration tokens ⟨k, k + 1⟩ = (ix.closure (.ofToken token)).eraseDups := by
  rw [enumeration, if_pos rfl, h, Option.toList_some, List.flatMap_singleton]

theorem enumeration_wide (ix : Index) (tokens : List String) {span : Span}
    (h : span.stop ≠ span.start + 1) :
    ix.enumeration tokens span =
      (span.middles.flatMap fun m =>
        (ix.joins (ix.enumeration tokens ⟨span.start, m⟩)
          (ix.enumeration tokens ⟨m, span.stop⟩)).flatMap ix.closure).eraseDups := by
  rw [enumeration, if_neg h, List.flatMap_subtype (g := fun m =>
    (ix.joins (ix.enumeration tokens ⟨span.start, m⟩)
      (ix.enumeration tokens ⟨m, span.stop⟩)).flatMap ix.closure) fun _ _ => rfl,
    List.unattach_attach]

theorem enumeration_empty (ix : Index) (tokens : List String) (k : Nat) :
    ix.enumeration tokens ⟨k, k⟩ = [] := by
  rw [enumeration_wide ix tokens (Nat.ne_of_lt (Nat.lt_succ_self k))]
  simp [Span.middles]

theorem nodup_enumeration (ix : Index) (tokens : List String) (span : Span) :
    (ix.enumeration tokens span).Nodup := by
  unfold enumeration
  split <;> exact nodup_eraseDups _

end Index

namespace Cell

theorem labels_foldl_note (steps : List Step) (c : Cell) :
    (steps.foldl note c).labels = c.labels := by
  induction steps generalizing c with
  | nil => rfl
  | cons s steps ih => exact ih (c.note s)

/-- Adding what comes of a cut adds the closures of all that the binary rules make of it. -/
theorem labels_addJoins {ix : Index} {c : Cell} (middle : Nat) (left right : Cell)
    (hc : c.labels.Nodup) (h : ix.ClosedFrom 0 c.labels) :
    (c.addJoins ix middle (Join.all ix left right)).labels =
      (c.labels ++ (ix.joins left.labels right.labels).flatMap ix.closure).eraseDups := by
  have hnote : ((Join.all ix left right).foldl (fun c j => c.note (j.step middle)) c).labels =
      c.labels := by
    rw [← List.foldl_map (g := note), labels_foldl_note]
  rw [addJoins, labels_foldl (g := fun j => ix.closure j.label) (P := ix.ClosedFrom 0),
    hnote, ← Index.map_label_all, List.flatMap_map]
  · intro j _ d hd hk
    exact labels_add hd (hk.mono (Nat.zero_le _))
  · intro j _ ls hls
    exact (hls.append (.closure _)).eraseDups
  · rwa [hnote]
  · rwa [hnote]

theorem labels_seeded_wide (ix : Index) (tokens : List String) {span : Span}
    (h : span.stop ≠ span.start + 1) : (seeded ix tokens span).labels = [] := by
  rw [seeded, if_neg h]
  rfl

theorem labels_finished (ix : Index) (tokens : List String) (span : Span) :
    (finished ix tokens span).labels = ix.enumeration tokens span := by
  rw [finished_eq]
  by_cases hone : span.stop = span.start + 1
  · -- a span of one token has no cuts
    have hcuts : span.splits = [] := by simp [Span.splits, Span.middles, hone]
    rw [hcuts, List.foldl_nil, seeded, if_pos hone, Index.enumeration, if_pos hone]
    cases tokens[span.start]? with
    | none => rfl
    | some token =>
      rw [Option.toList_some, List.flatMap_singleton]
      exact labels_add List.nodup_nil .nil
  · have hnil := labels_seeded_wide ix tokens hone
    rw [labels_foldl (g := fun s => (ix.joins (finished ix tokens s.left).labels
        (finished ix tokens s.right).labels).flatMap ix.closure) (P := ix.ClosedFrom 0),
      hnil, List.nil_append, Index.enumeration_wide ix tokens hone, Span.splits, List.flatMap_map]
    · congr 1
      apply List.flatMap_congr
      intro m hm
      have := Span.mem_middles.1 hm
      rw [Split.left, Split.right, labels_finished, labels_finished]
    · intro s _ c hc hk
      exact labels_addJoins _ _ _ hc hk
    · intro s _ ls hls
      exact (hls.append (.flatMap _ fun _ _ => .closure _)).eraseDups
    · rw [hnil]
      exact List.nodup_nil
    · rw [hnil]
      exact .nil
termination_by span.stop - span.start

end Cell

namespace Parser

/-- A parser whose names `S` and `A` derive each other, also around a node with two parts. -/
def looped : Parser where
  grammar := ⟨"S", [⟨"S", [.nonterminal "A", .nonterminal "A"]⟩, ⟨"S", [.nonterminal "A"]⟩,
    ⟨"A", [.nonterminal "S"]⟩, ⟨"A", [.terminal "x"]⟩]⟩
  index :=
    { unary := ⟨[(.nonterminal "A", ["S"]), (.nonterminal "S", ["A"]), (.terminal "x", ["A"])]⟩
      binary := ⟨[((.nonterminal "A", .nonterminal "A"), ["S"])]⟩ }
  indexed := rfl

theorem cell_chart (p : Parser) {tokens : List String} {span : Span}
    (h : Chart.Covers tokens.length span) :
    (p.chart tokens).cell span = .ok (.finished p.index tokens span) := by
  rw [chart, Chart.cell_fill, if_pos h]

theorem top_chart (p : Parser) {tokens : List String} (h : tokens ≠ []) :
    (p.chart tokens).top = some (.finished p.index tokens ⟨0, tokens.length⟩) := by
  rw [Chart.top, chart, Chart.size_fill, ← chart,
    cell_chart p ⟨List.length_pos_iff.2 h, Nat.le_refl _⟩]
  rfl

theorem top_chart_nil (p : Parser) : (p.chart []).top = none := rfl

theorem startLabels_analyze (p : Parser) (tokens : List String) :
    (p.analyze tokens).startLabels =
      (p.index.enumeration tokens ⟨0, tokens.length⟩).filter fun l =>
        l.symbol = .nonterminal p.start := by
  rw [analyze, Analysis.startLabels_ofChart]
  by_cases h : tokens = []
  · subst h
    rw [top_chart_nil, List.length_nil, Index.enumeration_empty]
    rfl
  · rw [top_chart p h, Option.elim_some, Cell.labelsFor, Cell.labels_finished]
    rfl

/-- The numbers that are returned count the labels of the whole sentence. -/
theorem recognize_eq (p : Parser) (tokens : List String) :
    p.recognize tokens =
      { accepted := decide (0 < (p.analyze tokens).startLabels.length)
        labelCount := (p.index.enumeration tokens ⟨0, tokens.length⟩).length
        analyses := (p.analyze tokens).startLabels.length } := by
  have hanalyses : (p.recognize tokens).analyses = (p.analyze tokens).startLabels.length :=
    Analysis.analyses_ofChart ..
  have haccepted : (p.recognize tokens).accepted =
      decide (0 < (p.analyze tokens).startLabels.length) := by
    rw [← hanalyses]
    exact Analysis.accepted_ofChart ..
  have hlabels : (p.recognize tokens).labelCount =
      (p.index.enumeration tokens ⟨0, tokens.length⟩).length := by
    rw [recognize, analyze, Analysis.labelCount_ofChart]
    by_cases h : tokens = []
    · subst h
      rw [top_chart_nil, List.length_nil, Index.enumeration_empty]
      rfl
    · rw [top_chart p h, ← Cell.labels_finished, Cell.labels, Array.length_toList]
      rfl
  rw [← haccepted, ← hanalyses, ← hlabels]

/-- The chart holds the enumerated labels, in their order; the first of them for the start symbol
is the one whose tree is the parse, and those for the start symbol give all the trees. -/
theorem chart_lists_enumeration (p : Parser) (tokens : List String) :
    (∀ x, p.index.unaryParents x = Rule.headsOf [x] p.grammar.rules) ∧
    (∀ x y, p.index.binaryParents x y = Rule.headsOf [x, y] p.grammar.rules) ∧
    (∀ span, Chart.Covers tokens.length span → ∃ cell, (p.chart tokens).cell span = .ok cell ∧
      cell.labels = p.index.enumeration tokens span) ∧
    (p.parse tokens).tree? =
      ((p.index.enumeration tokens ⟨0, tokens.length⟩).find? fun l =>
        l.symbol = .nonterminal p.start).map (fun l => l.derivation.toTree 0) ∧
    p.parseAll tokens =
      ((p.index.enumeration tokens ⟨0, tokens.length⟩).filter fun l =>
        l.symbol = .nonterminal p.start).map (fun l => l.derivation.toTree 0) := by
  refine ⟨p.indexes.unaryParents, p.indexes.binaryParents, ?_, ?_, ?_⟩
  · intro span h
    exact ⟨_, cell_chart p h, Cell.labels_finished p.index tokens span⟩
  · rw [parse, Analysis.tree?_verdict, Analysis.firstTree?, startLabels_analyze,
      List.head?_filter]
  · rw [parseAll, Analysis.trees, startLabels_analyze]

theorem chart_lists_enumeration_looped :
    Chart.Covers 2 ⟨0, 2⟩ ∧
      (∃ cell, (looped.chart ["x", "x"]).cell ⟨0, 2⟩ = .ok cell ∧
        cell.labels = looped.index.enumeration ["x", "x"] ⟨0, 2⟩) ∧
      (looped.index.enumeration ["x", "x"] ⟨0, 2⟩).map Label.text =
        ["S: (S (A x) (A x))", "A: (A (S (A x) (A x)))"] := by
  have hspan : Chart.Covers 2 ⟨0, 2⟩ := by decide
  refine ⟨hspan, (chart_lists_enumeration looped ["x", "x"]).2.2.1 ⟨0, 2⟩ hspan, ?_⟩
  decide +kernel

end Parser

end PhraseChart
