import PhraseChart.Proofs.Exactness
import PhraseChart.Proofs.Placement

namespace PhraseChart

/-- A parse tree of all the tokens for the start symbol, by rules of the grammar. -/
structure Tree.Parses (g : Grammar) (tokens : List String) (t : Tree) : Prop where
  root : t.root = .nonterminal g.start
  span : t.span = ⟨0, tokens.length⟩
  leaves : t.leaves = tokens
  branches : t.Everywhere fun name children =>
    (children.length = 1 ∨ children.length = 2) ∧ ⟨name, children.map Tree.root⟩ ∈ g.rules

/-- The numbers, the first tree and the verdict of an analysis say the same as its trees. -/
structure Analysis.Agrees (a : Analysis) : Prop where
  analyses : a.recognition.analyses = a.trees.length
  accepted : a.recognition.accepted = true ↔ 0 < a.recognition.analyses
  isSome : 0 < a.recognition.analyses ↔ a.firstTree?.isSome = true
  isParsed : a.firstTree?.isSome = true ↔ ∃ tree labelCount analyses,
    a.verdict = .parsed tree labelCount analyses
  firstTree : a.firstTree? = a.trees.head?
  verdict : a.verdict = a.trees.head?.elim .noParse fun tree =>
    .parsed tree a.recognition.labelCount a.recognition.analyses
  labelCount : a.recognition.labelCount = a.chart.top.elim 0 Cell.size
  analyses_le : a.recognition.analyses ≤ a.recognition.labelCount

namespace Analysis

theorem length_trees (a : Analysis) : a.trees.length = a.startLabels.length := List.length_map _

theorem verdict_eq (a : Analysis) :
    a.verdict = a.trees.head?.elim .noParse fun tree =>
      .parsed tree a.recognition.labelCount a.recognition.analyses := by
  rw [head?_trees, verdict]
  cases a.firstTree? <;> rfl

theorem isSome_firstTree? (a : Analysis) : a.firstTree?.isSome = true ↔ 0 < a.trees.length := by
  rw [← head?_trees, List.isSome_head?, List.length_pos_iff]

theorem exists_verdict_iff (a : Analysis) :
    (∃ tree labelCount analyses, a.verdict = .parsed tree labelCount analyses) ↔
      a.firstTree?.isSome = true := by
  rw [verdict_eq, head?_trees]
  cases a.firstTree? <;> simp

theorem agrees_ofChart (start : String) (c : Chart) : (ofChart start c).Agrees where
  analyses := by rw [analyses_ofChart, length_trees]
  accepted := by rw [accepted_ofChart, decide_eq_true_iff]
  isSome := by rw [analyses_ofChart, isSome_firstTree?, length_trees]
  isParsed := (exists_verdict_iff _).symm
  firstTree := (head?_trees _).symm
  verdict := verdict_eq _
  labelCount := by rw [labelCount_ofChart, chart_ofChart]
  analyses_le := by
    rw [analyses_ofChart, labelCount_ofChart, startLabels_ofChart]
    cases c.top with
    | none => exact Nat.le_refl _
    | some top => exact List.length_filter_le _ _

end Analysis

namespace Parser

theorem nodup_trees (p : Parser) (tokens : List String) : (p.analyze tokens).trees.Nodup := by
  apply List.Nodup.map_on
  · -- labels for one symbol are told apart by their derivations
    intro l hl m hm h
    obtain ⟨hl, _⟩ := (mem_startLabels_iff p).1 hl
    obtain ⟨hm, _⟩ := (mem_startLabels_iff p).1 hm
    have hd : l.derivation = m.derivation := Derivation.toTree_injective 0 h
    obtain ⟨s, d⟩ := l
    obtain ⟨s', d'⟩ := m
    rw [Label.mk.injEq]
    exact ⟨hl.trans hm.symm, hd⟩
  · rw [startLabels_analyze]
    exact (Index.nodup_enumeration ..).filter _

theorem parse_eq (p : Parser) (tokens : List String) :
    p.parse tokens = (p.parseAll tokens).head?.elim .noParse fun tree =>
      .parsed tree (p.recognize tokens).labelCount (p.recognize tokens).analyses :=
  Analysis.verdict_eq _

theorem width_of_mem_startLabels (p : Parser) {tokens : List String} {l : Label}
    (hl : l ∈ (p.analyze tokens).startLabels) : l.derivation.width = tokens.length := by
  obtain ⟨_, ha⟩ := (mem_startLabels_iff p).1 hl
  rw [← Derivation.length_tokens, ha.tokens]

/-- A sentence whose positions fit in a machine word has the trees that are counted out in one. -/
theorem map_toTree?_startLabels (p : Parser) {tokens : List String}
    (h : tokens.length < UInt64.size) :
    (p.analyze tokens).startLabels.map (fun l => l.derivation.toTree? 0) =
      (p.analyze tokens).trees.map some := by
  rw [Analysis.trees, List.map_map]
  apply List.map_congr_left
  intro l hl
  have hfits : (0 : UInt64).toNat + l.derivation.width < UInt64.size := by
    rwa [width_of_mem_startLabels p hl, UInt64.toNat_zero, Nat.zero_add]
  rw [Derivation.toTree?_eq, if_pos hfits]
  rfl

theorem parses_of_mem_trees (p : Parser) {tokens : List String} {t : Tree}
    (ht : t ∈ (p.analyze tokens).trees) : t.Parses p.grammar tokens := by
  obtain ⟨l, hl, rfl⟩ := List.mem_map.1 ht
  have hwidth := width_of_mem_startLabels p hl
  obtain ⟨hs, ha⟩ := (mem_startLabels_iff p).1 hl
  have hroot : l.derivation.root = .nonterminal p.start := ha.symbol.symm.trans hs
  refine ⟨(Derivation.root_toTree _ 0).trans hroot, ?_,
    (Derivation.leaves_toTree 0 _).trans ha.tokens, ?_⟩
  · rw [Derivation.span_toTree, hwidth, Nat.zero_add]
  · apply Derivation.Everywhere.toTree _ ha.follows
    intro head parts start hr
    have hnarrow := p.indexes.narrow _ hr
    rw [Derivation.length_toTrees, Derivation.map_root_toTrees]
    exact ⟨by simpa [Rule.Narrow, Rule.arity] using hnarrow, hr⟩

/-- All that a parser returns for a sentence goes back to one analysis, whose parts agree; the
label count is the size of the top cell, and the trees are different parse trees. -/
theorem results_agree (p : Parser) (tokens : List String) :
    p.recognize tokens = (p.analyze tokens).recognition ∧
    p.parse tokens = (p.analyze tokens).verdict ∧
    p.parseAll tokens = (p.analyze tokens).trees ∧
    (p.analyze tokens).Agrees ∧
    (p.recognize []).labelCount = 0 ∧
    (tokens ≠ [] → ∃ top, (p.chart tokens).cell ⟨0, tokens.length⟩ = .ok top ∧
      (p.recognize tokens).labelCount = top.size) ∧
    (p.parseAll tokens).Nodup ∧
    ∀ t ∈ p.parseAll tokens, t.Parses p.grammar tokens := by
  refine ⟨rfl, rfl, rfl, Analysis.agrees_ofChart .., rfl, ?_, nodup_trees p tokens,
    fun t ht => parses_of_mem_trees p ht⟩
  intro h
  refine ⟨_, cell_chart p ⟨List.length_pos_iff.2 h, Nat.le_refl _⟩, ?_⟩
  rw [recognize, analyze, Analysis.labelCount_ofChart, top_chart p h]
  rfl

theorem results_agree_looped :
    ["x", "x"] ≠ [] ∧
      (∃ top, (looped.chart ["x", "x"]).cell ⟨0, 2⟩ = .ok top ∧
        (looped.recognize ["x", "x"]).labelCount = top.size) ∧
      ∃ t, looped.parseAll ["x", "x"] = [t] ∧ t.bracketed = "(S (A x) (A x))" ∧
        t.Parses looped.grammar ["x", "x"] := by
  have htokens : ["x", "x"] ≠ [] := by decide
  obtain ⟨-, -, -, -, -, htop, -, hparses⟩ := results_agree looped ["x", "x"]
  have htrees : looped.parseAll ["x", "x"] = [.branch "S" ⟨0, 2⟩
      [.branch "A" ⟨0, 1⟩ [.leaf "x" ⟨0, 1⟩], .branch "A" ⟨1, 2⟩ [.leaf "x" ⟨1, 2⟩]]] := by
    decide +kernel
  refine ⟨htokens, htop htokens, _, htrees, by decide +kernel, hparses _ ?_⟩
  rw [htrees]
  exact List.mem_singleton_self _

end Parser

end PhraseChart
