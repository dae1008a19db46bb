import PhraseChart.Proofs.Agreement
import PhraseChart.Proofs.Restriction

namespace PhraseChart

theorem Derivation.Follows.mono {rules more : List Rule} (h : ∀ r ∈ rules, r ∈ more)
    {d : Derivation} (hd : d.Follows rules) : d.Follows more :=
  hd.imp fun _ _ hr => h _ hr

theorem Label.Analyzes.mono {rules more : List Rule} (h : ∀ r ∈ rules, r ∈ more)
    {tokens : List String} {l : Label} (hl : l.Analyzes rules tokens) : l.Analyzes more tokens :=
  ⟨hl.symbol, hl.tokens, hl.follows.mono h, hl.acyclic⟩

theorem Label.follows_congr {rules more : List Rule} (h : ∀ r, r ∈ rules ↔ r ∈ more) :
    Label.follows rules = Label.follows more := by
  funext l
  rw [Bool.eq_iff_iff, Label.follows_iff, Label.follows_iff]
  exact ⟨fun hl => hl.mono fun r hr => (h r).1 hr, fun hl => hl.mono fun r hr => (h r).2 hr⟩

namespace Index

variable {ix ix' : Index} {rules more : List Rule}

theorem enumeration_perm (hix : ix.Indexes rules) (hix' : ix'.Indexes more)
    (h : ∀ r, r ∈ rules ↔ r ∈ more) {tokens : List String} {i k : Nat} (hik : i < k)
    (hk : k ≤ tokens.length) :
    (ix.enumeration tokens ⟨i, k⟩).Perm (ix'.enumeration tokens ⟨i, k⟩) := by
  rw [List.perm_ext_iff_of_nodup (nodup_enumeration ..) (nodup_enumeration ..)]
  intro l
  rw [mem_enumeration_iff hix hik hk, mem_enumeration_iff hix' hik hk]
  exact ⟨fun hl => hl.mono fun r hr => (h r).1 hr, fun hl => hl.mono fun r hr => (h r).2 hr⟩

theorem enumeration_perm_whole (hix : ix.Indexes rules) (hix' : ix'.Indexes more)
    (h : ∀ r, r ∈ rules ↔ r ∈ more) (tokens : List String) :
    (ix.enumeration tokens ⟨0, tokens.length⟩).Perm
      (ix'.enumeration tokens ⟨0, tokens.length⟩) := by
  by_cases htokens : tokens = []
  · subst htokens
    rw [List.length_nil, enumeration_empty, enumeration_empty]
  · exact enumeration_perm hix hix' h (List.length_pos_iff.2 htokens) (Nat.le_refl _)

/-- All that an index lists follows its own rules, so the smaller of two lists that differ in
repetitions only gives all that the larger one gives. -/
theorem enumeration_eq_of_eraseDups_eq (hix : ix.Indexes rules) (hix' : ix'.Indexes more)
    (h : rules.eraseDups = more.eraseDups) (tokens : List String) (span : Span) :
    ix.enumeration tokens span = ix'.enumeration tokens span := by
  have hmem := FirstOccurrences.mem_iff_of_eraseDups_eq h
  rw [← filter_enumeration hix hix' (.of_eraseDups_eq h), Label.follows_congr hmem,
    filter_enumeration hix' hix' (.of_eraseDups_eq rfl)]

theorem enumeration_sublist_of_append {extra : List Rule} (hix : ix.Indexes rules)
    (hix' : ix'.Indexes (rules ++ extra)) (tokens : List String) (span : Span) :
    (ix.enumeration tokens span).Sublist (ix'.enumeration tokens span) := by
  rw [← filter_enumeration hix hix' (.append rules extra)]
  exact List.filter_sublist

end Index

namespace Parser

variable {p q : Parser}

theorem recognize_eq_of_perm (hstart : p.start = q.start) {tokens : List String}
    (h : (p.index.enumeration tokens ⟨0, tokens.length⟩).Perm
      (q.index.enumeration tokens ⟨0, tokens.length⟩)) :
    p.recognize tokens = q.recognize tokens := by
  have hlabels : (p.analyze tokens).startLabels.length = (q.analyze tokens).startLabels.length := by
    rw [startLabels_analyze, startLabels_analyze, hstart]
    exact (h.filter _).length_eq
  rw [recognize_eq, recognize_eq, hlabels, h.length_eq]

theorem startLabels_sublist (hstart : p.start = q.start) {tokens : List String}
    (h : (p.index.enumeration tokens ⟨0, tokens.length⟩).Sublist
      (q.index.enumeration tokens ⟨0, tokens.length⟩)) :
    (p.analyze tokens).startLabels.Sublist (q.analyze tokens).startLabels := by
  rw [startLabels_analyze, startLabels_analyze, hstart]
  exact h.filter _

/-- Parsers with the same start symbol and the same set of rules find the same labels and the same
numbers; if the rules also stand in the same order where they first come up, the labels do, too, and
the parses are the same. -/
theorem labels_of_same_rules (p q : Parser) (hstart : p.start = q.start) (tokens : List String) :
    ((∀ r, r ∈ p.grammar.rules ↔ r ∈ q.grammar.rules) →
      (∀ span, Chart.Covers tokens.length span → ∃ cell cell',
        (p.chart tokens).cell span = .ok cell ∧ (q.chart tokens).cell span = .ok cell' ∧
        ∀ l, l ∈ cell.labels ↔ l ∈ cell'.labels) ∧
      p.recognize tokens = q.recognize tokens) ∧
    (p.grammar.rules.eraseDups = q.grammar.rules.eraseDups →
      (∀ span, Chart.Covers tokens.length span → ∃ cell cell',
        (p.chart tokens).cell span = .ok cell ∧ (q.chart tokens).cell span = .ok cell' ∧
        cell.labels = cell'.labels) ∧
      p.recognize tokens = q.recognize tokens ∧
      p.parse tokens = q.parse tokens ∧ p.parseAll tokens = q.parseAll tokens) := by
  constructor
  · intro h
    refine ⟨?_, recognize_eq_of_perm hstart
      (Index.enumeration_perm_whole p.indexes q.indexes h tokens)⟩
    intro span hspan
    refine ⟨_, _, cell_chart p hspan, cell_chart q hspan, fun l => ?_⟩
    rw [Cell.labels_finished, Cell.labels_finished]
    exact (Index.enumeration_perm p.indexes q.indexes h hspan.1 hspan.2).mem_iff
  · intro h
    have hall := Index.enumeration_eq_of_eraseDups_eq p.indexes q.indexes h tokens
    have hrecognize : p.recognize tokens = q.recognize tokens :=
      recognize_eq_of_perm hstart (.of_eq (hall _))
    have htrees : p.parseAll tokens = q.parseAll tokens := by
      rw [parseAll, parseAll, Analysis.trees, Analysis.trees, startLabels_analyze,
        startLabels_analyze, hall, hstart]
    refine ⟨?_, hrecognize, ?_, htrees⟩
    · intro span hspan
      refine ⟨_, _, cell_chart p hspan, cell_chart q hspan, ?_⟩
      rw [Cell.labels_finished, Cell.labels_finished, hall]
    · rw [parse_eq, parse_eq, htrees, hrecognize]

/-- The rules of `looped`, with two of them repeated at the end in the other order. -/
def repeated : Parser where
  grammar := ⟨"S", looped.grammar.rules ++ [⟨"A", [.terminal "x"]⟩, ⟨"S", [.nonterminal "A"]⟩]⟩
  index :=
    { unary := ⟨[(.nonterminal "A", ["S", "S"]), (.nonterminal "S", ["A"]),
        (.terminal "x", ["A", "A"])]⟩
      binary := looped.index.binary }
  indexed := rfl

theorem labels_of_same_rules_repeated :
    looped.start = repeated.start ∧
      (∀ r, r ∈ looped.grammar.rules ↔ r ∈ repeated.grammar.rules) ∧
      looped.grammar.rules.eraseDups = repeated.grammar.rules.eraseDups ∧
      looped.recognize ["x", "x"] = repeated.recognize ["x", "x"] ∧
      looped.parseAll ["x", "x"] = repeated.parseAll ["x", "x"] ∧
      Chart.Covers 2 ⟨0, 2⟩ ∧
      ∃ cell cell', (looped.chart ["x", "x"]).cell ⟨0, 2⟩ = .ok cell ∧
        (repeated.chart ["x", "x"]).cell ⟨0, 2⟩ = .ok cell' ∧ cell.labels = cell'.labels := by
  have hdups : looped.grammar.rules.eraseDups = repeated.grammar.rules.eraseDups := by
    decide +kernel
  have hmem := FirstOccurrences.mem_iff_of_eraseDups_eq hdups
  have hspan : Chart.Covers 2 ⟨0, 2⟩ := by decide
  obtain ⟨hsame, horder⟩ := labels_of_same_rules looped repeated rfl ["x", "x"]
  obtain ⟨hcells, -, -, htrees⟩ := horder hdups
  exact ⟨rfl, hmem, hdups, (hsame hmem).2, htrees, hspan, hcells ⟨0, 2⟩ hspan⟩

/-- With narrow rules put at the end of the list there is again a parser. What its cells hold are
the labels from before, in their order, and possibly others; so are the trees, and no number gets
smaller. -/
theorem labels_of_more_rules (p : Parser) (extra : List Rule) (hextra : ∀ r ∈ extra, r.Narrow) :
    ∃ q, Parser.ofGrammar ⟨p.start, p.grammar.rules ++ extra⟩ = .ok q ∧ ∀ tokens,
      (∀ span, Chart.Covers tokens.length span → ∃ cell cell',
        (p.chart tokens).cell span = .ok cell ∧ (q.chart tokens).cell span = .ok cell' ∧
        cell.labels.Sublist cell'.labels) ∧
      ((p.recognize tokens).accepted = true → (q.recognize tokens).accepted = true) ∧
      (p.recognize tokens).labelCount ≤ (q.recognize tokens).labelCount ∧
      (p.recognize tokens).analyses ≤ (q.recognize tokens).analyses ∧
      (p.parseAll tokens).Sublist (q.parseAll tokens) := by
  have hnarrow : ∀ r ∈ p.grammar.rules ++ extra, r.Narrow := by
    intro r hr
    rcases List.mem_append.1 hr with hr | hr
    · exact p.indexes.narrow r hr
    · exact hextra r hr
  obtain ⟨q, hq, hgrammar⟩ := exists_of_narrow (g := ⟨p.start, p.grammar.rules ++ extra⟩) hnarrow
  have hindexes : q.index.Indexes (p.grammar.rules ++ extra) := by
    have h := q.indexes
    rwa [hgrammar] at h
  have hstart : p.start = q.start := by
    rw [start, start, hgrammar]
    rfl
  refine ⟨q, hq, fun tokens => ?_⟩
  have hsub := Index.enumeration_sublist_of_append p.indexes hindexes tokens
  have hlabels := startLabels_sublist hstart (hsub ⟨0, tokens.length⟩)
  have hanalyses := hlabels.length_le
  rw [recognize_eq, recognize_eq]
  refine ⟨?_, ?_, (hsub _).length_le, hanalyses, hlabels.map _⟩
  · intro span hspan
    refine ⟨_, _, cell_chart p hspan, cell_chart q hspan, ?_⟩
    rw [Cell.labels_finished, Cell.labels_finished]
    exact hsub span
  · intro haccepted
    exact decide_eq_true (Nat.lt_of_lt_of_le (of_decide_eq_true haccepted) hanalyses)

/-- The added rules repeat a rule, close a cycle on one name and make a second way to `A`. -/
theorem labels_of_more_rules_looped :
    (∀ r ∈ [⟨"A", [.terminal "x"]⟩, ⟨"S", [.nonterminal "S"]⟩,
        ⟨"A", [.terminal "x", .nonterminal "S"]⟩], Rule.Narrow r) ∧
      ∃ q, Parser.ofGrammar ⟨"S", looped.grammar.rules ++ [⟨"A", [.terminal "x"]⟩,
          ⟨"S", [.nonterminal "S"]⟩, ⟨"A", [.terminal "x", .nonterminal "S"]⟩]⟩ = .ok q ∧
        (q.recognize ["x", "x"]).accepted = true ∧ 2 ≤ (q.recognize ["x", "x"]).labelCount ∧
        (looped.parseAll ["x", "x"]).Sublist (q.parseAll ["x", "x"]) := by
  have hnarrow : ∀ r ∈ [⟨"A", [.terminal "x"]⟩, ⟨"S", [.nonterminal "S"]⟩,
      ⟨"A", [.terminal "x", .nonterminal "S"]⟩], Rule.Narrow r := by
    simp [Rule.Narrow, Rule.arity]
  obtain ⟨q, hq, hall⟩ := labels_of_more_rules looped _ hnarrow
  obtain ⟨-, haccepted, hcount, -, htrees⟩ := hall ["x", "x"]
  have hlooped : looped.recognize ["x", "x"] = ⟨true, 2, 1⟩ := by decide +kernel
  rw [hlooped] at haccepted hcount
  exact ⟨hnarrow, q, hq, haccepted rfl, hcount, htrees⟩

end Parser

end PhraseChart
