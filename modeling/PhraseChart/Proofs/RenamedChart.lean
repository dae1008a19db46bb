import PhraseChart.Proofs.Renaming

namespace PhraseChart
open FirstOccurrences

namespace Renaming

variable {σ ρ : Renaming} {g : Grammar} {tokens u v : List String} {ix ix' : Index}

theorem headsOf_map (h : σ.Undoes ρ g tokens) {body : List Symbol}
    (hbody : ∀ x ∈ body, x.Known g tokens) :
    Rule.headsOf (body.map ρ.symbol) (ρ.grammar g).rules =
      (Rule.headsOf body g.rules).map ρ.name := by
  have hsame : ∀ r ∈ g.rules, (ρ.rule r).body = body.map ρ.symbol ↔ r.body = body := by
    intro r hr
    constructor
    · intro he
      have hr' : ∀ x ∈ r.body, x.Known g tokens := fun x hx => known_of_mem_body hr hx
      rw [← h.map_symbol hr', ← h.map_symbol hbody]
      exact congrArg (List.map σ.symbol) he
    · rintro rfl
      rfl
  rw [Rule.headsOf, Rule.headsOf, grammar, List.filter_map, List.map_map, List.map_map]
  congr 1
  apply List.filter_congr
  intro r hr
  exact decide_eq_decide.2 (hsame r hr)

theorem known_symbol {l : Label} (hl : l.Analyzes g.rules u) (hu : u ⊆ tokens) :
    l.symbol.Known g tokens := by
  rw [hl.symbol]
  exact known_root hl.follows (hl.tokens ▸ hu)

theorem label_inj (h : σ.Undoes ρ g tokens) {l m : Label} (hl : l.Analyzes g.rules u)
    (hm : m.Analyzes g.rules u) (hu : u ⊆ tokens) (he : ρ.label l = ρ.label m) : l = m := by
  apply hl.eq_of_derivation_eq hm
  rw [← h.derivation _ hl.follows (hl.tokens ▸ hu), (Label.mk.inj he).2,
    h.derivation _ hm.follows (hm.tokens ▸ hu)]

theorem eraseDups_map_label (h : σ.Undoes ρ g tokens) {ls : List Label}
    (hls : ∀ l ∈ ls, l.Analyzes g.rules u) (hu : u ⊆ tokens) :
    (ls.map ρ.label).eraseDups = ls.eraseDups.map ρ.label :=
  eraseDups_map fun l hl m hm he => label_inj h (hls l hl) (hls m hm) hu he

section Indexed

variable (h : σ.Undoes ρ g tokens) (hix : ix.Indexes g.rules)
  (hix' : ix'.Indexes (ρ.grammar g).rules)
include h hix hix'

theorem unaryParents_label {l : Label} (hl : l.Analyzes g.rules u) (hu : u ⊆ tokens) :
    ix'.unaryParents (ρ.label l).symbol = (ix.unaryParents l.symbol).map ρ.name := by
  rw [hix.unaryParents, hix'.unaryParents, ← headsOf_map h]
  · rfl
  · intro x hx
    rw [List.mem_singleton.1 hx]
    exact known_symbol hl hu

theorem binaryParents_label {l r : Label} (hl : l.Analyzes g.rules u) (hu : u ⊆ tokens)
    (hr : r.Analyzes g.rules v) (hv : v ⊆ tokens) :
    ix'.binaryParents (ρ.label l).symbol (ρ.label r).symbol =
      (ix.binaryParents l.symbol r.symbol).map ρ.name := by
  rw [hix.binaryParents, hix'.binaryParents, ← headsOf_map h]
  · rfl
  · intro x hx
    rcases List.mem_cons.1 hx with rfl | hx
    · exact known_symbol hl hu
    · rw [List.mem_singleton.1 hx]
      exact known_symbol hr hv

theorem wraps_label {l : Label} (hl : l.Analyzes g.rules u) (hu : u ⊆ tokens) :
    ix'.wraps (ρ.label l) = (ix.wraps l).map ρ.label := by
  have hchain : ∀ p ∈ ix.unaryParents l.symbol,
      (ρ.name p ∉ (ρ.label l).derivation.chain ↔ p ∉ l.derivation.chain) := by
    intro p hp
    rw [hix.unaryParents, Rule.mem_headsOf] at hp
    rw [label, chain_derivation, not_iff_not, List.mem_map]
    constructor
    · -- both heads stand in the grammar, so they were one before the renaming
      rintro ⟨p', hp', he⟩
      rwa [← h.name_inj (hasName_of_mem_chain hl.follows hl.acyclic hp') (hasName_head hp) he]
    · intro hp'
      exact ⟨p, hp', rfl⟩
  rw [Index.wraps, Index.wraps, unaryParents_label h hix hix' hl hu, List.filter_map, List.map_map,
    List.map_map]
  have hkeep : (ix.unaryParents l.symbol).filter
      ((fun p => decide (p ∉ (ρ.label l).derivation.chain)) ∘ ρ.name) =
      (ix.unaryParents l.symbol).filter fun p => p ∉ l.derivation.chain := by
    apply List.filter_congr
    intro p hp
    exact decide_eq_decide.2 (hchain p hp)
  rw [hkeep]
  rfl

theorem closure_label {l : Label} (hl : l.Analyzes g.rules u) (hu : u ⊆ tokens) :
    ix'.closure (ρ.label l) = (ix.closure l).map ρ.label := by
  rw [Index.closure_eq, Index.closure_eq, List.map_cons, wraps_label h hix hix' hl hu,
    List.flatMap_map, List.map_flatMap]
  congr 1
  apply List.flatMap_congr
  intro m hm
  exact closure_label (hl.wraps hix hm) hu
termination_by (ix.openHeads l.derivation).length
decreasing_by exact Index.length_openHeads_of_mem_wraps hm

theorem joins_label {ls rs : List Label} (hls : ∀ l ∈ ls, l.Analyzes g.rules u)
    (hu : u ⊆ tokens) (hrs : ∀ r ∈ rs, r.Analyzes g.rules v) (hv : v ⊆ tokens) :
    ix'.joins (ls.map ρ.label) (rs.map ρ.label) = (ix.joins ls rs).map ρ.label := by
  rw [Index.joins, Index.joins, List.flatMap_map, List.map_flatMap]
  apply List.flatMap_congr
  intro l hl
  rw [List.flatMap_map, List.map_flatMap]
  apply List.flatMap_congr
  intro r hr
  rw [binaryParents_label h hix hix' (hls l hl) hu (hrs r hr) hv, List.map_map, List.map_map]
  rfl

theorem enumeration_label_token {i : Nat} (hi : i < tokens.length) :
    ix'.enumeration (tokens.map ρ.word) ⟨i, i + 1⟩ =
      (ix.enumeration tokens ⟨i, i + 1⟩).map ρ.label := by
  have hget : tokens[i]? = some tokens[i] := List.getElem?_eq_getElem hi
  have hget' : (tokens.map ρ.word)[i]? = some (ρ.word tokens[i]) := by
    rw [List.getElem?_map, hget]
    rfl
  have hsub : [tokens[i]] ⊆ tokens := by
    rw [← Span.cover_token hget]
    exact Span.cover_subset ..
  have htoken : (Label.ofToken tokens[i]).Analyzes g.rules [tokens[i]] := .ofToken _
  rw [Index.enumeration_token ix hget, Index.enumeration_token ix' hget',
    ← eraseDups_map_label h (fun l hl => htoken.closure hix hl) hsub]
  congr 1
  exact closure_label h hix hix' htoken hsub

theorem flatMap_closure_label {ls : List Label} (hls : ∀ l ∈ ls, l.Analyzes g.rules u)
    (hu : u ⊆ tokens) :
    (ls.map ρ.label).flatMap ix'.closure = (ls.flatMap ix.closure).map ρ.label := by
  rw [List.flatMap_map, List.map_flatMap]
  apply List.flatMap_congr
  intro l hl
  exact closure_label h hix hix' (hls l hl) hu

/-- By induction on the length of the span, as the labels on both sides of a cut are renamed. -/
theorem enumeration_label {i k : Nat} (hik : i < k) (hk : k ≤ tokens.length) :
    ix'.enumeration (tokens.map ρ.word) ⟨i, k⟩ =
      (ix.enumeration tokens ⟨i, k⟩).map ρ.label := by
  by_cases hone : k = i + 1
  · subst hone
    exact enumeration_label_token h hix hix' hk
  -- only labels that follow the rules are sure to stay apart
  have hall : ∀ l ∈ ix.enumeration tokens ⟨i, k⟩,
      l.Analyzes g.rules (Span.cover ⟨i, k⟩ tokens) :=
    fun l hl => Index.analyzes_of_mem_enumeration hix hik hk hl
  rw [Index.enumeration_wide ix tokens hone] at hall ⊢
  rw [Index.enumeration_wide ix' _ hone, ← eraseDups_map_label h
    (fun l hl => hall l (List.mem_eraseDups.2 hl)) (Span.cover_subset ..), List.map_flatMap]
  congr 1
  apply List.flatMap_congr
  intro m hm
  obtain ⟨him, hmk⟩ : i < m ∧ m < k := Span.mem_middles.1 hm
  have hmn : m ≤ tokens.length := by omega
  have hleft : ∀ l ∈ ix.enumeration tokens ⟨i, m⟩,
      l.Analyzes g.rules (Span.cover ⟨i, m⟩ tokens) :=
    fun l hl => Index.analyzes_of_mem_enumeration hix him hmn hl
  have hright : ∀ r ∈ ix.enumeration tokens ⟨m, k⟩,
      r.Analyzes g.rules (Span.cover ⟨m, k⟩ tokens) :=
    fun r hr => Index.analyzes_of_mem_enumeration hix hmk hk hr
  rw [enumeration_label him hmn, enumeration_label hmk hk,
    joins_label h hix hix' hleft (Span.cover_subset ..) hright (Span.cover_subset ..)]
  apply flatMap_closure_label h hix hix' _ (Span.cover_subset ⟨i, k⟩ tokens)
  intro j hj
  obtain ⟨l, hl, r, hr, p, hp, rfl⟩ := Index.mem_joins.1 hj
  rw [← Span.cover_append (Nat.le_of_lt him) (Nat.le_of_lt hmk)]
  exact (hleft l hl).join hix (hright r hr) hp
termination_by k - i

theorem enumeration_label_whole :
    ix'.enumeration (tokens.map ρ.word) ⟨0, tokens.length⟩ =
      (ix.enumeration tokens ⟨0, tokens.length⟩).map ρ.label := by
  by_cases htokens : tokens = []
  · subst htokens
    rw [List.length_nil, Index.enumeration_empty, Index.enumeration_empty]
    rfl
  · exact enumeration_label h hix hix' (List.length_pos_iff.2 htokens) (Nat.le_refl _)

end Indexed

/-- The name `S` becomes the word `x`, every other name and every word becomes `S`. -/
def crossed : Renaming := ⟨fun name => if name = "S" then "x" else "S", fun _ => "S"⟩

end Renaming

namespace Parser

variable {σ ρ : Renaming} {p q : Parser} {tokens : List String}

theorem startLabels_renamed (hq : q.grammar = ρ.grammar p.grammar)
    (h : σ.Undoes ρ p.grammar tokens) :
    (q.analyze (tokens.map ρ.word)).startLabels =
      (p.analyze tokens).startLabels.map ρ.label := by
  have hix' : q.index.Indexes (ρ.grammar p.grammar).rules := hq ▸ q.indexes
  have hstart : q.start = ρ.name p.start := congrArg Grammar.start hq
  rw [startLabels_analyze, startLabels_analyze, List.length_map,
    Renaming.enumeration_label_whole h p.indexes hix', List.filter_map]
  congr 1
  apply List.filter_congr
  intro l hl
  have hknown : l.symbol.Known p.grammar tokens :=
    Renaming.known_symbol (Index.analyzes_of_mem_whole p.indexes hl) (List.Subset.refl _)
  apply decide_eq_decide.2
  rw [hstart]
  constructor
  · exact fun he => h.symbol_inj hknown (.inl rfl) he
  · exact fun he => congrArg ρ.symbol he

theorem parseAll_renamed (hq : q.grammar = ρ.grammar p.grammar)
    (h : σ.Undoes ρ p.grammar tokens) :
    q.parseAll (tokens.map ρ.word) = (p.parseAll tokens).map ρ.tree := by
  rw [parseAll, parseAll, Analysis.trees, Analysis.trees, startLabels_renamed hq h, List.map_map,
    List.map_map]
  apply List.map_congr_left
  intro l _
  exact ρ.toTree_derivation 0 l.derivation

theorem recognize_renamed (hq : q.grammar = ρ.grammar p.grammar)
    (h : σ.Undoes ρ p.grammar tokens) :
    q.recognize (tokens.map ρ.word) = p.recognize tokens := by
  have hix' : q.index.Indexes (ρ.grammar p.grammar).rules := hq ▸ q.indexes
  rw [recognize_eq, recognize_eq, startLabels_renamed hq h, List.length_map, List.length_map,
    Renaming.enumeration_label_whole h p.indexes hix', List.length_map]

/-- A renaming that keeps names apart and keeps words apart gives again a grammar with a parser.
The cells of its chart over the renamed tokens hold the renamed labels in their order, the numbers
are the same, and the parses are the renamed ones. -/
theorem chart_of_renamed (p : Parser) (tokens : List String) (ρ : Renaming)
    (h : ρ.Faithful p.grammar tokens) :
    ∃ q, Parser.ofGrammar (ρ.grammar p.grammar) = .ok q ∧
      (q.chart (tokens.map ρ.word)).size = (p.chart tokens).size ∧
      (∀ span, Chart.Covers tokens.length span → ∃ cell cell',
        (p.chart tokens).cell span = .ok cell ∧
        (q.chart (tokens.map ρ.word)).cell span = .ok cell' ∧
        cell'.labels = cell.labels.map ρ.label) ∧
      q.recognize (tokens.map ρ.word) = p.recognize tokens ∧
      q.parse (tokens.map ρ.word) = ρ.verdict (p.parse tokens) ∧
      q.parseAll (tokens.map ρ.word) = (p.parseAll tokens).map ρ.tree := by
  obtain ⟨q, hok, hq⟩ := exists_of_narrow (ρ.narrow_of_mem_grammar p.indexes.narrow)
  obtain ⟨σ, hσ⟩ := h.exists_undoes
  have hix' : q.index.Indexes (ρ.grammar p.grammar).rules := hq ▸ q.indexes
  refine ⟨q, hok, ?_, ?_, recognize_renamed hq hσ, ?_, parseAll_renamed hq hσ⟩
  · rw [chart, chart, Chart.size_fill, Chart.size_fill, List.length_map]
  · intro span hspan
    have hspan' : Chart.Covers (tokens.map ρ.word).length span := by
      rwa [List.length_map]
    refine ⟨_, _, cell_chart p hspan, cell_chart q hspan', ?_⟩
    rw [Cell.labels_finished, Cell.labels_finished]
    exact Renaming.enumeration_label hσ p.indexes hix' hspan.1 hspan.2
  · rw [parse_eq, parse_eq, parseAll_renamed hq hσ, recognize_renamed hq hσ, List.head?_map]
    cases (p.parseAll tokens).head? <;> rfl

theorem chart_of_renamed_crossed :
    Renaming.crossed.Faithful looped.grammar ["x", "x"] ∧ Chart.Covers 2 ⟨0, 2⟩ ∧
      ∃ q, Parser.ofGrammar ⟨"x", [⟨"x", [.nonterminal "S", .nonterminal "S"]⟩,
          ⟨"x", [.nonterminal "S"]⟩, ⟨"S", [.nonterminal "x"]⟩, ⟨"S", [.terminal "S"]⟩]⟩ =
            .ok q ∧
        q.recognize ["S", "S"] = ⟨true, 2, 1⟩ ∧
        (q.parse ["S", "S"]).text = "(x (S S) (S S))" ∧
        ∃ cell cell', (looped.chart ["x", "x"]).cell ⟨0, 2⟩ = .ok cell ∧
          (q.chart ["S", "S"]).cell ⟨0, 2⟩ = .ok cell' ∧
          cell'.labels = cell.labels.map Renaming.crossed.label := by
  have hspan : Chart.Covers 2 ⟨0, 2⟩ := by decide
  have hname : ∀ name, looped.grammar.HasName name → name = "S" ∨ name = "A" := by
    intro name h
    simp [Grammar.HasName, looped] at h
    grind
  have hfaithful : Renaming.crossed.Faithful looped.grammar ["x", "x"] := by
    constructor
    · intro m hm n hn he
      rcases hname m hm with rfl | rfl <;> rcases hname n hn with rfl | rfl <;>
        simp [Renaming.crossed] at he ⊢
    · intro v hv w hw _
      simp [Grammar.HasWord, looped] at hv hw
      grind
  obtain ⟨q, hq, -, hcells, hrecognize, hparse, -⟩ :=
    chart_of_renamed looped ["x", "x"] .crossed hfaithful
  have hlooped : looped.recognize ["x", "x"] = ⟨true, 2, 1⟩ := by decide +kernel
  have htext : (Renaming.crossed.verdict (looped.parse ["x", "x"])).text = "(x (S S) (S S))" := by
    decide +kernel
  exact ⟨hfaithful, hspan, q, hq, hrecognize.trans hlooped,
    (congrArg Verdict.text hparse).trans htext, hcells ⟨0, 2⟩ hspan⟩

end Parser

end PhraseChart
