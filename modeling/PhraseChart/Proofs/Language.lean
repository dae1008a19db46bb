import PhraseChart.Proofs.Exactness

namespace PhraseChart

/-- What the symbols of a grammar derive; nothing keeps a derivation from going round in cycles. -/
inductive Derives (rules : List Rule) : Symbol → List String → Prop
  | token (word : String) : Derives rules (.terminal word) [word]
  | unary {head : String} {x : Symbol} {w : List String} (rule : ⟨head, [x]⟩ ∈ rules)
      (part : Derives rules x w) : Derives rules (.nonterminal head) w
  | binary {head : String} {x y : Symbol} {u v : List String} (rule : ⟨head, [x, y]⟩ ∈ rules)
      (left : Derives rules x u) (right : Derives rules y v) :
      Derives rules (.nonterminal head) (u ++ v)

variable {rules : List Rule}

theorem Derivation.Follows.derives (hrules : ∀ r ∈ rules, r.Narrow) {d : Derivation}
    (h : d.Follows rules) : Derives rules d.root d.tokens := by
  induction h using Derivation.Follows.ind hrules with
  | word token => exact .token token
  | single head d hr _ ih =>
    rw [tokens_node_singleton]
    exact .unary hr ih
  | pair head d e hr _ _ ihd ihe =>
    rw [tokens_node_pair]
    exact .binary hr ihd ihe

namespace Derives

/-- Where a rule would repeat a head, the part that already has this head takes its place. -/
theorem exists_acyclic {x : Symbol} {w : List String} (h : Derives rules x w) :
    ∃ d : Derivation, d.root = x ∧ d.tokens = w ∧ d.Follows rules ∧ d.Acyclic := by
  induction h with
  | token word => exact ⟨.word word, rfl, rfl, .word word, .word word⟩
  | @unary head x w hr _ ih =>
    obtain ⟨d, rfl, rfl, hf, ha⟩ := ih
    by_cases hc : head ∈ d.chain
    · exact Derivation.exists_root_of_mem_chain hc hf ha
    · exact ⟨.node head [d], rfl, Derivation.tokens_node_singleton head d,
        Derivation.follows_singleton_iff.2 ⟨hr, hf⟩,
        Derivation.acyclic_singleton_iff.2 ⟨hc, ha⟩⟩
  | @binary head x y u v hr _ _ ihl ihr =>
    obtain ⟨d, rfl, rfl, hdf, hda⟩ := ihl
    obtain ⟨e, rfl, rfl, hef, hea⟩ := ihr
    exact ⟨.node head [d, e], rfl, Derivation.tokens_node_pair head d e,
      Derivation.follows_pair_iff.2 ⟨hr, hdf, hef⟩, Derivation.acyclic_pair_iff.2 ⟨hda, hea⟩⟩

end Derives

theorem Index.exists_mem_enumeration_iff {ix : Index} (hix : ix.Indexes rules)
    {tokens : List String} {i k : Nat} (hik : i < k) (hk : k ≤ tokens.length) (x : Symbol) :
    (∃ l ∈ ix.enumeration tokens ⟨i, k⟩, l.symbol = x) ↔
      Derives rules x (Span.cover ⟨i, k⟩ tokens) := by
  constructor
  · rintro ⟨l, hl, rfl⟩
    have ha := (mem_enumeration_iff hix hik hk).1 hl
    rw [ha.symbol, ← ha.tokens]
    exact ha.follows.derives hix.narrow
  · intro h
    obtain ⟨d, rfl, ht, hf, ha⟩ := h.exists_acyclic
    exact ⟨⟨d.root, d⟩, mem_enumeration_of_follows hix hik hk hf ha ht, rfl⟩

namespace Parser

/-- A cell has a symbol just when the symbol derives its tokens, and a sentence is accepted just
when the start symbol derives it; no sentence without tokens is. -/
theorem hasSymbol_iff_derives (p : Parser) (tokens : List String) :
    (∀ i k, i < k → k ≤ tokens.length → ∃ cell, (p.chart tokens).cell ⟨i, k⟩ = .ok cell ∧
      ∀ x, cell.hasSymbol x = true ↔ Derives p.grammar.rules x (tokens.extract i k)) ∧
    ((p.recognize tokens).accepted = true ↔
      Derives p.grammar.rules (.nonterminal p.start) tokens) ∧
    (p.recognize []).accepted = false := by
  refine ⟨?_, ?_, rfl⟩
  · intro i k hik hk
    refine ⟨_, cell_chart p ⟨hik, hk⟩, fun x => ?_⟩
    rw [Cell.hasSymbol_iff, Cell.labels_finished]
    exact Index.exists_mem_enumeration_iff p.indexes hik hk x
  · rw [recognize, analyze, Analysis.accepted_ofChart, Analysis.analyses_ofChart, ← analyze,
      decide_eq_true_iff, List.length_pos_iff_exists_mem]
    constructor
    · rintro ⟨l, hl⟩
      obtain ⟨hs, ha⟩ := (mem_startLabels_iff p).1 hl
      rw [← hs, ha.symbol, ← ha.tokens]
      exact ha.follows.derives p.indexes.narrow
    · intro h
      obtain ⟨d, hs, ht, hf, ha⟩ := h.exists_acyclic
      exact ⟨⟨d.root, d⟩, (mem_startLabels_iff p).2 ⟨hs, rfl, ht, hf, ha⟩⟩

theorem hasSymbol_iff_derives_looped :
    0 < 2 ∧ 2 ≤ ["x", "x"].length ∧
      (∃ cell, (looped.chart ["x", "x"]).cell ⟨0, 2⟩ = .ok cell ∧
        ∀ x, cell.hasSymbol x = true ↔
          Derives looped.grammar.rules x (["x", "x"].extract 0 2)) ∧
      Derives looped.grammar.rules (.nonterminal "S") ["x", "x"] := by
  have h := hasSymbol_iff_derives looped ["x", "x"]
  refine ⟨by decide, by decide, h.1 0 2 (by decide) (by decide), h.2.1.1 ?_⟩
  decide +kernel

end Parser

end PhraseChart
