import PhraseChart.Proofs.Agreement
import PhraseChart.Proofs.Nodes

namespace PhraseChart

/-- What stands in the middle of a stretch of tokens covers a span of its own. -/
theorem Span.eq_cover_of_append {i k : Nat} {tokens u v w : List String}
    (h : u ++ v ++ w = cover ⟨i, k⟩ tokens) :
    v = cover ⟨i + u.length, i + u.length + v.length⟩ tokens := by
  have hlength := congrArg List.length h
  simp only [cover, List.extract_eq_take_drop, List.length_append, List.length_take] at hlength
  have hfits : v.length ≤ k - i - u.length := by omega
  calc v = ((u ++ v ++ w).drop u.length).take v.length := by simp
    _ = (((tokens.drop i).take (k - i)).drop u.length).take v.length := by
      rw [h, cover, List.extract_eq_take_drop]
    _ = (tokens.drop (i + u.length)).take v.length := by
      rw [List.drop_take, List.take_take, List.drop_drop, Nat.min_eq_left hfits]
    _ = cover ⟨i + u.length, i + u.length + v.length⟩ tokens := by
      rw [cover, List.extract_eq_take_drop, Nat.add_sub_cancel_left]

namespace Derivation

variable {rules : List Rule} {tokens : List String} {d e : Derivation} {i n : Nat}

theorem tokensAll_eq_of_getElem? {ds : List Derivation} (h : ds[n]? = some e) :
    tokensAll ds = tokensAll (ds.take n) ++ e.tokens ++ tokensAll (ds.drop (n + 1)) := by
  obtain ⟨hn, rfl⟩ := List.getElem?_eq_some_iff.1 h
  rw [List.append_assoc, ← tokensAll, ← List.drop_eq_getElem_cons, ← tokensAll_append,
    List.take_append_drop]

theorem tokens_eq_of_part (h : d.parts[n]? = some e) :
    d.tokens = tokensAll (d.parts.take n) ++ e.tokens ++ tokensAll (d.parts.drop (n + 1)) := by
  cases d with
  | word token => simp [parts] at h
  | node head ds => exact tokensAll_eq_of_getElem? h

theorem Everywhere.part {P : String → List Derivation → Prop} (hd : d.Everywhere P)
    (h : d.parts[n]? = some e) : e.Everywhere P := by
  cases hd with
  | word token => simp [parts] at h
  | node _ below => exact below e (List.mem_of_getElem? h)

/-- A derivation of the tokens of the span that its tree has when it starts here. -/
structure Stands (rules : List Rule) (tokens : List String) (i : Nat) (d : Derivation) : Prop where
  follows : d.Follows rules
  acyclic : d.Acyclic
  tokens : d.tokens = Span.cover ⟨i, i + d.width⟩ tokens

namespace Stands

/-- A part covers what is left between the parts on both sides of it. -/
theorem part (h : d.Stands rules tokens i) (hpart : d.parts[n]? = some e) :
    e.Stands rules tokens (i + widthAll (d.parts.take n)) ∧
      i + widthAll (d.parts.take n) + e.width ≤ i + d.width := by
  have htokens := tokens_eq_of_part hpart
  have hcover := Span.eq_cover_of_append (htokens.symm.trans h.tokens)
  rw [length_tokensAll, length_tokens] at hcover
  refine ⟨⟨h.follows.part hpart, h.acyclic.part hpart, hcover⟩, ?_⟩
  have hwidth := congrArg List.length htokens
  simp only [List.length_append, length_tokens, length_tokensAll] at hwidth
  omega

/-- By induction on the way down. -/
theorem at? (h : d.Stands rules tokens i) {path : List Nat} {t : Tree}
    (ht : (d.toTree i).at? path = some t) :
    ∃ e k, d.at? path = some e ∧ t = e.toTree k ∧ e.Stands rules tokens k ∧ i ≤ k ∧
      k + e.width ≤ i + d.width := by
  induction path generalizing d i with
  | nil => exact ⟨d, i, rfl, (Option.some.inj ht).symm, h, Nat.le_refl _, Nat.le_refl _⟩
  | cons n path ih =>
    obtain ⟨e, hpart, ht⟩ := at?_toTree_cons ht
    obtain ⟨hstands, hle⟩ := h.part hpart
    obtain ⟨e', k, hat, ht, hstands', hik, hk⟩ := ih hstands ht
    refine ⟨e', k, (at?_cons_of_part path hpart).trans hat, ht, hstands', ?_, ?_⟩
    · exact Nat.le_trans (Nat.le_add_right _ _) hik
    · exact Nat.le_trans hk hle

theorem width_pos (hrules : ∀ r ∈ rules, r.Narrow) (h : d.Stands rules tokens i) :
    0 < d.width := by
  rw [← length_tokens]
  exact List.length_pos_iff.2 (tokens_ne_nil hrules h.follows)

end Stands

end Derivation

theorem Label.Analyzes.stands {rules : List Rule} {tokens : List String} {l : Label} {i k : Nat}
    (h : l.Analyzes rules (Span.cover ⟨i, k⟩ tokens)) (hik : i ≤ k) (hk : k ≤ tokens.length) :
    l.derivation.Stands rules tokens i ∧ i + l.derivation.width = k := by
  have hwidth : i + l.derivation.width = k := by
    rw [← Derivation.length_tokens, h.tokens, Span.length_cover hk]
    exact Nat.add_sub_cancel' hik
  refine ⟨⟨h.follows, h.acyclic, ?_⟩, hwidth⟩
  rw [hwidth]
  exact h.tokens

namespace Parser

variable {p : Parser} {tokens : List String} {d : Derivation} {i : Nat}

theorem mem_cell_of_stands (h : d.Stands p.grammar.rules tokens i)
    (hk : i + d.width ≤ tokens.length) :
    ∃ cell, (p.chart tokens).cell ⟨i, i + d.width⟩ = .ok cell ∧ ⟨d.root, d⟩ ∈ cell.labels := by
  have hik : i < i + d.width := Nat.lt_add_of_pos_right (h.width_pos p.indexes.narrow)
  refine ⟨_, cell_chart p ⟨hik, hk⟩, ?_⟩
  rw [Cell.labels_finished]
  exact Index.mem_enumeration_of_follows p.indexes hik hk h.follows h.acyclic h.tokens

theorem token_of_leaf (h : d.Stands p.grammar.rules tokens i) (hk : i + d.width ≤ tokens.length)
    {word : String} {span : Span} (hleaf : d.toTree i = .leaf word span) :
    span.stop = span.start + 1 ∧ tokens[span.start]? = some word := by
  cases d with
  | node head parts =>
    rw [Derivation.toTree_node] at hleaf
    cases hleaf
  | word token =>
    cases hleaf
    have hget : tokens[i]? = some tokens[i] := List.getElem?_eq_getElem hk
    have hcover : [word] = Span.cover ⟨i, i + 1⟩ tokens := h.tokens
    rw [Span.cover_token hget, List.singleton_inj] at hcover
    exact ⟨rfl, hcover ▸ hget⟩

/-- The nodes of a tree in a cell lie inside the span of the cell, the part at each node is a label
of the cell of the node's own span, and the leaves are the tokens at their positions. So all
constituents of the trees that are returned stand in the cells of their spans. -/
theorem constituents_in_cells (p : Parser) (tokens : List String) :
    (∀ i k, i < k → k ≤ tokens.length → ∃ cell, (p.chart tokens).cell ⟨i, k⟩ = .ok cell ∧
      ∀ x d, ⟨x, d⟩ ∈ cell.labels → ∀ path t, (d.toTree i).at? path = some t →
        (i ≤ t.span.start ∧ t.span.start < t.span.stop ∧ t.span.stop ≤ k) ∧
        (∃ e part, d.at? path = some e ∧ t = e.toTree t.span.start ∧
          (p.chart tokens).cell t.span = .ok part ∧ ⟨e.root, e⟩ ∈ part.labels) ∧
        ∀ word span, t = .leaf word span →
          span.stop = span.start + 1 ∧ tokens[span.start]? = some word) ∧
    ∀ t ∈ p.parseAll tokens, ∀ path u, t.at? path = some u →
      ∃ cell, (p.chart tokens).cell u.span = .ok cell ∧ ⟨u.root, u.derivation⟩ ∈ cell.labels := by
  constructor
  · intro i k hik hk
    refine ⟨_, cell_chart p ⟨hik, hk⟩, fun x d hl path t ht => ?_⟩
    rw [Cell.labels_finished, Index.mem_enumeration_iff p.indexes hik hk] at hl
    obtain ⟨hstands, rfl⟩ := hl.stands (Nat.le_of_lt hik) hk
    obtain ⟨e, start, hat, rfl, hpart, hstart, hstop⟩ := hstands.at? ht
    have hfits : start + e.width ≤ tokens.length := Nat.le_trans hstop hk
    obtain ⟨cell, hcell, hmem⟩ := mem_cell_of_stands hpart hfits
    have hpos := hpart.width_pos p.indexes.narrow
    rw [Derivation.span_toTree]
    exact ⟨⟨hstart, Nat.lt_add_of_pos_right hpos, hstop⟩, ⟨e, cell, hat, rfl, hcell, hmem⟩,
      fun word span => token_of_leaf hpart hfits⟩
  · intro t ht path u hu
    obtain ⟨l, hl, rfl⟩ := List.mem_map.1 ht
    obtain ⟨-, ha⟩ := (mem_startLabels_iff p).1 hl
    rw [← Span.cover_all tokens] at ha
    obtain ⟨hstands, hwidth⟩ := ha.stands (Nat.zero_le _) (Nat.le_refl _)
    obtain ⟨e, start, -, rfl, hpart, -, hstop⟩ := hstands.at? hu
    have hfits : start + e.width ≤ tokens.length := Nat.le_trans hstop (Nat.le_of_eq hwidth)
    rw [Derivation.span_toTree, Derivation.root_toTree, Derivation.derivation_toTree]
    exact mem_cell_of_stands hpart hfits

/-- The second half of the sentence, below two nodes that cover all of it. -/
theorem constituents_in_cells_looped :
    0 < 2 ∧ 2 ≤ ["x", "x"].length ∧
      ∃ cell, (looped.chart ["x", "x"]).cell ⟨0, 2⟩ = .ok cell ∧
        ∃ d, ⟨.nonterminal "A", d⟩ ∈ cell.labels ∧
          (d.toTree 0).at? [0, 1] = some (.branch "A" ⟨1, 2⟩ [.leaf "x" ⟨1, 2⟩]) ∧
          (∃ e part, d.at? [0, 1] = some e ∧
            .branch "A" ⟨1, 2⟩ [.leaf "x" ⟨1, 2⟩] = e.toTree 1 ∧
            (looped.chart ["x", "x"]).cell ⟨1, 2⟩ = .ok part ∧ ⟨e.root, e⟩ ∈ part.labels) ∧
          (d.toTree 0).at? [0, 1, 0] = some (.leaf "x" ⟨1, 2⟩) ∧ ["x", "x"][1]? = some "x" ∧
          ∃ t ∈ looped.parseAll ["x", "x"],
            t.at? [1] = some (.branch "A" ⟨1, 2⟩ [.leaf "x" ⟨1, 2⟩]) ∧
            ∃ part, (looped.chart ["x", "x"]).cell ⟨1, 2⟩ = .ok part ∧
              ⟨.nonterminal "A", .node "A" [.word "x"]⟩ ∈ part.labels := by
  have hspan : Chart.Covers ["x", "x"].length ⟨0, 2⟩ := by decide
  obtain ⟨hcells, htrees⟩ := constituents_in_cells looped ["x", "x"]
  obtain ⟨cell, hcell, hnodes⟩ := hcells 0 2 hspan.1 hspan.2
  obtain rfl := Except.ok.inj ((cell_chart looped hspan).symm.trans hcell)
  let half : Derivation := .node "A" [.word "x"]
  have hlabel : ⟨.nonterminal "A", .node "A" [.node "S" [half, half]]⟩ ∈
      (Cell.finished looped.index ["x", "x"] ⟨0, 2⟩).labels := by decide +kernel
  have hbranch : ((Derivation.node "A" [.node "S" [half, half]]).toTree 0).at? [0, 1] =
      some (.branch "A" ⟨1, 2⟩ [.leaf "x" ⟨1, 2⟩]) := by decide
  have hleaf : ((Derivation.node "A" [.node "S" [half, half]]).toTree 0).at? [0, 1, 0] =
      some (.leaf "x" ⟨1, 2⟩) := by decide
  have htree : (Derivation.node "S" [half, half]).toTree 0 ∈ looped.parseAll ["x", "x"] := by
    decide +kernel
  have hpart : ((Derivation.node "S" [half, half]).toTree 0).at? [1] =
      some (.branch "A" ⟨1, 2⟩ [.leaf "x" ⟨1, 2⟩]) := by decide
  exact ⟨hspan.1, hspan.2, _, hcell, _, hlabel, hbranch, (hnodes _ _ hlabel _ _ hbranch).2.1,
    hleaf, ((hnodes _ _ hlabel _ _ hleaf).2.2 _ _ rfl).2, _, htree, hpart,
    htrees _ htree _ _ hpart⟩

end Parser

end PhraseChart
