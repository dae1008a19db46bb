import PhraseChart.Proofs.Derivations
import PhraseChart.Proofs.Enumeration

namespace PhraseChart

namespace Span

/-- The tokens that stand in a span. -/
def cover (s : Span) (tokens : List String) : List String := tokens.extract s.start s.stop

theorem cover_token {tokens : List String} {k : Nat} {token : String}
    (h : tokens[k]? = some token) : cover ⟨k, k + 1⟩ tokens = [token] := by
  obtain ⟨hk, rfl⟩ := List.getElem?_eq_some_iff.1 h
  simp [cover, List.extract_eq_take_drop, List.take_one, List.head?_drop, hk]

theorem cover_append {i m k : Nat} (him : i ≤ m) (hmk : m ≤ k) (tokens : List String) :
    cover ⟨i, m⟩ tokens ++ cover ⟨m, k⟩ tokens = cover ⟨i, k⟩ tokens := by
  simp only [cover, List.extract_eq_take_drop]
  have hlen : k - i = (m - i) + (k - m) := by omega
  have hdrop : m = i + (m - i) := by omega
  rw [hlen, List.take_add, List.drop_drop, ← hdrop]

theorem length_cover {s : Span} {tokens : List String} (h : s.stop ≤ tokens.length) :
    (s.cover tokens).length = s.stop - s.start := by
  simp [cover, List.extract_eq_take_drop]
  omega

theorem stop_eq_of_cover_eq {i m m' : Nat} {tokens : List String} (him : i ≤ m) (him' : i ≤ m')
    (hm : m ≤ tokens.length) (hm' : m' ≤ tokens.length)
    (h : cover ⟨i, m⟩ tokens = cover ⟨i, m'⟩ tokens) : m = m' := by
  have hlen := congrArg List.length h
  rw [length_cover hm, length_cover hm'] at hlen
  dsimp only at hlen
  omega

/-- Two lists of tokens that fill a span stand on both sides of a cut. -/
theorem exists_cut {i k : Nat} {tokens u v : List String} (hk : k ≤ tokens.length)
    (hik : i < k) (h : u ++ v = cover ⟨i, k⟩ tokens) (hu : u ≠ []) (hv : v ≠ []) :
    ∃ m, i < m ∧ m < k ∧ u = cover ⟨i, m⟩ tokens ∧ v = cover ⟨m, k⟩ tokens := by
  have hlen := congrArg List.length h
  have hupos := List.length_pos_iff.2 hu
  have hvpos := List.length_pos_iff.2 hv
  rw [length_cover hk, List.length_append] at hlen
  dsimp only at hlen
  obtain ⟨m, hm⟩ : ∃ m, m = i + u.length := ⟨_, rfl⟩
  have him : i < m := by omega
  have hmk : m < k := by omega
  have hmn : m ≤ tokens.length := by omega
  have hleft : (cover ⟨i, m⟩ tokens).length = m - i := length_cover hmn
  rw [← cover_append (Nat.le_of_lt him) (Nat.le_of_lt hmk)] at h
  obtain ⟨hu, hv⟩ := List.append_inj h (by omega)
  exact ⟨m, him, hmk, hu, hv⟩

theorem cover_all (tokens : List String) : cover ⟨0, tokens.length⟩ tokens = tokens := by
  simp [cover, List.extract_eq_take_drop]

theorem cover_subset (s : Span) (tokens : List String) : s.cover tokens ⊆ tokens := by
  intro token h
  rw [cover, List.extract_eq_take_drop] at h
  exact List.mem_of_mem_drop (List.mem_of_mem_take h)

end Span

/-- An acyclic derivation of the tokens that follows the rules, under the symbol at its root. -/
structure Label.Analyzes (rules : List Rule) (tokens : List String) (l : Label) : Prop where
  symbol : l.symbol = l.derivation.root
  tokens : l.derivation.tokens = tokens
  follows : l.derivation.Follows rules
  acyclic : l.derivation.Acyclic

namespace Label.Analyzes

variable {rules : List Rule} {u v : List String} {ix : Index} {l r m : Label}

theorem eq_of_derivation_eq (hl : l.Analyzes rules u) (hm : m.Analyzes rules v)
    (h : l.derivation = m.derivation) : l = m := by
  obtain ⟨s, d⟩ := l
  obtain ⟨s', d'⟩ := m
  obtain rfl : d = d' := h
  exact congrArg (Label.mk · d) (hl.symbol.trans hm.symbol.symm)

theorem ofToken (token : String) : (Label.ofToken token).Analyzes rules [token] :=
  ⟨rfl, rfl, .word token, .word token⟩

theorem wraps (hix : ix.Indexes rules) (hl : l.Analyzes rules u) (hm : m ∈ ix.wraps l) :
    m.Analyzes rules u := by
  obtain ⟨p, hp, hc, rfl⟩ := Index.mem_wraps.1 hm
  rw [hix.unaryParents, Rule.mem_headsOf, hl.symbol] at hp
  refine ⟨rfl, ?_, Derivation.follows_singleton_iff.2 ⟨hp, hl.follows⟩,
    Derivation.acyclic_singleton_iff.2 ⟨hc, hl.acyclic⟩⟩
  exact (Derivation.tokens_node_singleton p l.derivation).trans hl.tokens

theorem closure (hix : ix.Indexes rules) (hl : l.Analyzes rules u) (hm : m ∈ ix.closure l) :
    m.Analyzes rules u := by
  have hsteps := Index.mem_closure_iff.1 hm
  induction hsteps with
  | refl => exact hl
  | tail _ hw ih => exact (ih (Index.mem_closure_iff.2 ‹_›)).wraps hix hw

theorem join (hix : ix.Indexes rules) (hl : l.Analyzes rules u) (hr : r.Analyzes rules v)
    {p : String} (hp : p ∈ ix.binaryParents l.symbol r.symbol) :
    (Label.ofRule p [l.derivation, r.derivation]).Analyzes rules (u ++ v) := by
  rw [hix.binaryParents, Rule.mem_headsOf, hl.symbol, hr.symbol] at hp
  refine ⟨rfl, ?_, Derivation.follows_pair_iff.2 ⟨hp, hl.follows, hr.follows⟩,
    Derivation.acyclic_pair_iff.2 ⟨hl.acyclic, hr.acyclic⟩⟩
  rw [← hl.tokens, ← hr.tokens]
  exact Derivation.tokens_node_pair p l.derivation r.derivation

end Label.Analyzes

namespace Index

variable {ix : Index} {rules : List Rule} {tokens : List String}

theorem mem_enumeration_wide {i k : Nat} (h : k ≠ i + 1) {x : Label} :
    x ∈ ix.enumeration tokens ⟨i, k⟩ ↔ ∃ m, i < m ∧ m < k ∧
      ∃ l ∈ ix.enumeration tokens ⟨i, m⟩, ∃ r ∈ ix.enumeration tokens ⟨m, k⟩,
        ∃ p ∈ ix.binaryParents l.symbol r.symbol,
          x ∈ ix.closure (.ofRule p [l.derivation, r.derivation]) := by
  rw [enumeration_wide ix tokens h, List.mem_eraseDups, List.mem_flatMap]
  constructor
  · rintro ⟨m, hm, hx⟩
    obtain ⟨j, hj, hx⟩ := List.mem_flatMap.1 hx
    obtain ⟨l, hl, r, hr, p, hp, rfl⟩ := mem_joins.1 hj
    obtain ⟨him, hmk⟩ := Span.mem_middles.1 hm
    exact ⟨m, him, hmk, l, hl, r, hr, p, hp, hx⟩
  · rintro ⟨m, him, hmk, l, hl, r, hr, p, hp, hx⟩
    refine ⟨m, Span.mem_middles.2 ⟨him, hmk⟩, List.mem_flatMap.2 ⟨_, ?_, hx⟩⟩
    exact mem_joins.2 ⟨l, hl, r, hr, p, hp, rfl⟩

theorem closedFrom_enumeration (ix : Index) (tokens : List String) (span : Span) :
    ix.ClosedFrom 0 (ix.enumeration tokens span) := by
  by_cases hone : span.stop = span.start + 1
  · rw [enumeration, if_pos hone]
    exact (ClosedFrom.flatMap _ fun _ _ => .closure _).eraseDups
  · rw [enumeration_wide ix tokens hone]
    exact (ClosedFrom.flatMap _ fun _ _ => .flatMap _ fun _ _ => .closure _).eraseDups

theorem analyzes_of_mem_enumeration (hix : ix.Indexes rules) {i k : Nat} (hik : i < k)
    (hk : k ≤ tokens.length) {x : Label} (hx : x ∈ ix.enumeration tokens ⟨i, k⟩) :
    x.Analyzes rules (Span.cover ⟨i, k⟩ tokens) := by
  by_cases hone : k = i + 1
  · subst hone
    have hget : tokens[i]? = some tokens[i] := List.getElem?_eq_getElem hk
    rw [enumeration_token ix hget, List.mem_eraseDups] at hx
    rw [Span.cover_token hget]
    exact (Label.Analyzes.ofToken _).closure hix hx
  · obtain ⟨m, him, hmk, l, hl, r, hr, p, hp, hx⟩ := (mem_enumeration_wide hone).1 hx
    have hm : m ≤ tokens.length := by omega
    have hleft := analyzes_of_mem_enumeration hix him hm hl
    have hright := analyzes_of_mem_enumeration hix hmk hk hr
    rw [← Span.cover_append (Nat.le_of_lt him) (Nat.le_of_lt hmk)]
    exact (hleft.join hix hright hp).closure hix hx
termination_by k - i

/-- By induction on the derivation: a part that covers a stretch of the tokens is in the cell of
that stretch, and cells are closed under the rule at the root. -/
theorem mem_enumeration_of_follows (hix : ix.Indexes rules) {i k : Nat} (hik : i < k)
    (hk : k ≤ tokens.length) {d : Derivation} (hf : d.Follows rules) (ha : d.Acyclic)
    (ht : d.tokens = Span.cover ⟨i, k⟩ tokens) : ⟨d.root, d⟩ ∈ ix.enumeration tokens ⟨i, k⟩ := by
  induction hf using Derivation.Follows.ind hix.narrow generalizing i k with
  | word token =>
    have hone : k = i + 1 := by
      have hlen : 1 = k - i := (congrArg List.length ht).trans (Span.length_cover hk)
      omega
    subst hone
    have hget : tokens[i]? = some tokens[i] := List.getElem?_eq_getElem hk
    rw [Span.cover_token hget, Derivation.tokens_word, List.singleton_inj] at ht
    rw [enumeration_token ix hget, List.mem_eraseDups, ← ht]
    exact self_mem_closure _ _
  | single head d hr hd ih =>
    rw [Derivation.tokens_node_singleton] at ht
    obtain ⟨hc, ha⟩ := Derivation.acyclic_singleton_iff.1 ha
    have hmem := ih hik hk ha ht
    -- the part is in the cell, and so is what the rule at the root makes of it
    apply closedFrom_enumeration ix tokens _ _ hmem (Nat.zero_le _)
    apply mem_closure_iff.2
    apply Relation.ReflTransGen.single
    refine mem_wraps.2 ⟨head, ?_, hc, rfl⟩
    rw [hix.unaryParents]
    exact Rule.mem_headsOf.2 hr
  | pair head d e hr hd he ihd ihe =>
    rw [Derivation.tokens_node_pair] at ht
    obtain ⟨had, hae⟩ := Derivation.acyclic_pair_iff.1 ha
    -- the cut lies where the tokens of the left part end
    obtain ⟨m, him, hmk, htd, hte⟩ := Span.exists_cut hk hik ht
      (Derivation.tokens_ne_nil hix.narrow hd) (Derivation.tokens_ne_nil hix.narrow he)
    have hmn : m ≤ tokens.length := by omega
    have hmemd := ihd him hmn had htd
    have hmeme := ihe hmk hk hae hte
    have hone : k ≠ i + 1 := by omega
    refine (mem_enumeration_wide hone).2
      ⟨m, him, hmk, _, hmemd, _, hmeme, head, ?_, self_mem_closure _ _⟩
    rw [hix.binaryParents]
    exact Rule.mem_headsOf.2 hr

theorem mem_enumeration_iff (hix : ix.Indexes rules) {i k : Nat} (hik : i < k)
    (hk : k ≤ tokens.length) {x : Label} :
    x ∈ ix.enumeration tokens ⟨i, k⟩ ↔ x.Analyzes rules (Span.cover ⟨i, k⟩ tokens) := by
  constructor
  · exact analyzes_of_mem_enumeration hix hik hk
  · rintro ⟨hs, ht, hf, ha⟩
    obtain ⟨s, d⟩ := x
    obtain rfl : s = d.root := hs
    exact mem_enumeration_of_follows hix hik hk hf ha ht

theorem analyzes_of_mem_whole (hix : ix.Indexes rules) {x : Label}
    (hx : x ∈ ix.enumeration tokens ⟨0, tokens.length⟩) : x.Analyzes rules tokens := by
  have hpos : 0 < tokens.length := by
    rw [List.length_pos_iff]
    rintro rfl
    rw [List.length_nil, enumeration_empty] at hx
    exact List.not_mem_nil hx
  have ha := analyzes_of_mem_enumeration hix hpos (Nat.le_refl _) hx
  rwa [Span.cover_all] at ha

end Index

namespace Parser

/-- The labels for the start symbol are its analyses of the whole sentence. -/
theorem mem_startLabels_iff (p : Parser) {tokens : List String} {l : Label} :
    l ∈ (p.analyze tokens).startLabels ↔
      l.symbol = .nonterminal p.start ∧ l.Analyzes p.grammar.rules tokens := by
  rw [startLabels_analyze, List.mem_filter, decide_eq_true_iff, and_comm]
  apply and_congr_right
  intro _
  by_cases h : tokens = []
  · -- no derivation covers an empty sentence
    subst h
    rw [List.length_nil, Index.enumeration_empty]
    constructor
    · exact nofun
    · intro ha
      exact absurd ha.tokens (Derivation.tokens_ne_nil p.indexes.narrow ha.follows)
  · rw [Index.mem_enumeration_iff p.indexes (List.length_pos_iff.2 h) (Nat.le_refl _),
      Span.cover_all]

/-- A cell of the chart holds, once each, the acyclic derivations of its tokens that follow the
rules of the grammar. All their nodes have one or two parts. -/
theorem mem_cell_iff_derivation (p : Parser) (tokens : List String) {i k : Nat} (hik : i < k)
    (hk : k ≤ tokens.length) :
    ∃ cell, (p.chart tokens).cell ⟨i, k⟩ = .ok cell ∧ cell.labels.Nodup ∧
      (∀ l ∈ cell.labels,
        l.derivation.Everywhere fun _ parts => parts.length = 1 ∨ parts.length = 2) ∧
      ∀ s d, ⟨s, d⟩ ∈ cell.labels ↔
        s = d.root ∧ d.tokens = tokens.extract i k ∧ d.Follows p.grammar.rules ∧ d.Acyclic := by
  refine ⟨_, cell_chart p ⟨hik, hk⟩, ?_⟩
  rw [Cell.labels_finished]
  refine ⟨Index.nodup_enumeration .., ?_, ?_⟩
  · intro l hl
    exact ((Index.mem_enumeration_iff p.indexes hik hk).1 hl).follows.narrow p.indexes.narrow
  · intro s d
    rw [Index.mem_enumeration_iff p.indexes hik hk]
    exact ⟨fun h => ⟨h.symbol, h.tokens, h.follows, h.acyclic⟩,
      fun ⟨hs, ht, hf, ha⟩ => ⟨hs, ht, hf, ha⟩⟩

/-- Around a node with two parts, too, no head comes up twice. -/
theorem mem_cell_iff_derivation_looped :
    0 < 2 ∧ 2 ≤ ["x", "x"].length ∧
      ∃ cell, (looped.chart ["x", "x"]).cell ⟨0, 2⟩ = .ok cell ∧ cell.labels.Nodup ∧
        (∀ l ∈ cell.labels,
          l.derivation.Everywhere fun _ parts => parts.length = 1 ∨ parts.length = 2) ∧
        ∀ s d, ⟨s, d⟩ ∈ cell.labels ↔
          s = d.root ∧ d.tokens = ["x", "x"].extract 0 2 ∧ d.Follows looped.grammar.rules ∧
            d.Acyclic :=
  ⟨by decide, by decide, mem_cell_iff_derivation looped ["x", "x"] (by decide) (by decide)⟩

end Parser

end PhraseChart
