import Mathlib.Algebra.BigOperators.Intervals
import Mathlib.Algebra.Order.Interval.Finset.SuccPred
import Mathlib.Combinatorics.Enumerative.Catalan.Basic
import PhraseChart.Proofs.UnaryPaths

namespace PhraseChart

/-- How many paths of unary rules lead from the first symbol to the second. -/
noncomputable def pathCount (rules : List Rule) (x y : Symbol) : Nat :=
  {path | UnaryPath rules x y path}.ncard

namespace Rule

/-- The right-hand side, if it is of two symbols. -/
def pair? (r : Rule) : Option (Symbol × Symbol) :=
  match r.body with
  | [x, y] => some (x, y)
  | _ => none

theorem pair?_eq_some_iff {r : Rule} {x y : Symbol} : r.pair? = some (x, y) ↔ r.body = [x, y] := by
  unfold pair?
  split
  · rename_i h
    simp [h]
  · rename_i h
    constructor
    · nofun
    · exact fun e => absurd e (h x y)

/-- The right-hand sides of two symbols under a head, each once. -/
def pairsOf (head : String) (rules : List Rule) : Finset (Symbol × Symbol) :=
  ((rules.filter fun r => r.head = head).filterMap pair?).toFinset

theorem mem_pairsOf {head : String} {rules : List Rule} {x y : Symbol} :
    (x, y) ∈ pairsOf head rules ↔ ⟨head, [x, y]⟩ ∈ rules := by
  simp only [pairsOf, List.mem_toFinset, List.mem_filterMap, List.mem_filter, pair?_eq_some_iff]
  constructor
  · rintro ⟨⟨_, _⟩, ⟨hr, hhead⟩, rfl⟩
    rwa [← of_decide_eq_true hhead]
  · intro h
    exact ⟨_, ⟨h, decide_eq_true rfl⟩, rfl⟩

end Rule

/-- How many labels the cell of a span has for a symbol. -/
def Chart.count (c : Chart) (x : Symbol) (span : Span) : Nat :=
  match c.cell span with
  | .ok cell => cell.labels.countP fun l => l.symbol = x
  | .error _ => 0

namespace Index

variable {ix : Index} {rules : List Rule} {tokens : List String} {i k : Nat}

/-- The labels of a span for one symbol. -/
def found (ix : Index) (tokens : List String) (span : Span) (x : Symbol) : Finset Label :=
  (ix.enumeration tokens span).toFinset.filter fun l => l.symbol = x

/-- The labels of a span with no node of one part at the top. -/
def bases (ix : Index) (tokens : List String) (span : Span) : Finset Label :=
  (ix.enumeration tokens span).toFinset.filter fun l => l.derivation.base = l.derivation

theorem mem_found (hix : ix.Indexes rules) (hik : i < k) (hk : k ≤ tokens.length) {x : Symbol}
    {l : Label} : l ∈ ix.found tokens ⟨i, k⟩ x ↔
      l.Analyzes rules (Span.cover ⟨i, k⟩ tokens) ∧ l.symbol = x := by
  rw [found, Finset.mem_filter, List.mem_toFinset, mem_enumeration_iff hix hik hk]

theorem mem_bases (hix : ix.Indexes rules) (hik : i < k) (hk : k ≤ tokens.length) {l : Label} :
    l ∈ ix.bases tokens ⟨i, k⟩ ↔
      l.Analyzes rules (Span.cover ⟨i, k⟩ tokens) ∧ l.derivation.IsBase := by
  rw [bases, Finset.mem_filter, List.mem_toFinset, mem_enumeration_iff hix hik hk,
    Derivation.base_eq_self_iff]

theorem card_found_eq_countP (ix : Index) (tokens : List String) (span : Span) (x : Symbol) :
    (ix.found tokens span x).card =
      (ix.enumeration tokens span).countP fun l => l.symbol = x := by
  have hfound : ix.found tokens span x =
      ((ix.enumeration tokens span).filter fun l => l.symbol = x).toFinset := by
    ext l
    simp [found]
  rw [hfound, List.toFinset_card_of_nodup ((nodup_enumeration ix tokens span).filter _),
    List.countP_eq_length_filter]

/-- Each label is given by its base and by its spine, which is a path up from the base. -/
theorem card_found (hix : ix.Indexes rules) (hik : i < k) (hk : k ≤ tokens.length) (y : Symbol) :
    (ix.found tokens ⟨i, k⟩ y).card =
      ∑ b ∈ ix.bases tokens ⟨i, k⟩, pathCount rules b.symbol y := by
  have hcount : ∀ x, pathCount rules x y = (UnaryPath.finite rules x y).toFinset.card :=
    fun x => Set.ncard_eq_toFinset_card _ _
  simp only [hcount]
  rw [← Finset.card_sigma]
  refine Finset.card_bij
    (fun l _ => ⟨⟨l.derivation.base.root, l.derivation.base⟩, l.derivation.spine⟩) ?_ ?_ ?_
  · -- the base of a label is on the same tokens
    intro l hl
    obtain ⟨ha, rfl⟩ := (mem_found hix hik hk).1 hl
    rw [Finset.mem_sigma, mem_bases hix hik hk, Set.Finite.mem_toFinset, ha.symbol]
    refine ⟨⟨⟨rfl, ?_, ha.follows.base, ha.acyclic.base⟩, l.derivation.isBase_base⟩,
      Derivation.unaryPath_spine ha.follows ha.acyclic⟩
    rw [Derivation.tokens_base, ha.tokens]
  · intro l hl m hm he
    obtain ⟨hla, -⟩ := (mem_found hix hik hk).1 hl
    obtain ⟨hma, -⟩ := (mem_found hix hik hk).1 hm
    obtain ⟨hbase, hspine⟩ := Sigma.mk.inj he
    apply hla.eq_of_derivation_eq hma
    exact Derivation.eq_of_base_eq_of_spine_eq (Label.mk.inj hbase).2 (eq_of_heq hspine)
  · rintro ⟨⟨s, b⟩, path⟩ h
    rw [Finset.mem_sigma, mem_bases hix hik hk, Set.Finite.mem_toFinset] at h
    obtain ⟨⟨ha, hb⟩, hpath⟩ := h
    obtain rfl : s = b.root := ha.symbol
    obtain ⟨d, rfl, rfl, rfl, hf, hacyclic⟩ :=
      Derivation.exists_spine_eq hb ha.follows ha.acyclic hpath
    refine ⟨⟨d.root, d⟩, (mem_found hix hik hk).2 ⟨⟨rfl, ?_, hf, hacyclic⟩, rfl⟩, rfl⟩
    rw [← Derivation.tokens_base]
    exact ha.tokens

/-- A single token has one base, the token itself. -/
theorem bases_token (hix : ix.Indexes rules) {token : String} (h : tokens[k]? = some token) :
    ix.bases tokens ⟨k, k + 1⟩ = {.ofToken token} := by
  obtain ⟨hk, -⟩ := List.getElem?_eq_some_iff.1 h
  ext l
  rw [mem_bases hix (Nat.lt_succ_self k) hk, Finset.mem_singleton, Span.cover_token h]
  constructor
  · rintro ⟨ha, hb⟩
    obtain ⟨s, d⟩ := l
    obtain rfl : s = d.root := ha.symbol
    have ht : d.tokens = [token] := ha.tokens
    rcases hb.cases hix.narrow ha.follows with ⟨w, rfl⟩ | ⟨head, l, r, rfl, -, hl, hr⟩
    · rw [Derivation.tokens_word, List.singleton_inj] at ht
      rw [ht]
      rfl
    · have hlength := congrArg List.length ht
      have hlpos := List.length_pos_iff.2 (Derivation.tokens_ne_nil hix.narrow hl)
      have hrpos := List.length_pos_iff.2 (Derivation.tokens_ne_nil hix.narrow hr)
      rw [Derivation.tokens_node_pair, List.length_append, List.length_singleton] at hlength
      omega
  · rintro rfl
    exact ⟨.ofToken token, nofun⟩

/-- What the rules with this head can join: a right-hand side, a cut, and a label on each side. -/
def joinable (ix : Index) (rules : List Rule) (tokens : List String) (i k : Nat) (head : String) :
    Finset (Σ _ : Symbol × Symbol, Σ _ : Nat, Label × Label) :=
  (Rule.pairsOf head rules).sigma fun b => (Finset.Ioo i k).sigma fun m =>
    ix.found tokens ⟨i, m⟩ b.1 ×ˢ ix.found tokens ⟨m, k⟩ b.2

theorem card_joinable (ix : Index) (rules : List Rule) (tokens : List String) (i k : Nat)
    (head : String) : (ix.joinable rules tokens i k head).card =
      ∑ b ∈ Rule.pairsOf head rules, ∑ m ∈ Finset.Ioo i k,
        (ix.found tokens ⟨i, m⟩ b.1).card * (ix.found tokens ⟨m, k⟩ b.2).card := by
  simp only [joinable, Finset.card_sigma, Finset.card_product]

theorem mem_joinable (hix : ix.Indexes rules) (hk : k ≤ tokens.length) {head : String}
    {x y : Symbol} {m : Nat} {l r : Label} :
    ⟨(x, y), m, l, r⟩ ∈ ix.joinable rules tokens i k head ↔
      ⟨head, [x, y]⟩ ∈ rules ∧ (i < m ∧ m < k) ∧
        (l.Analyzes rules (Span.cover ⟨i, m⟩ tokens) ∧ l.symbol = x) ∧
        (r.Analyzes rules (Span.cover ⟨m, k⟩ tokens) ∧ r.symbol = y) := by
  rw [joinable, Finset.mem_sigma, Rule.mem_pairsOf, Finset.mem_sigma, Finset.mem_Ioo,
    Finset.mem_product]
  refine and_congr_right fun _ => and_congr_right fun hm => ?_
  rw [mem_found hix hm.1 (by omega), mem_found hix hm.2 hk]

theorem joinable_inj (hix : ix.Indexes rules) (hk : k ≤ tokens.length) {head : String}
    {x y x' y' : Symbol} {m m' : Nat} {l r l' r' : Label}
    (h : ⟨(x, y), m, l, r⟩ ∈ ix.joinable rules tokens i k head)
    (h' : ⟨(x', y'), m', l', r'⟩ ∈ ix.joinable rules tokens i k head)
    (hl : l.derivation = l'.derivation) (hr : r.derivation = r'.derivation) :
    (⟨(x, y), m, l, r⟩ : Σ _ : Symbol × Symbol, Σ _ : Nat, Label × Label) =
      ⟨(x', y'), m', l', r'⟩ := by
  obtain ⟨-, ⟨him, hmk⟩, ⟨hla, rfl⟩, hra, rfl⟩ := (mem_joinable hix hk).1 h
  obtain ⟨-, ⟨him', hmk'⟩, ⟨hla', rfl⟩, hra', rfl⟩ := (mem_joinable hix hk).1 h'
  -- the left label has as many tokens as the cut leaves on the left
  have hcover : Span.cover ⟨i, m⟩ tokens = Span.cover ⟨i, m'⟩ tokens := by
    rw [← hla.tokens, hl, hla'.tokens]
  obtain rfl : m = m' := Span.stop_eq_of_cover_eq (by omega) (by omega) (by omega) (by omega) hcover
  obtain rfl := hla.eq_of_derivation_eq hla' hl
  obtain rfl := hra.eq_of_derivation_eq hra' hr
  rfl

/-- A base that covers two or more tokens joins two labels at a cut. -/
theorem exists_joinable (hix : ix.Indexes rules) (hik : i + 1 < k) (hk : k ≤ tokens.length)
    {b : Label} (hb : b ∈ ix.bases tokens ⟨i, k⟩) :
    ∃ head x y m l r, ⟨head, [x, y]⟩ ∈ rules ∧
      ⟨(x, y), m, l, r⟩ ∈ ix.joinable rules tokens i k head ∧
      .ofRule head [l.derivation, r.derivation] = b := by
  have hik' : i < k := by omega
  obtain ⟨ha, hbase⟩ := (mem_bases hix hik' hk).1 hb
  obtain ⟨s, d⟩ := b
  obtain rfl : s = d.root := ha.symbol
  have ht : d.tokens = Span.cover ⟨i, k⟩ tokens := ha.tokens
  rcases hbase.cases hix.narrow ha.follows with ⟨token, rfl⟩ | ⟨head, d, e, rfl, hr, hd, he⟩
  · have hlen : 1 = k - i := (congrArg List.length ht).trans (Span.length_cover hk)
    omega
  · obtain ⟨hda, hea⟩ := Derivation.acyclic_pair_iff.1 ha.acyclic
    rw [Derivation.tokens_node_pair] at ht
    obtain ⟨m, him, hmk, htd, hte⟩ := Span.exists_cut hk hik' ht
      (Derivation.tokens_ne_nil hix.narrow hd) (Derivation.tokens_ne_nil hix.narrow he)
    refine ⟨head, d.root, e.root, m, ⟨d.root, d⟩, ⟨e.root, e⟩, hr, ?_, rfl⟩
    exact (mem_joinable hix hk).2
      ⟨hr, ⟨him, hmk⟩, ⟨⟨rfl, htd, hd, hda⟩, rfl⟩, ⟨rfl, hte, he, hea⟩, rfl⟩

/-- The bases are given by what can be joined under their heads. -/
theorem sum_bases_wide (hix : ix.Indexes rules) (hik : i + 1 < k) (hk : k ≤ tokens.length)
    {names : Finset String} (hnames : ∀ r ∈ rules, r.head ∈ names) (f : Symbol → Nat) :
    ∑ b ∈ ix.bases tokens ⟨i, k⟩, f b.symbol =
      ∑ head ∈ names, f (.nonterminal head) * (ix.joinable rules tokens i k head).card := by
  have hconst : ∀ head, f (.nonterminal head) * (ix.joinable rules tokens i k head).card =
      ∑ _t ∈ ix.joinable rules tokens i k head, f (.nonterminal head) := by
    intro head
    rw [Finset.sum_const, smul_eq_mul, Nat.mul_comm]
  simp only [hconst]
  rw [← Finset.sum_sigma names (ix.joinable rules tokens i k) fun t => f (.nonterminal t.1)]
  -- from what is joined to its label: each base comes of one head, one cut and two labels only
  symm
  refine Finset.sum_bij
    (fun t _ => .ofRule t.1 [t.2.2.2.1.derivation, t.2.2.2.2.derivation]) ?_ ?_ ?_ ?_
  · rintro ⟨head, ⟨x, y⟩, m, l, r⟩ ht
    obtain ⟨-, ht⟩ := Finset.mem_sigma.1 ht
    obtain ⟨hr, ⟨him, hmk⟩, ⟨hl, rfl⟩, hr', rfl⟩ := (mem_joinable hix hk).1 ht
    rw [mem_bases hix (Nat.lt_trans him hmk) hk,
      ← Span.cover_append (Nat.le_of_lt him) (Nat.le_of_lt hmk)]
    refine ⟨hl.join hix hr' ?_, nofun⟩
    rw [hix.binaryParents]
    exact Rule.mem_headsOf.2 hr
  · rintro ⟨head, ⟨x, y⟩, m, l, r⟩ ht ⟨head', ⟨x', y'⟩, m', l', r'⟩ ht' he
    obtain ⟨-, ht⟩ := Finset.mem_sigma.1 ht
    obtain ⟨-, ht'⟩ := Finset.mem_sigma.1 ht'
    obtain ⟨rfl, hl, hr⟩ : head = head' ∧ l.derivation = l'.derivation ∧
        r.derivation = r'.derivation := by
      simpa [Label.ofRule] using he
    rw [joinable_inj hix hk ht ht' hl hr]
  · intro b hb
    obtain ⟨head, x, y, m, l, r, hr, ht, rfl⟩ := exists_joinable hix hik hk hb
    exact ⟨⟨head, (x, y), m, l, r⟩, Finset.mem_sigma.2 ⟨hnames _ hr, ht⟩, rfl⟩
  · intro t _
    rfl

end Index

namespace Parser

theorem count_chart (p : Parser) {tokens : List String} {span : Span}
    (h : Chart.Covers tokens.length span) (x : Symbol) :
    (p.chart tokens).count x span = (p.index.found tokens span x).card := by
  rw [Chart.count, cell_chart p h, Index.card_found_eq_countP, ← Cell.labels_finished]

theorem count_token (p : Parser) {tokens : List String} {k : Nat} {token : String}
    (h : tokens[k]? = some token) (y : Symbol) :
    (p.chart tokens).count y ⟨k, k + 1⟩ = pathCount p.grammar.rules (.terminal token) y := by
  obtain ⟨hk, -⟩ := List.getElem?_eq_some_iff.1 h
  have hspan : Chart.Covers tokens.length ⟨k, k + 1⟩ := ⟨Nat.lt_succ_self k, hk⟩
  rw [count_chart p hspan, Index.card_found p.indexes hspan.1 hspan.2,
    Index.bases_token p.indexes h, Finset.sum_singleton]
  rfl

theorem count_wide (p : Parser) {tokens : List String} {i k : Nat} (hik : i + 1 < k)
    (hk : k ≤ tokens.length) {names : Finset String}
    (hnames : ∀ r ∈ p.grammar.rules, r.head ∈ names) (y : Symbol) :
    (p.chart tokens).count y ⟨i, k⟩ =
      ∑ head ∈ names, pathCount p.grammar.rules (.nonterminal head) y *
        ∑ b ∈ Rule.pairsOf head p.grammar.rules, ∑ m ∈ Finset.Ioo i k,
          (p.chart tokens).count b.1 ⟨i, m⟩ * (p.chart tokens).count b.2 ⟨m, k⟩ := by
  have hik' : i < k := by omega
  rw [count_chart p ⟨hik', hk⟩, Index.card_found p.indexes hik' hk,
    Index.sum_bases_wide p.indexes hik hk hnames fun x => pathCount p.grammar.rules x y]
  apply Finset.sum_congr rfl
  intro head _
  rw [Index.card_joinable]
  congr 1
  apply Finset.sum_congr rfl
  intro b _
  apply Finset.sum_congr rfl
  intro m hm
  obtain ⟨him, hmk⟩ := Finset.mem_Ioo.1 hm
  have hmn : m ≤ tokens.length := by omega
  rw [count_chart p ⟨him, hmn⟩, count_chart p ⟨hmk, hk⟩]

theorem analyses_eq_count (p : Parser) {tokens : List String} (h : tokens ≠ []) :
    (p.recognize tokens).analyses =
      (p.chart tokens).count (.nonterminal p.start) ⟨0, tokens.length⟩ := by
  rw [count_chart p ⟨List.length_pos_iff.2 h, Nat.le_refl _⟩, Index.card_found_eq_countP,
    recognize_eq, startLabels_analyze, List.countP_eq_length_filter]

/-- A parser for a word repeated any number of times, with every way to put brackets around it. -/
def doubling : Parser where
  grammar := ⟨"S", [⟨"S", [.nonterminal "S", .nonterminal "S"]⟩, ⟨"S", [.terminal "x"]⟩]⟩
  index :=
    { unary := ⟨[(.terminal "x", ["S"])]⟩
      binary := ⟨[((.nonterminal "S", .nonterminal "S"), ["S"])]⟩ }
  indexed := rfl

theorem unaryPath_doubling_iff {x : Symbol} {path : List Symbol} :
    UnaryPath doubling.grammar.rules x (.nonterminal "S") path ↔
      x = .nonterminal "S" ∧ path = [.nonterminal "S"] ∨
        x = .terminal "x" ∧ path = [.terminal "x", .nonterminal "S"] := by
  have hrule : ∀ head z, (⟨head, [z]⟩ : Rule) ∈ doubling.grammar.rules →
      head = "S" ∧ z = .terminal "x" := by
    intro head z hr
    simpa [doubling] using hr
  constructor
  · intro h
    rcases h.cases_concat with ⟨rfl, rfl⟩ | ⟨path', z, head, rfl, -, hpath', hr, -⟩
    · exact .inl ⟨rfl, rfl⟩
    · obtain ⟨rfl, rfl⟩ := hrule head z hr
      obtain ⟨rfl, rfl⟩ := hpath'.eq_of_last_terminal
      exact .inr ⟨rfl, rfl⟩
  · rintro (⟨rfl, rfl⟩ | ⟨rfl, rfl⟩)
    · exact .singleton _
    · have hr : (⟨"S", [.terminal "x"]⟩ : Rule) ∈ doubling.grammar.rules := by simp [doubling]
      exact (UnaryPath.singleton _).concat hr (by simp)

theorem pathCount_doubling_name :
    pathCount doubling.grammar.rules (.nonterminal "S") (.nonterminal "S") = 1 := by
  simp [pathCount, unaryPath_doubling_iff]

theorem pathCount_doubling_word :
    pathCount doubling.grammar.rules (.terminal "x") (.nonterminal "S") = 1 := by
  simp [pathCount, unaryPath_doubling_iff]

/-- The brackets around `n + 1` words can be put in as many ways as the Catalan number says. -/
theorem count_doubling {n i size : Nat} (h : i + n < size) :
    (doubling.chart (List.replicate size "x")).count (.nonterminal "S") ⟨i, i + n + 1⟩ =
      catalan n := by
  induction n using Nat.strongRecOn generalizing i with
  | ind n ih =>
    match n with
    | 0 =>
      have hget : (List.replicate size "x")[i]? = some "x" := List.getElem?_replicate_of_lt h
      rw [Nat.add_zero, count_token doubling hget, pathCount_doubling_word, catalan_zero]
    | n + 1 =>
      have hlength : i + (n + 1) + 1 ≤ (List.replicate size "x").length := by
        rw [List.length_replicate]
        omega
      have hnames : ∀ r ∈ doubling.grammar.rules, r.head ∈ ({"S"} : Finset String) := by
        simp [doubling]
      have hpairs : Rule.pairsOf "S" doubling.grammar.rules =
          {(.nonterminal "S", .nonterminal "S")} := by decide +kernel
      rw [count_wide doubling (by omega) hlength hnames, Finset.sum_singleton,
        pathCount_doubling_name, Nat.one_mul, hpairs, Finset.sum_singleton,
        ← Finset.Ico_add_one_left_eq_Ioo, Finset.sum_Ico_eq_sum_range, catalan_succ',
        Finset.Nat.sum_antidiagonal_eq_sum_range_succ fun a b => catalan a * catalan b]
      have hsize : i + (n + 1) + 1 - (i + 1) = n.succ := by omega
      rw [hsize]
      -- the cut with `j + 1` words before it has `n - j + 1` words behind it
      apply Finset.sum_congr rfl
      intro j hj
      have hj : j < n + 1 := Finset.mem_range.1 hj
      have hcut : i + 1 + j = i + j + 1 := by omega
      have hstop : i + (n + 1) + 1 = i + j + 1 + (n - j) + 1 := by omega
      rw [hcut, ih j (by omega) (by omega), hstop, ih (n - j) (by omega) (by omega)]

/-- How many labels a cell has for a symbol: for one token, as many as there are paths from it to
the symbol; for more tokens, over all heads, as many paths as there are from the head times the
number of ways to join two labels under it. `names` is any set of names with all heads in it. The
analyses are the labels for the start symbol in the cell of the whole sentence, and as a grammar of
brackets shows, there may be as many of them as the Catalan numbers say. -/
theorem counts_by_paths_and_cuts (p : Parser) (tokens : List String) :
    (∀ x y, {path | UnaryPath p.grammar.rules x y path}.Finite) ∧
    (∀ k token y, tokens[k]? = some token →
      (p.chart tokens).count y ⟨k, k + 1⟩ = pathCount p.grammar.rules (.terminal token) y) ∧
    (∀ i k y, i + 1 < k → k ≤ tokens.length →
      ∀ names : Finset String, (∀ r ∈ p.grammar.rules, r.head ∈ names) →
        (p.chart tokens).count y ⟨i, k⟩ =
          ∑ head ∈ names, pathCount p.grammar.rules (.nonterminal head) y *
            ∑ b ∈ Rule.pairsOf head p.grammar.rules, ∑ m ∈ Finset.Ioo i k,
              (p.chart tokens).count b.1 ⟨i, m⟩ * (p.chart tokens).count b.2 ⟨m, k⟩) ∧
    (tokens ≠ [] → (p.recognize tokens).analyses =
      (p.chart tokens).count (.nonterminal p.start) ⟨0, tokens.length⟩) ∧
    ∀ n, (doubling.recognize (List.replicate (n + 1) "x")).analyses = catalan n := by
  refine ⟨UnaryPath.finite _, fun k token y h => count_token p h y,
    fun i k y hik hk names hnames => count_wide p hik hk hnames y, analyses_eq_count p, ?_⟩
  intro n
  have hne : List.replicate (n + 1) "x" ≠ [] := by simp
  have hlast : 0 + n < n + 1 := by omega
  have hcount := count_doubling hlast
  rw [analyses_eq_count doubling hne, List.length_replicate, ← hcount, Nat.zero_add]
  rfl

theorem counts_by_paths_and_cuts_looped :
    ["x", "x", "x"][0]? = some "x" ∧ 0 + 1 < 3 ∧ 3 ≤ ["x", "x", "x"].length ∧
      (∀ r ∈ looped.grammar.rules, r.head ∈ ({"S", "A"} : Finset String)) ∧
      ["x", "x", "x"] ≠ [] ∧
      (looped.chart ["x", "x", "x"]).count (.nonterminal "A") ⟨0, 1⟩ =
        pathCount looped.grammar.rules (.terminal "x") (.nonterminal "A") ∧
      (looped.chart ["x", "x", "x"]).count (.nonterminal "A") ⟨0, 3⟩ =
        ∑ head ∈ {"S", "A"}, pathCount looped.grammar.rules (.nonterminal head) (.nonterminal "A") *
          ∑ b ∈ Rule.pairsOf head looped.grammar.rules, ∑ m ∈ Finset.Ioo 0 3,
            (looped.chart ["x", "x", "x"]).count b.1 ⟨0, m⟩ *
              (looped.chart ["x", "x", "x"]).count b.2 ⟨m, 3⟩ ∧
      2 = (looped.chart ["x", "x", "x"]).count (.nonterminal "S") ⟨0, 3⟩ := by
  have hnames : ∀ r ∈ looped.grammar.rules, r.head ∈ ({"S", "A"} : Finset String) := by
    simp [looped]
  have hne : ["x", "x", "x"] ≠ [] := by decide
  have hanalyses : (looped.recognize ["x", "x", "x"]).analyses = 2 := by decide +kernel
  obtain ⟨-, htoken, hwide, hwhole, -⟩ := counts_by_paths_and_cuts looped ["x", "x", "x"]
  exact ⟨rfl, by decide, by decide, hnames, hne, htoken 0 "x" _ rfl,
    hwide 0 3 _ (by decide) (by decide) _ hnames, hanalyses.symm.trans (hwhole hne)⟩

end Parser

end PhraseChart
