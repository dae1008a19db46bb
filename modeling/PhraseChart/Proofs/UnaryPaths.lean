import Mathlib.Data.Set.Card
import Mathlib.Data.Set.Finite.List
import PhraseChart.Proofs.Exactness

namespace PhraseChart

/-- A unary rule leads from the symbol on its right to its head. -/
def UnaryStep (rules : List Rule) (x y : Symbol) : Prop :=
  ∃ head, y = .nonterminal head ∧ ⟨head, [x]⟩ ∈ rules

/-- The path leads from the first symbol to the second by unary rules, without repetition. -/
structure UnaryPath (rules : List Rule) (x y : Symbol) (path : List Symbol) : Prop where
  head : path.head? = some x
  last : path.getLast? = some y
  nodup : path.Nodup
  steps : path.IsChain (UnaryStep rules)

namespace UnaryPath

variable {rules : List Rule} {x y z : Symbol} {path : List Symbol}

theorem singleton (x : Symbol) : UnaryPath rules x x [x] :=
  ⟨rfl, rfl, List.nodup_singleton x, .singleton x⟩

theorem concat {head : String} (h : UnaryPath rules x y path) (hr : ⟨head, [y]⟩ ∈ rules)
    (hnew : .nonterminal head ∉ path) :
    UnaryPath rules x (.nonterminal head) (path ++ [.nonterminal head]) := by
  have hne : path ≠ [] := by
    rintro rfl
    simpa using h.head
  refine ⟨?_, List.getLast?_concat, ?_, ?_⟩
  · rw [List.head?_append_of_ne_nil _ hne, h.head]
  · rw [List.nodup_append_comm]
    exact List.nodup_cons.2 ⟨hnew, h.nodup⟩
  · refine h.steps.append (.singleton _) ?_
    intro u hu v hv
    obtain rfl := Option.some.inj (h.last.symm.trans hu)
    obtain rfl := Option.some.inj hv
    exact ⟨head, rfl, hr⟩

/-- A path either stays at its first symbol, or its last step is by a rule whose head has not come
up before. -/
theorem cases_concat (h : UnaryPath rules x y path) :
    (path = [x] ∧ y = x) ∨ ∃ path' z head, path = path' ++ [.nonterminal head] ∧
      y = .nonterminal head ∧ UnaryPath rules x z path' ∧ ⟨head, [z]⟩ ∈ rules ∧
        .nonterminal head ∉ path' := by
  obtain ⟨hhead, hlast, hnodup, hsteps⟩ := h
  induction path using List.reverseRecOn with
  | nil => simp at hhead
  | append_singleton path' y' _ =>
    obtain rfl : y' = y := by simpa using hlast
    by_cases hnil : path' = []
    · subst hnil
      obtain rfl : y' = x := by simpa using hhead
      exact .inl ⟨rfl, rfl⟩
    · rw [List.head?_append_of_ne_nil _ hnil] at hhead
      obtain ⟨hsteps', -, hstep⟩ := List.isChain_append.1 hsteps
      obtain ⟨z, hz⟩ : ∃ z, path'.getLast? = some z := ⟨_, List.getLast?_eq_getLast_of_ne_nil hnil⟩
      obtain ⟨head, rfl, hr⟩ := hstep z hz y' rfl
      rw [List.nodup_append_comm] at hnodup
      obtain ⟨hnew, hnodup⟩ := List.nodup_cons.1 hnodup
      exact .inr ⟨path', z, head, rfl, rfl, ⟨hhead, hz, hnodup, hsteps'⟩, hr, hnew⟩

/-- No rule leads to a word. -/
theorem eq_of_last_terminal {word : String} (h : UnaryPath rules x (.terminal word) path) :
    x = .terminal word ∧ path = [.terminal word] := by
  rcases h.cases_concat with ⟨rfl, rfl⟩ | ⟨_, _, _, _, hlast, _⟩
  · exact ⟨rfl, rfl⟩
  · simp at hlast

/-- A path starts at its first symbol and goes on with heads of rules. -/
theorem mem_symbols (h : UnaryPath rules x y path) :
    ∀ z ∈ path, z ∈ x :: rules.map fun r => .nonterminal r.head := by
  induction path using List.reverseRecOn generalizing y with
  | nil => exact fun _ hz => absurd hz List.not_mem_nil
  | append_singleton path _ ih =>
    rcases h.cases_concat with ⟨hpath, -⟩ | ⟨path', z, head, hpath, -, hpath', hr, -⟩
    · rw [hpath]
      intro u hu
      rw [List.mem_singleton.1 hu]
      exact List.mem_cons_self
    · obtain ⟨rfl, htop⟩ := List.append_inj' hpath rfl
      rw [htop]
      intro u hu
      rcases List.mem_append.1 hu with hu | hu
      · exact ih hpath' u hu
      · rw [List.mem_singleton.1 hu]
        exact List.mem_cons_of_mem _ (List.mem_map.2 ⟨_, hr, rfl⟩)

/-- Without repetition there are only so many paths. -/
theorem finite (rules : List Rule) (x y : Symbol) :
    {path | UnaryPath rules x y path}.Finite := by
  -- a path is a list without repetition over finitely many symbols, so it is not long
  let symbols : List Symbol := x :: rules.map fun r => .nonterminal r.head
  have : Finite {z // z ∈ symbols} := (List.finite_toSet symbols).to_subtype
  apply ((List.finite_length_le {z // z ∈ symbols} symbols.length).image
    (List.map Subtype.val)).subset
  intro path h
  have hlength : path.length ≤ symbols.length := (h.nodup.subperm h.mem_symbols).length_le
  have hmem : ∀ z ∈ path, z ∈ symbols := h.mem_symbols
  lift path to List {z // z ∈ symbols} using hmem
  exact ⟨path, by simpa using hlength, rfl⟩

end UnaryPath

namespace Derivation

/-- The part below all nodes of one part at the top. -/
def base : Derivation → Derivation
  | node _ [d] => d.base
  | d => d

/-- The roots from the base up. -/
def spine : Derivation → List Symbol
  | node head [d] => d.spine ++ [.nonterminal head]
  | d => [d.root]

/-- A derivation that is its own base: there is no node of one part at its top. -/
def IsBase (d : Derivation) : Prop := ∀ head part, d ≠ node head [part]

@[simp] theorem base_node_singleton (head : String) (d : Derivation) :
    (node head [d]).base = d.base := rfl

@[simp] theorem spine_node_singleton (head : String) (d : Derivation) :
    (node head [d]).spine = d.spine ++ [.nonterminal head] := rfl

namespace IsBase

variable {d : Derivation}

theorem base_eq (h : d.IsBase) : d.base = d := by
  unfold base
  split
  · exact absurd rfl (h _ _)
  · rfl

theorem spine_eq (h : d.IsBase) : d.spine = [d.root] := by
  unfold spine
  split
  · exact absurd rfl (h _ _)
  · rfl

theorem mem_chain_iff (h : d.IsBase) (head : String) :
    head ∈ d.chain ↔ d.root = .nonterminal head := by
  unfold chain
  split
  · simp [root]
  · exact absurd rfl (h _ _)
  · simp [root, eq_comm]

end IsBase

/-- From a base up, one node of one part at a time. -/
theorem indSpine {motive : Derivation → Prop} (base : ∀ d, d.IsBase → motive d)
    (single : ∀ head d, motive d → motive (node head [d])) (d : Derivation) : motive d := by
  induction d using Derivation.ind with
  | word token => exact base _ nofun
  | node head parts ih =>
    match parts, ih with
    | [], _ => exact base _ nofun
    | [d], ih => exact single head d (ih d List.mem_cons_self)
    | _ :: _ :: _, _ => exact base _ nofun

theorem isBase_base (d : Derivation) : d.base.IsBase := by
  induction d using indSpine with
  | base d h => rwa [h.base_eq]
  | single head d ih => rwa [base_node_singleton]

theorem base_eq_self_iff {d : Derivation} : d.base = d ↔ d.IsBase :=
  ⟨fun h => h ▸ isBase_base d, IsBase.base_eq⟩

theorem tokens_base (d : Derivation) : d.base.tokens = d.tokens := by
  induction d using indSpine with
  | base d h => rw [h.base_eq]
  | single head d ih => rwa [base_node_singleton, tokens_node_singleton]

theorem nonterminal_mem_spine_iff {d : Derivation} {head : String} :
    .nonterminal head ∈ d.spine ↔ head ∈ d.chain := by
  induction d using indSpine with
  | base d h => rw [h.spine_eq, h.mem_chain_iff, List.mem_singleton, eq_comm]
  | single top d ih =>
    rw [spine_node_singleton, chain_node_singleton, List.mem_append, List.mem_singleton, ih,
      Symbol.nonterminal.injEq, List.mem_cons, or_comm]

theorem spine_ne_nil (d : Derivation) : d.spine ≠ [] := by
  induction d using indSpine with
  | base d h => simp [h.spine_eq]
  | single head d _ => simp

/-- A derivation can be put together again from its base and its spine. -/
theorem eq_of_base_eq_of_spine_eq {d e : Derivation} (hbase : d.base = e.base)
    (hspine : d.spine = e.spine) : d = e := by
  induction d using indSpine generalizing e with
  | base d hd =>
    induction e using indSpine with
    | base e he => rwa [hd.base_eq, he.base_eq] at hbase
    | single head e _ =>
      -- the spine of a base has one symbol only
      rw [hd.spine_eq, spine_node_singleton] at hspine
      have hlength := congrArg List.length hspine
      simp [spine_ne_nil e] at hlength
  | single head d ih =>
    induction e using indSpine with
    | base e he =>
      rw [he.spine_eq, spine_node_singleton] at hspine
      have hlength := congrArg List.length hspine
      simp [spine_ne_nil d] at hlength
    | single head' e _ =>
      obtain ⟨hrest, htop⟩ := List.append_inj' hspine rfl
      obtain rfl : head = head' := by simpa using htop
      have hbase : d.base = e.base := hbase
      rw [ih hbase hrest]

variable {rules : List Rule}

theorem IsBase.cases (hrules : ∀ r ∈ rules, r.Narrow) {d : Derivation} (h : d.IsBase)
    (hf : d.Follows rules) : (∃ token, d = word token) ∨
      ∃ head l r, d = node head [l, r] ∧ ⟨head, [l.root, r.root]⟩ ∈ rules ∧ l.Follows rules ∧
        r.Follows rules := by
  induction hf using Follows.ind hrules with
  | word token => exact .inl ⟨token, rfl⟩
  | single head d _ _ _ => exact absurd rfl (h head d)
  | pair head l r hr hl hr' _ _ => exact .inr ⟨head, l, r, rfl, hr, hl, hr'⟩

theorem Follows.base {d : Derivation} (h : d.Follows rules) : d.base.Follows rules := by
  induction d using indSpine with
  | base d hd => rwa [hd.base_eq]
  | single head d ih => exact ih (follows_singleton_iff.1 h).2

theorem Acyclic.base {d : Derivation} (h : d.Acyclic) : d.base.Acyclic := by
  induction d using indSpine with
  | base d hd => rwa [hd.base_eq]
  | single head d ih => exact ih (acyclic_singleton_iff.1 h).2

theorem unaryPath_spine {d : Derivation} (hf : d.Follows rules) (ha : d.Acyclic) :
    UnaryPath rules d.base.root d.root d.spine := by
  induction d using indSpine with
  | base d hd =>
    rw [hd.base_eq, hd.spine_eq]
    exact .singleton _
  | single head d ih =>
    obtain ⟨hr, hf⟩ := follows_singleton_iff.1 hf
    obtain ⟨hnew, ha⟩ := acyclic_singleton_iff.1 ha
    exact (ih hf ha).concat hr (mt nonterminal_mem_spine_iff.1 hnew)

/-- Every path that starts at the root of a base is the spine of a derivation above it. -/
theorem exists_spine_eq {b : Derivation} (hb : b.IsBase) (hf : b.Follows rules) (ha : b.Acyclic)
    {y : Symbol} {path : List Symbol} (h : UnaryPath rules b.root y path) :
    ∃ d : Derivation, d.base = b ∧ d.spine = path ∧ d.root = y ∧ d.Follows rules ∧ d.Acyclic := by
  induction path using List.reverseRecOn generalizing y with
  | nil => simpa using h.head
  | append_singleton path _ ih =>
    rcases h.cases_concat with ⟨hpath, rfl⟩ | ⟨path', z, head, hpath, rfl, hpath', hr, hnew⟩
    · exact ⟨b, hb.base_eq, hb.spine_eq.trans hpath.symm, rfl, hf, ha⟩
    · obtain ⟨rfl, -⟩ := List.append_inj' hpath rfl
      obtain ⟨d, hbase, rfl, rfl, hdf, hda⟩ := ih hpath'
      exact ⟨node head [d], hbase, hpath.symm, rfl, follows_singleton_iff.2 ⟨hr, hdf⟩,
        acyclic_singleton_iff.2 ⟨mt nonterminal_mem_spine_iff.2 hnew, hda⟩⟩

end Derivation

end PhraseChart
