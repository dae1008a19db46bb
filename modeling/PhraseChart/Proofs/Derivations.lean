import PhraseChart.Proofs.Indexing

namespace PhraseChart.Derivation

mutual

/-- The tokens covered, from left to right. -/
def tokens : Derivation → List String
  | word token => [token]
  | node _ parts => tokensAll parts

def tokensAll : List Derivation → List String
  | [] => []
  | d :: ds => d.tokens ++ tokensAll ds

end

@[simp] theorem tokens_word (token : String) : (word token).tokens = [token] := rfl

@[simp] theorem tokens_node_singleton (head : String) (d : Derivation) :
    (node head [d]).tokens = d.tokens := List.append_nil _

@[simp] theorem tokens_node_pair (head : String) (d e : Derivation) :
    (node head [d, e]).tokens = d.tokens ++ e.tokens := by
  simp [tokens, tokensAll]

theorem tokensAll_append (ds es : List Derivation) :
    tokensAll (ds ++ es) = tokensAll ds ++ tokensAll es := by
  induction ds with
  | nil => rfl
  | cons d ds ih => rw [List.cons_append, tokensAll, ih, tokensAll, List.append_assoc]

/-- The condition holds at every node; it reads the head and the parts of the node. -/
inductive Everywhere (P : String → List Derivation → Prop) : Derivation → Prop
  | word (token : String) : Everywhere P (word token)
  | node {head : String} {parts : List Derivation} (here : P head parts)
      (below : ∀ d ∈ parts, Everywhere P d) : Everywhere P (node head parts)

theorem everywhere_node_iff {P : String → List Derivation → Prop} {head : String}
    {parts : List Derivation} :
    Everywhere P (node head parts) ↔ P head parts ∧ ∀ d ∈ parts, Everywhere P d := by
  constructor
  · intro h
    cases h with
    | node here below => exact ⟨here, below⟩
  · rintro ⟨here, below⟩
    exact .node here below

section Decide

variable (P : String → List Derivation → Prop) [∀ head parts, Decidable (P head parts)]

mutual

protected def decEverywhere : (d : Derivation) → Decidable (d.Everywhere P)
  | .word token => isTrue (.word token)
  | .node head parts =>
    have := Derivation.decEverywhereAll parts
    decidable_of_iff (P head parts ∧ ∀ d ∈ parts, d.Everywhere P) everywhere_node_iff.symm

protected def decEverywhereAll : (ds : List Derivation) → Decidable (∀ d ∈ ds, d.Everywhere P)
  | [] => isTrue fun _ h => absurd h List.not_mem_nil
  | d :: ds =>
    have := Derivation.decEverywhere d
    have := Derivation.decEverywhereAll ds
    decidable_of_iff (d.Everywhere P ∧ ∀ e ∈ ds, e.Everywhere P) List.forall_mem_cons.symm

end

instance : DecidablePred (Everywhere P) := Derivation.decEverywhere P

end Decide

/-- Every node, with the roots of its parts, is a rule. -/
def Follows (rules : List Rule) : Derivation → Prop :=
  Everywhere fun head parts => ⟨head, parts.map root⟩ ∈ rules

instance (rules : List Rule) : DecidablePred (Follows rules) :=
  inferInstanceAs (DecidablePred (Everywhere _))

/-- No node with one part has its own head on the chain of that part. -/
def Acyclic : Derivation → Prop :=
  Everywhere fun head parts => ∀ d, parts = [d] → head ∉ d.chain

theorem follows_singleton_iff {rules : List Rule} {head : String} {d : Derivation} :
    (node head [d]).Follows rules ↔ ⟨head, [d.root]⟩ ∈ rules ∧ d.Follows rules := by
  simp [Follows, everywhere_node_iff]

theorem follows_pair_iff {rules : List Rule} {head : String} {d e : Derivation} :
    (node head [d, e]).Follows rules ↔
      ⟨head, [d.root, e.root]⟩ ∈ rules ∧ d.Follows rules ∧ e.Follows rules := by
  simp [Follows, everywhere_node_iff]

theorem acyclic_singleton_iff {head : String} {d : Derivation} :
    (node head [d]).Acyclic ↔ head ∉ d.chain ∧ d.Acyclic := by
  simp [Acyclic, everywhere_node_iff]

theorem acyclic_pair_iff {head : String} {d e : Derivation} :
    (node head [d, e]).Acyclic ↔ d.Acyclic ∧ e.Acyclic := by
  simp [Acyclic, everywhere_node_iff]

theorem Everywhere.imp {P Q : String → List Derivation → Prop}
    (hpq : ∀ head parts, P head parts → Q head parts) {d : Derivation} (h : d.Everywhere P) :
    d.Everywhere Q := by
  induction h with
  | word token => exact .word token
  | node here _ ih => exact .node (hpq _ _ here) ih

theorem Follows.narrow {rules : List Rule} (hrules : ∀ r ∈ rules, r.Narrow) {d : Derivation}
    (h : d.Follows rules) : d.Everywhere fun _ parts => parts.length = 1 ∨ parts.length = 2 := by
  apply h.imp
  intro head parts here
  simpa [Rule.Narrow, Rule.arity] using hrules _ here

/-- Over rules with one or two symbols, derivations are built from tokens by joining one or two. -/
theorem Follows.ind {rules : List Rule} (hrules : ∀ r ∈ rules, r.Narrow)
    {motive : (d : Derivation) → d.Follows rules → Prop}
    (word : ∀ token, motive (word token) (.word token))
    (single : ∀ head d (hr : ⟨head, [d.root]⟩ ∈ rules) (hd : d.Follows rules), motive d hd →
      motive (node head [d]) (follows_singleton_iff.2 ⟨hr, hd⟩))
    (pair : ∀ head d e (hr : ⟨head, [d.root, e.root]⟩ ∈ rules) (hd : d.Follows rules)
      (he : e.Follows rules), motive d hd → motive e he →
      motive (node head [d, e]) (follows_pair_iff.2 ⟨hr, hd, he⟩))
    {d : Derivation} (h : d.Follows rules) : motive d h := by
  induction h with
  | word token => exact word token
  | @node head parts here below ih =>
    match parts, hrules _ here with
    | [d], _ =>
      exact single head d here (below d List.mem_cons_self) (ih d List.mem_cons_self)
    | [d, e], _ =>
      exact pair head d e here (below d (by simp)) (below e (by simp)) (ih d (by simp))
        (ih e (by simp))
    | [], h => simp [Rule.Narrow, Rule.arity] at h
    | _ :: _ :: _ :: _, h => simp [Rule.Narrow, Rule.arity] at h

theorem tokens_ne_nil {rules : List Rule} (hrules : ∀ r ∈ rules, r.Narrow) {d : Derivation}
    (h : d.Follows rules) : d.tokens ≠ [] := by
  induction h using Follows.ind hrules with
  | word token => exact List.cons_ne_nil _ _
  | single head d _ _ ih => rwa [tokens_node_singleton]
  | pair head d e _ _ _ ih _ => simp [ih]

/-- A head on the chain of a derivation is the root of a part of it that covers as much. -/
theorem exists_root_of_mem_chain {rules : List Rule} {head : String} {d : Derivation}
    (hd : head ∈ d.chain) (hf : d.Follows rules) (ha : d.Acyclic) :
    ∃ e : Derivation, e.root = .nonterminal head ∧ e.tokens = d.tokens ∧ e.Follows rules ∧
      e.Acyclic := by
  induction d using Derivation.ind with
  | word token => simp [chain] at hd
  | node top parts ih =>
    by_cases htop : head = top
    · exact ⟨node top parts, by rw [htop, root], rfl, hf, ha⟩
    · -- the head stands further down, so the node has one part
      match parts, hd with
      | [d], hd =>
        have hd : head ∈ d.chain := (List.mem_cons.1 hd).resolve_left htop
        obtain ⟨e, hroot, htokens, he⟩ := ih d List.mem_cons_self hd
          (follows_singleton_iff.1 hf).2 (acyclic_singleton_iff.1 ha).2
        exact ⟨e, hroot, by rw [htokens, tokens_node_singleton], he⟩
      | [], hd => exact absurd (List.mem_singleton.1 hd) htop
      | _ :: _ :: _, hd => exact absurd (List.mem_singleton.1 hd) htop

end PhraseChart.Derivation
