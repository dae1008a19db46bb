import PhraseChart.Parser

namespace PhraseChart

/-- A rule that a chart can use, with one or two symbols on its right-hand side. -/
def Rule.Narrow (r : Rule) : Prop := r.arity = 1 ∨ r.arity = 2

/-- The heads of the rules with this right-hand side, in rule order. -/
def Rule.headsOf (body : List Symbol) (rules : List Rule) : List String :=
  (rules.filter fun r => r.body = body).map Rule.head

theorem Rule.headsOf_append (body : List Symbol) (rules more : List Rule) :
    headsOf body (rules ++ more) = headsOf body rules ++ headsOf body more := by
  simp [headsOf]

theorem Rule.mem_headsOf {body : List Symbol} {rules : List Rule} {head : String} :
    head ∈ headsOf body rules ↔ ⟨head, body⟩ ∈ rules := by
  rw [headsOf, List.mem_map]
  constructor
  · rintro ⟨r, hr, rfl⟩
    obtain ⟨hr, hbody⟩ := List.mem_filter.1 hr
    rwa [← of_decide_eq_true hbody]
  · intro h
    exact ⟨⟨head, body⟩, List.mem_filter.2 ⟨h, decide_eq_true rfl⟩, rfl⟩

/-- Unless all rules are narrow, there is a first one that is not. -/
theorem Rule.narrow_or_first (rules : List Rule) : (∀ r ∈ rules, r.Narrow) ∨
    ∃ before r after, rules = before ++ r :: after ∧ (∀ r' ∈ before, r'.Narrow) ∧ ¬r.Narrow := by
  induction rules with
  | nil => exact .inl nofun
  | cons r rules ih =>
    by_cases hr : r.Narrow
    · rcases ih with hall | ⟨before, wide, after, rfl, hbefore, hwide⟩
      · exact .inl (List.forall_mem_cons.2 ⟨hr, hall⟩)
      · exact .inr ⟨r :: before, wide, after, rfl, List.forall_mem_cons.2 ⟨hr, hbefore⟩, hwide⟩
    · exact .inr ⟨[], r, rules, rfl, nofun, hr⟩

/-- Narrow rules are those with one symbol and those with two. -/
theorem Rule.length_eq_of_narrow {rules : List Rule} (h : ∀ r ∈ rules, r.Narrow) :
    rules.length = rules.countP (fun r => r.arity = 1) + rules.countP fun r => r.arity = 2 := by
  rw [List.length_eq_countP_add_countP fun r : Rule => decide (r.arity = 1)]
  refine congrArg _ (List.countP_congr fun r hr => ?_)
  have := h r hr
  simp only [Rule.Narrow] at this
  simp only [decide_eq_true_eq]
  omega

namespace ParentTable

variable {κ : Type} [DecidableEq κ]

theorem parents_cons (k : κ) (heads : List String) (rest : List (κ × List String)) (key : κ) :
    parents ⟨(k, heads) :: rest⟩ key = if k = key then heads else parents ⟨rest⟩ key := by
  by_cases h : k = key
  · simp [parents, h]
  · have hne : (key == k) = false := beq_false_of_ne (Ne.symm h)
    simp [parents, List.lookup_cons, h, hne]

/-- A new rule comes after those already there, and only where it is asked for. -/
theorem parents_add (t : ParentTable κ) (k : κ) (head : String) (key : κ) :
    (t.add k head).parents key = t.parents key ++ if k = key then [head] else [] := by
  obtain ⟨entries⟩ := t
  induction entries with
  | nil =>
    rw [add, addTo, parents_cons]
    rfl
  | cons e rest ih =>
    obtain ⟨k', heads⟩ := e
    rw [add] at ih ⊢
    by_cases hk : k' = k
    · rw [addTo, if_pos hk, parents_cons, parents_cons, hk]
      split <;> simp
    · rw [addTo, if_neg hk, parents_cons, parents_cons, ih]
      by_cases h : k' = key
      · have hne : k ≠ key := fun e => hk (h.trans e.symm)
        simp [h, hne]
      · simp [h]

theorem size_add (t : ParentTable κ) (k : κ) (head : String) :
    (t.add k head).size = t.size + 1 := by
  obtain ⟨entries⟩ := t
  induction entries with
  | nil => rfl
  | cons e rest ih =>
    obtain ⟨k', heads⟩ := e
    simp only [add, size, ParentTable.heads] at ih ⊢
    rw [addTo]
    split
    · simp only [List.flatMap_cons, List.length_append, List.length_singleton]
      omega
    · rw [List.flatMap_cons, List.length_append, ih, List.flatMap_cons, List.length_append]
      omega

end ParentTable

namespace Index

/-- A rule is added to one of the two tables, or to none. -/
theorem add_eq_ok_iff {ix ix' : Index} {r : Rule} : ix.add r = .ok ix' ↔
    (∃ child, r.body = [child] ∧ ix' = { ix with unary := ix.unary.add child r.head }) ∨
      ∃ left right, r.body = [left, right] ∧
        ix' = { ix with binary := ix.binary.add (left, right) r.head } := by
  obtain ⟨head, body⟩ := r
  match body with
  | [] => simp [add]
  | [child] => simp [add, eq_comm]
  | [left, right] => simp [add, eq_comm, and_assoc]
  | _ :: _ :: _ :: _ => simp [add]

theorem add_of_not_narrow (ix : Index) {r : Rule} (h : ¬r.Narrow) :
    ix.add r = .error (.badArity r) := by
  obtain ⟨head, body⟩ := r
  match body, h with
  | [], _ => rfl
  | [_], h => exact absurd (.inl rfl) h
  | [_, _], h => exact absurd (.inr rfl) h
  | _ :: _ :: _ :: _, _ => rfl

/-- The index answers for these rules, and all of them are narrow. -/
structure Indexes (ix : Index) (rules : List Rule) : Prop where
  unaryParents : ∀ x, ix.unaryParents x = Rule.headsOf [x] rules
  binaryParents : ∀ x y, ix.binaryParents x y = Rule.headsOf [x, y] rules
  narrow : ∀ r ∈ rules, r.Narrow

theorem Indexes.empty : Indexes {} [] :=
  ⟨fun _ => rfl, fun _ _ => rfl, fun _ h => absurd h List.not_mem_nil⟩

theorem Indexes.add {ix ix' : Index} {rules : List Rule} {r : Rule} (h : ix.Indexes rules)
    (hadd : ix.add r = .ok ix') : ix'.Indexes (rules ++ [r]) := by
  have hnarrow : r.Narrow → ∀ r' ∈ rules ++ [r], r'.Narrow := by
    intro hr r' hr'
    rcases List.mem_append.1 hr' with hr' | hr'
    · exact h.narrow r' hr'
    · rwa [List.mem_singleton.1 hr']
  obtain ⟨head, body⟩ := r
  obtain ⟨child, rfl, rfl⟩ | ⟨left, right, rfl, rfl⟩ := add_eq_ok_iff.1 hadd
  · refine ⟨fun x => ?_, fun x y => ?_, hnarrow (.inl rfl)⟩
    · rw [Rule.headsOf_append, ← h.unaryParents x]
      simp only [Index.unaryParents, ParentTable.parents_add]
      by_cases hx : child = x <;> simp [Rule.headsOf, hx]
    · rw [Rule.headsOf_append, ← h.binaryParents x y]
      simp [Index.binaryParents, Rule.headsOf]
  · refine ⟨fun x => ?_, fun x y => ?_, hnarrow (.inr rfl)⟩
    · rw [Rule.headsOf_append, ← h.unaryParents x]
      simp [Index.unaryParents, Rule.headsOf]
    · rw [Rule.headsOf_append, ← h.binaryParents x y]
      simp only [Index.binaryParents, ParentTable.parents_add]
      by_cases hxy : left = x ∧ right = y <;> simp [Rule.headsOf, hxy]

theorem Indexes.foldlM {ix ix' : Index} {rules more : List Rule} (h : ix.Indexes rules)
    (hadd : more.foldlM Index.add ix = .ok ix') : ix'.Indexes (rules ++ more) := by
  induction more generalizing ix rules with
  | nil =>
    obtain rfl := Except.ok.inj hadd
    rwa [List.append_nil]
  | cons r more ih =>
    rw [List.foldlM_cons] at hadd
    cases hr : ix.add r with
    | error e => simp [hr, bind, Except.bind] at hadd
    | ok next =>
      rw [hr] at hadd
      have hmore := ih (h.add hr) hadd
      rwa [List.append_assoc, List.singleton_append] at hmore

theorem exists_add (ix : Index) {r : Rule} (hr : r.Narrow) : ∃ ix', ix.add r = .ok ix' := by
  obtain ⟨head, body⟩ := r
  match body, hr with
  | [child], _ => exact ⟨_, rfl⟩
  | [left, right], _ => exact ⟨_, rfl⟩
  | [], hr => simp [Rule.Narrow, Rule.arity] at hr
  | _ :: _ :: _ :: _, hr => simp [Rule.Narrow, Rule.arity] at hr

theorem exists_foldlM {rules : List Rule} (h : ∀ r ∈ rules, r.Narrow) (ix : Index) :
    ∃ ix', rules.foldlM Index.add ix = .ok ix' := by
  induction rules generalizing ix with
  | nil => exact ⟨ix, rfl⟩
  | cons r rules ih =>
    obtain ⟨next, hnext⟩ := exists_add ix (h r List.mem_cons_self)
    obtain ⟨last, hlast⟩ := ih (fun r' hr' => h r' (List.mem_cons_of_mem _ hr')) next
    refine ⟨last, ?_⟩
    rw [List.foldlM_cons, hnext]
    exact hlast

/-- The tables grow by one entry for each rule of their arity. -/
theorem size_foldlM {ix ix' : Index} {rules : List Rule}
    (h : rules.foldlM Index.add ix = .ok ix') :
    ix'.unary.size = ix.unary.size + rules.countP (fun r => r.arity = 1) ∧
      ix'.binary.size = ix.binary.size + rules.countP (fun r => r.arity = 2) := by
  induction rules generalizing ix with
  | nil =>
    obtain rfl := Except.ok.inj h
    exact ⟨rfl, rfl⟩
  | cons r rules ih =>
    rw [List.foldlM_cons] at h
    cases hr : ix.add r with
    | error e => simp [hr, bind, Except.bind] at h
    | ok next =>
      rw [hr] at h
      obtain ⟨hunary, hbinary⟩ := ih h
      rw [hunary, hbinary, List.countP_cons, List.countP_cons]
      obtain ⟨child, hbody, rfl⟩ | ⟨left, right, hbody, rfl⟩ := add_eq_ok_iff.1 hr
      · have harity : r.arity = 1 := congrArg List.length hbody
        simp only [harity, ParentTable.size_add, decide_true, Nat.reduceEqDiff, decide_false,
          if_true, Bool.false_eq_true, if_false]
        omega
      · have harity : r.arity = 2 := congrArg List.length hbody
        simp only [harity, ParentTable.size_add, decide_true, Nat.reduceEqDiff, decide_false,
          if_true, Bool.false_eq_true, if_false]
        omega

theorem foldlM_of_first {before after : List Rule} {r : Rule} (hbefore : ∀ r' ∈ before, r'.Narrow)
    (hr : ¬r.Narrow) (ix : Index) :
    (before ++ r :: after).foldlM Index.add ix = .error (.badArity r) := by
  obtain ⟨ix', hix'⟩ := exists_foldlM hbefore ix
  rw [List.foldlM_append, hix']
  change (r :: after).foldlM Index.add ix' = _
  rw [List.foldlM_cons, add_of_not_narrow ix' hr]
  rfl

/-- The error is the first rule that is not narrow. -/
theorem ofRules_eq_error_iff {rules : List Rule} {e : GrammarError} : ofRules rules = .error e ↔
    ∃ before r after, rules = before ++ r :: after ∧ (∀ r' ∈ before, r'.Narrow) ∧ ¬r.Narrow ∧
      e = .badArity r := by
  constructor
  · intro h
    rcases Rule.narrow_or_first rules with hall | ⟨before, r, after, rfl, hbefore, hr⟩
    · obtain ⟨ix, hix⟩ := exists_foldlM hall {}
      cases h.symm.trans hix
    · exact ⟨before, r, after, rfl, hbefore, hr,
        (Except.error.inj ((foldlM_of_first hbefore hr {}).symm.trans h)).symm⟩
  · rintro ⟨before, r, after, rfl, hbefore, hr, rfl⟩
    exact foldlM_of_first hbefore hr {}

/-- There is no index where some rule has neither one nor two symbols, and the first such rule is
the error. Otherwise each rule stands in one of two tables, and what is asked of them is answered
from the list of rules. -/
theorem ofRules_partitions (g : Grammar) :
    ((∃ e, ofRules g.rules = .error e) ↔ ∃ r ∈ g.rules, r.arity ≠ 1 ∧ r.arity ≠ 2) ∧
    (∀ e, ofRules g.rules = .error e ↔ ∃ before r after, g.rules = before ++ r :: after ∧
      (∀ r' ∈ before, r'.Narrow) ∧ ¬r.Narrow ∧ e = .badArity r) ∧
    (∀ r, (GrammarError.badArity r).message = "invalid grammar: rule `" ++ r.text ++ "` has " ++
      toString r.arity ++ " right-hand side symbols, expected 1 or 2") ∧
    ((∀ r ∈ g.rules, r.Narrow) → ∃ ix, ofRules g.rules = .ok ix ∧
      (∀ x, ix.unaryParents x = (g.rules.filter fun r => r.body = [x]).map Rule.head) ∧
      (∀ x y, ix.binaryParents x y = (g.rules.filter fun r => r.body = [x, y]).map Rule.head) ∧
      ix.unary.size = g.rules.countP (fun r => r.arity = 1) ∧
      ix.binary.size = g.rules.countP (fun r => r.arity = 2) ∧
      ix.unary.size + ix.binary.size = g.rules.length) := by
  refine ⟨?_, fun e => ofRules_eq_error_iff, fun r => rfl, fun h => ?_⟩
  · constructor
    · rintro ⟨e, he⟩
      obtain ⟨before, r, after, hcut, -, hr, -⟩ := ofRules_eq_error_iff.1 he
      exact ⟨r, by simp [hcut], not_or.1 hr⟩
    · rintro ⟨r, hr, hwide⟩
      rcases Rule.narrow_or_first g.rules with hall | ⟨before, first, after, hcut, hbefore, hfirst⟩
      · exact absurd (hall r hr) (not_or.2 hwide)
      · exact ⟨_, ofRules_eq_error_iff.2 ⟨before, first, after, hcut, hbefore, hfirst, rfl⟩⟩
  · obtain ⟨ix, hix⟩ := exists_foldlM h {}
    have hindexes := Indexes.empty.foldlM hix
    obtain ⟨hunary, hbinary⟩ := size_foldlM hix
    have hunary' : ix.unary.size = g.rules.countP fun r => r.arity = 1 :=
      hunary.trans (Nat.zero_add _)
    have hbinary' : ix.binary.size = g.rules.countP fun r => r.arity = 2 :=
      hbinary.trans (Nat.zero_add _)
    refine ⟨ix, hix, hindexes.unaryParents, hindexes.binaryParents, hunary', hbinary', ?_⟩
    rw [hunary', hbinary', Rule.length_eq_of_narrow h]

/-- A rule that stands twice, a rule between the two, and a word spelled like a name. -/
theorem ofRules_partitions_repeated :
    ∃ ix, ofRules [⟨"A", [.terminal "x"]⟩, ⟨"B", [.terminal "x"]⟩, ⟨"A", [.terminal "x"]⟩,
        ⟨"x", [.nonterminal "x", .nonterminal "x"]⟩] = .ok ix ∧
      ix.unaryParents (.terminal "x") = ["A", "B", "A"] ∧
      ix.unaryParents (.nonterminal "x") = [] ∧
      ix.binaryParents (.nonterminal "x") (.nonterminal "x") = ["x"] ∧
      ix.unary.size = 3 ∧ ix.binary.size = 1 ∧
      ofRules [⟨"A", [.terminal "x"]⟩, ⟨"B", []⟩, ⟨"C", []⟩] = .error (.badArity ⟨"B", []⟩) := by
  obtain ⟨-, -, -, hindexed⟩ := ofRules_partitions ⟨"A", [⟨"A", [.terminal "x"]⟩,
    ⟨"B", [.terminal "x"]⟩, ⟨"A", [.terminal "x"]⟩, ⟨"x", [.nonterminal "x", .nonterminal "x"]⟩]⟩
  obtain ⟨ix, hix, hunary, hbinary, hone, htwo, -⟩ := hindexed (by simp [Rule.Narrow, Rule.arity])
  obtain ⟨-, hfirst, -⟩ :=
    ofRules_partitions ⟨"A", [⟨"A", [.terminal "x"]⟩, ⟨"B", []⟩, ⟨"C", []⟩]⟩
  refine ⟨ix, hix, hunary _, hunary _, hbinary _ _, hone, htwo, (hfirst _).2 ?_⟩
  exact ⟨[⟨"A", [.terminal "x"]⟩], ⟨"B", []⟩, [⟨"C", []⟩], rfl,
    by simp [Rule.Narrow, Rule.arity], by simp [Rule.Narrow, Rule.arity], rfl⟩

end Index

/-- The parsers are the grammars that can be indexed. -/
theorem Parser.ofGrammar_eq_ok_iff {g : Grammar} {p : Parser} :
    Parser.ofGrammar g = .ok p ↔ p.grammar = g := by
  unfold ofGrammar
  obtain ⟨grammar, index, indexed⟩ := p
  constructor
  · intro h
    split at h
    · simp at h
    · exact (congrArg Parser.grammar (Except.ok.inj h)).symm
  · rintro rfl
    split
    · rename_i h
      rw [indexed] at h
      simp at h
    · rename_i h
      rw [indexed] at h
      simp [Except.ok.inj h]

/-- There is a parser for every grammar whose rules are narrow. -/
theorem Parser.exists_of_narrow {g : Grammar} (h : ∀ r ∈ g.rules, r.Narrow) :
    ∃ p : Parser, Parser.ofGrammar g = .ok p ∧ p.grammar = g := by
  obtain ⟨ix, hix⟩ := Index.exists_foldlM h {}
  exact ⟨⟨g, ix, hix⟩, Parser.ofGrammar_eq_ok_iff.2 rfl, rfl⟩

/-- A parser's index answers for its grammar. -/
theorem Parser.indexes (p : Parser) : p.index.Indexes p.grammar.rules :=
  Index.Indexes.empty.foldlM p.indexed

end PhraseChart
