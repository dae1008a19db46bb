import PhraseChart.Proofs.Agreement
import PhraseChart.Proofs.RoundTrip
import PhraseChart.Proofs.Tokens

namespace PhraseChart
open Text

/-- What may stand in a name may stand in a word, and an opening bracket may not. -/
structure WordClass.SuitsNames (w : WordClass) : Prop where
  isPart_of_isNameChar : ∀ {c : Char}, Line.isNameChar c = true → w.isPart c = true
  holds_bracket : w.holds '(' = false

theorem CharTables.unicode_suitsNames : CharTables.unicode.words.SuitsNames where
  isPart_of_isNameChar := by
    intro c h
    rw [WordClass.isPart, Bool.or_eq_true, beq_iff_eq]
    have hword : ∀ r ∈ wordRangesBelow800, r.1 ≤ c.toNat ∧ c.toNat ≤ r.2 → isWordChar c = true := by
      intro r hr hc
      exact inRanges_iff.2 ⟨r, by simp [wordRanges, hr], hc⟩
    simp only [Line.isNameChar_iff, Char.le_def, UInt32.le_iff_toNat_le, Char.toNat_val,
      Char.reduceToNat] at h
    rcases h with h | h | h | h | rfl
    · exact .inr (hword (0x41, 0x5a) (by decide) h)
    · exact .inr (hword (0x61, 0x7a) (by decide) h)
    · exact .inr (hword (0x30, 0x39) (by decide) h)
    · exact .inl h
    · exact .inr (hword (0x5f, 0x5f) (by decide) (by decide))
  holds_bracket := by decide +kernel

namespace Derivation

/-- The name behind an opening bracket at the front, and what follows it. -/
def opened? : List Char → Option (String × List Char)
  | '(' :: s => Line.name? s
  | _ => none

theorem length_lt_of_opened? {s rest : List Char} {name : String}
    (h : opened? s = some (name, rest)) : rest.length < s.length := by
  unfold opened? at h
  split at h
  · exact Nat.lt_succ_of_lt (Line.length_lt_of_name? h)
  · cases h

/-- How far the reading of a bracketed text has come. -/
structure Reading where
  /-- The parts that the innermost open node has so far. -/
  parts : List Derivation
  /-- For each open node its head and the parts before it in the node around it. -/
  outer : List (String × List Derivation)
  /-- The tokens that are still to come. -/
  tokens : List String

namespace Reading

/-- Behind a blank a node is opened, or else the next token stands there. -/
def piece? (r : Reading) (s : List Char) : Option (Reading × List Char) :=
  match opened? s with
  | some (head, rest) => some (⟨[], (head, r.parts) :: r.outer, r.tokens⟩, rest)
  | none =>
    match r.tokens with
    | [] => none
    | token :: tokens =>
      if token.toList <+: s then
        some (⟨r.parts ++ [word token], r.outer, tokens⟩, s.drop token.toList.length)
      else none

/-- The innermost open node has all its parts. -/
def close? (r : Reading) : Option Reading :=
  match r.outer with
  | [] => none
  | (head, before) :: outer => some ⟨before ++ [node head r.parts], outer, r.tokens⟩

def result? (r : Reading) : Option Derivation :=
  match r.parts, r.outer, r.tokens with
  | [d], [], [] => some d
  | _, _, _ => none

theorem length_le_of_piece? {r r' : Reading} {s rest : List Char}
    (h : r.piece? s = some (r', rest)) : rest.length ≤ s.length := by
  unfold piece? at h
  split at h
  · rename_i hopened
    cases h
    exact Nat.le_of_lt (length_lt_of_opened? hopened)
  split at h
  · cases h
  split at h
  · cases h
    exact (List.drop_sublist _ _).length_le
  · cases h

/-- Reads on to the end of the text. -/
def finish? (r : Reading) : List Char → Option Derivation
  | [] => r.result?
  | ' ' :: s =>
    match _h : r.piece? s with
    | some (r', rest) => finish? r' rest
    | none => none
  | ')' :: s =>
    match r.close? with
    | some r' => finish? r' s
    | none => none
  | _ => none
termination_by s => s.length
decreasing_by
  · exact Nat.lt_succ_of_le (length_le_of_piece? (by assumption))
  · exact Nat.lt_succ_self _

end Reading

/-- The derivation that a bracketed text stands for, given its tokens. -/
def ofText? (tokens : List String) (text : String) : Option Derivation :=
  Reading.finish? ⟨[], [], tokens⟩ (' ' :: text.toList)

/-- The heads are names that can be read, and the words are tokens. -/
structure Readable (w : WordClass) (d : Derivation) : Prop where
  heads : d.Everywhere fun head _ => Line.IsName head.toList
  words : ∀ token ∈ d.tokens, IsToken w token.toList

variable {w : WordClass} {d : Derivation} {parts : List Derivation}
  {outer : List (String × List Derivation)}
  {later : List String} {rest : List Char} {head token : String}

theorem mem_tokensAll {ds : List Derivation} :
    token ∈ tokensAll ds ↔ ∃ d ∈ ds, token ∈ d.tokens := by
  induction ds with
  | nil => simp [tokensAll]
  | cons d ds ih => simp [tokensAll, ih]

theorem readable_word_iff : (word token).Readable w ↔ IsToken w token.toList := by
  constructor
  · exact fun h => h.words token List.mem_cons_self
  · intro h
    refine ⟨.word token, fun t ht => ?_⟩
    rwa [List.mem_singleton.1 ht]

theorem readable_node_iff : (node head parts).Readable w ↔
    Line.IsName head.toList ∧ ∀ d ∈ parts, d.Readable w := by
  constructor
  · rintro ⟨hheads, hwords⟩
    obtain ⟨hname, hparts⟩ := everywhere_node_iff.1 hheads
    exact ⟨hname, fun d hd => ⟨hparts d hd, fun token ht =>
      hwords token (mem_tokensAll.2 ⟨d, hd, ht⟩)⟩⟩
  · rintro ⟨hname, hparts⟩
    refine ⟨.node hname fun d hd => (hparts d hd).heads, fun token ht => ?_⟩
    obtain ⟨d, hd, ht⟩ := mem_tokensAll.1 ht
    exact (hparts d hd).words token ht

/-- No token, with what may follow it, looks like a bracket and a name. -/
theorem opened?_token (hw : w.SuitsNames) (h : IsToken w token.toList)
    (hrest : EndsRun Line.isNameChar rest) :
    opened? (token.toList ++ rest) = none := by
  -- whether it goes on with its own second character or with the rest, that is not in a name
  have hnone : ∀ run, (∀ c ∈ run, w.isPunctuation c = true) → Line.name? (run ++ rest) = none := by
    intro run hrun
    have hend : EndsRun Line.isNameChar (run ++ rest) := by
      cases run with
      | nil => exact hrest
      | cons c run =>
        rw [List.cons_append, endsRun_cons, ← Bool.not_eq_true]
        intro hc
        have hpart := w.isPart_of_isPunctuation (hrun c List.mem_cons_self)
        rw [hw.isPart_of_isNameChar hc] at hpart
        cases hpart
    simp [Line.name?, takeWhile_of_endsRun hend]
  have hbracket : w.isPart '(' = false := by
    rw [WordClass.isPart, hw.holds_bracket]
    rfl
  generalize token.toList = run at h
  cases h with
  | word hne hrun =>
    obtain ⟨c, cs, rfl⟩ := List.exists_cons_of_ne_nil hne
    have hc : c ≠ '(' := by
      rintro rfl
      rw [hrun _ List.mem_cons_self] at hbracket
      cases hbracket
    simp [opened?, hc]
  | clitic => rfl
  | punctuation hne hrun =>
    obtain ⟨c, cs, rfl⟩ := List.exists_cons_of_ne_nil hne
    by_cases hc : c = '('
    · subst hc
      exact hnone cs fun d hd => hrun d (List.mem_cons_of_mem _ hd)
    · simp [opened?, hc]

namespace Reading

theorem finish?_piece {r r' : Reading} {s : List Char} (h : r.piece? s = some (r', rest)) :
    r.finish? (' ' :: s) = r'.finish? rest := by
  rw [finish?]
  split
  · rename_i h'
    rw [h] at h'
    cases h'
    rfl
  · rename_i h'
    rw [h] at h'
    cases h'

theorem finish?_name (hname : Line.IsName head.toList) (hrest : EndsRun Line.isNameChar rest) :
    finish? ⟨parts, outer, later⟩ (' ' :: '(' :: (head.toList ++ rest)) =
      finish? ⟨[], (head, parts) :: outer, later⟩ rest := by
  have hopened : opened? ('(' :: (head.toList ++ rest)) = some (head, rest) :=
    Line.name?_eq_some_iff.2 ⟨_, rfl, hname, hrest, String.ofList_toList.symm⟩
  apply finish?_piece
  rw [piece?, hopened]

theorem finish?_token (hw : w.SuitsNames) (h : IsToken w token.toList)
    (hrest : EndsRun Line.isNameChar rest) :
    finish? ⟨parts, outer, token :: later⟩ (' ' :: (token.toList ++ rest)) =
      finish? ⟨parts ++ [word token], outer, later⟩ rest := by
  apply finish?_piece
  rw [piece?, opened?_token hw h hrest]
  dsimp only
  rw [if_pos (List.prefix_append _ _), List.drop_left]

theorem finish?_close (before : List Derivation) :
    finish? ⟨parts, (head, before) :: outer, later⟩ (')' :: rest) =
      finish? ⟨before ++ [node head parts], outer, later⟩ rest := by
  rw [finish?]
  rfl

end Reading

theorem toList_text_node : (node head parts).text.toList =
    '(' :: (head.toList ++ ((textAll parts).toList ++ [')'])) := by
  simp [text]

theorem toList_textAll_cons (ds : List Derivation) :
    (textAll (d :: ds)).toList = ' ' :: (d.text.toList ++ (textAll ds).toList) := by
  simp [textAll]

/-- What follows a part goes on with a blank or a closing bracket. -/
theorem endsRun_textAll (ds : List Derivation) (rest : List Char) :
    EndsRun Line.isNameChar ((textAll ds).toList ++ ')' :: rest) := by
  cases ds with
  | nil => exact endsRun_cons.2 (by decide)
  | cons d ds =>
    rw [toList_textAll_cons]
    exact endsRun_cons.2 (by decide)

/-- Reading the text of a derivation adds it to the parts of the innermost open node. -/
theorem finish?_text (hw : w.SuitsNames) (hd : d.Readable w)
    (hrest : EndsRun Line.isNameChar rest) :
    Reading.finish? ⟨parts, outer, d.tokens ++ later⟩ (' ' :: (d.text.toList ++ rest)) =
      Reading.finish? ⟨parts ++ [d], outer, later⟩ rest := by
  induction d using Derivation.ind generalizing parts outer later rest with
  | word token => exact Reading.finish?_token hw (readable_word_iff.1 hd) hrest
  | node head ds ih =>
    obtain ⟨hname, hds⟩ := readable_node_iff.1 hd
    -- the parts are read one after the other, each by the induction hypothesis
    have hall : ∀ es ⊆ ds, ∀ before frames,
        Reading.finish? ⟨before, frames, tokensAll es ++ later⟩
            ((textAll es).toList ++ ')' :: rest) =
          Reading.finish? ⟨before ++ es, frames, later⟩ (')' :: rest) := by
      intro es
      induction es with
      | nil =>
        intro _ before frames
        rw [List.append_nil]
        rfl
      | cons e es ihes =>
        intro hsub before frames
        obtain ⟨he, hes⟩ := List.cons_subset.1 hsub
        rw [toList_textAll_cons, tokensAll, List.append_assoc, List.cons_append, List.append_assoc,
          ih e he (hds e he) (endsRun_textAll es rest), ihes hes, List.append_assoc,
          List.singleton_append]
    rw [toList_text_node, List.cons_append, List.append_assoc, List.append_assoc,
      List.singleton_append, Reading.finish?_name hname (endsRun_textAll ds rest), tokens,
      hall ds (List.Subset.refl _), List.nil_append, Reading.finish?_close]

theorem ofText?_text (hw : w.SuitsNames) (hd : d.Readable w) :
    ofText? d.tokens d.text = some d := by
  have hread : Reading.finish? ⟨[], [], d.tokens ++ []⟩ (' ' :: (d.text.toList ++ [])) =
      Reading.finish? ⟨[d], [], []⟩ [] := finish?_text hw hd endsRun_nil
  rw [List.append_nil, List.append_nil] at hread
  rw [ofText?, hread, Reading.finish?]
  rfl

end Derivation

/-- The tree that a bracketed text stands for, given its tokens. -/
def Tree.ofBracketed? (tokens : List String) (text : String) : Option Tree :=
  (Derivation.ofText? tokens text).map fun d => d.toTree 0

namespace Parser

variable {w : WordClass} {p : Parser} {tokens : List String}

theorem readable_of_mem_startLabels (hnames : ∀ r ∈ p.grammar.rules, Line.IsName r.head.toList)
    (htokens : ∀ token ∈ tokens, IsToken w token.toList) {l : Label}
    (hl : l ∈ (p.analyze tokens).startLabels) : l.derivation.Readable w := by
  obtain ⟨-, ha⟩ := (mem_startLabels_iff p).1 hl
  refine ⟨ha.follows.imp fun head parts hr => hnames _ hr, fun token ht => htokens token ?_⟩
  rwa [ha.tokens] at ht

theorem ofBracketed?_of_mem_parseAll (hw : w.SuitsNames)
    (hnames : ∀ r ∈ p.grammar.rules, Line.IsName r.head.toList)
    (htokens : ∀ token ∈ tokens, IsToken w token.toList) {t : Tree} (ht : t ∈ p.parseAll tokens) :
    Tree.ofBracketed? tokens t.bracketed = some t := by
  obtain ⟨l, hl, rfl⟩ := List.mem_map.1 ht
  have hread := Derivation.ofText?_text hw (readable_of_mem_startLabels hnames htokens hl)
  rw [((mem_startLabels_iff p).1 hl).2.tokens] at hread
  rw [Tree.ofBracketed?, Derivation.bracketed_toTree, hread]
  rfl

/-- Different trees have different brackets. -/
theorem nodup_map_bracketed (hw : w.SuitsNames)
    (hnames : ∀ r ∈ p.grammar.rules, Line.IsName r.head.toList)
    (htokens : ∀ token ∈ tokens, IsToken w token.toList) :
    ((p.parseAll tokens).map Tree.bracketed).Nodup := by
  apply List.Nodup.map_on _ (nodup_trees p tokens)
  intro t ht u hu h
  have hreadt := ofBracketed?_of_mem_parseAll hw hnames htokens ht
  rw [h, ofBracketed?_of_mem_parseAll hw hnames htokens hu] at hreadt
  exact (Option.some.inj hreadt).symm

theorem isName_head_of_read {text : String} {g : Grammar} (hg : Grammar.read text = .ok g)
    (hp : ofGrammar g = .ok p) : ∀ r ∈ p.grammar.rules, Line.IsName r.head.toList := by
  rw [ofGrammar_eq_ok_iff.1 hp]
  exact fun r hr => ((Grammar.representable_of_read hg).rules r hr).head

/-- The bracketed texts of the trees of a sentence are all different: given its tokens, each tree
can be read back from its text. -/
theorem bracketed_reads_back (hw : w.SuitsNames) {text : String} {g : Grammar}
    (hg : Grammar.read text = .ok g) (hp : ofGrammar g = .ok p) (sentence : String) :
    ((p.parseAll (w.tokenize sentence)).map Tree.bracketed).Nodup ∧
    ∀ t ∈ p.parseAll (w.tokenize sentence),
      Tree.ofBracketed? (w.tokenize sentence) t.bracketed = some t := by
  have hnames := isName_head_of_read hg hp
  have htokens : ∀ token ∈ w.tokenize sentence, IsToken w token.toList :=
    fun token => isToken_of_mem_tokenize
  exact ⟨nodup_map_bracketed hw hnames htokens,
    fun t => ofBracketed?_of_mem_parseAll hw hnames htokens⟩

/-- A parser for sentences of brackets. -/
def bracketing : Parser where
  grammar := ⟨"S", [⟨"S", [.nonterminal "S", .nonterminal "S"]⟩, ⟨"S", [.terminal "("]⟩,
    ⟨"S", [.terminal "))"]⟩]⟩
  index :=
    { unary := ⟨[(.terminal "(", ["S"]), (.terminal "))", ["S"])]⟩
      binary := ⟨[((.nonterminal "S", .nonterminal "S"), ["S"])]⟩ }
  indexed := rfl

/-- Three tokens that are brackets, and the two ways to join them. -/
theorem bracketed_reads_back_brackets :
    CharTables.unicode.words.SuitsNames ∧
      Grammar.read "S -> S S | '(' | '))'" = .ok bracketing.grammar ∧
      ofGrammar bracketing.grammar = .ok bracketing ∧
      (bracketing.parseAll (tokenize "( )) (")).map Tree.bracketed =
        ["(S (S () (S (S ))) (S ()))", "(S (S (S () (S )))) (S ())"] ∧
      ((bracketing.parseAll (tokenize "( )) (")).map Tree.bracketed).Nodup ∧
      ∃ t ∈ bracketing.parseAll (tokenize "( )) ("), t.bracketed = "(S (S () (S (S ))) (S ()))" ∧
        Tree.ofBracketed? (tokenize "( )) (") "(S (S () (S (S ))) (S ()))" = some t := by
  have hg : Grammar.read "S -> S S | '(' | '))'" = .ok bracketing.grammar := by decide +kernel
  have hp : ofGrammar bracketing.grammar = .ok bracketing := rfl
  have htexts : (bracketing.parseAll (tokenize "( )) (")).map Tree.bracketed =
      ["(S (S () (S (S ))) (S ()))", "(S (S (S () (S )))) (S ())"] := by decide +kernel
  obtain ⟨hnodup, hback⟩ := bracketed_reads_back CharTables.unicode_suitsNames hg hp "( )) ("
  obtain ⟨t, ht, htext⟩ := List.mem_map.1 (htexts ▸ List.mem_cons_self)
  exact ⟨CharTables.unicode_suitsNames, hg, hp, htexts, hnodup, t, ht, htext, htext ▸ hback t ht⟩

end Parser

end PhraseChart
