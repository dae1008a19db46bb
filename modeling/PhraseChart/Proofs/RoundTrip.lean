import PhraseChart.Proofs.LineNumbers
import PhraseChart.Proofs.LineReading

namespace PhraseChart
open Text

/-- A name that can be read, or a word that can stand between marks on one line. -/
def Symbol.Representable : Symbol → Prop
  | terminal word => word ≠ "" ∧ '\n' ∉ word.toList ∧ ¬('\'' ∈ word.toList ∧ '"' ∈ word.toList)
  | nonterminal name => Line.IsName name.toList

structure Rule.Representable (r : Rule) : Prop where
  head : Line.IsName r.head.toList
  body : ∀ s ∈ r.body, s.Representable

structure Grammar.Representable (g : Grammar) : Prop where
  start : ∃ first rest, g.rules = first :: rest ∧ g.start = first.head
  rules : ∀ r ∈ g.rules, r.Representable

theorem Line.IsName.isLine {name : List Char} (h : Line.IsName name) : IsLine name := by
  apply IsLine.of_forall
  intro c hc
  constructor
  · rintro rfl
    exact absurd (h.chars _ hc) (by decide)
  · rintro rfl
    exact absurd (h.chars _ hc) (by decide)

namespace Symbol

theorem toList_text_terminal (word : String) : (terminal word).text.toList =
    (Quote.forWord word).mark :: (word.toList ++ [(Quote.forWord word).mark]) := by
  simp [text, Quote.enclose]

theorem mark_forWord_not_mem {word : String}
    (h : ¬('\'' ∈ word.toList ∧ '"' ∈ word.toList)) : (Quote.forWord word).mark ∉ word.toList := by
  unfold Quote.forWord
  split
  · rename_i hsingle
    exact fun hdouble => h ⟨hsingle, hdouble⟩
  · assumption

theorem isLine_enclosed {word : List Char} (q : Quote) (h : '\n' ∉ word) :
    IsLine (q.mark :: (word ++ [q.mark])) := by
  constructor
  · cases q <;> simp [h, Quote.mark]
  · cases q <;> simp [List.getLast?_cons, Quote.mark]

variable {s : Symbol} {rest text : List Char}

theorem Representable.written (h : s.Representable) (hrest : EndsRun Line.isNameChar rest) :
    Line.Written rest (.symbol s) s.text.toList := by
  cases s with
  | nonterminal name =>
    have hname := Line.Written.name h hrest
    rwa [String.ofList_toList] at hname
  | terminal word =>
    have hne : word.toList ≠ [] := fun he => h.1 (String.toList_eq_nil_iff.1 he)
    have hword := @Line.Written.word rest _ _ hne (mark_forWord_not_mem h.2.2)
    rwa [String.ofList_toList, ← toList_text_terminal] at hword

theorem Representable.isLine (h : s.Representable) : IsLine s.text.toList := by
  cases s with
  | nonterminal name => exact Line.IsName.isLine h
  | terminal word =>
    rw [toList_text_terminal]
    exact isLine_enclosed _ h.2.1

theorem representable_of_written (h : Line.Written rest (.symbol s) text) (hfeed : '\n' ∉ text) :
    s.Representable := by
  cases h with
  | name hname _ => simpa [Representable] using hname
  | @word word q hne hmark =>
    have hword : '\n' ∉ word := by
      intro hc
      exact hfeed (List.mem_cons_of_mem _ (List.mem_append_left _ hc))
    refine ⟨fun he => hne ?_, by rwa [String.toList_ofList], fun hboth => hmark ?_⟩
    · rw [← String.toList_ofList (l := word), he, String.toList_empty]
    · -- the mark that encloses the word is one of the two
      rw [String.toList_ofList] at hboth
      cases q with
      | single => exact hboth.1
      | double => exact hboth.2

end Symbol

namespace Rule

variable {r : Rule}

theorem toList_text (r : Rule) : r.text.toList =
    r.head.toList ++ (' ' :: '-' :: '>' :: r.body.flatMap fun s => ' ' :: s.text.toList) := by
  simp [text, String.toList_join, List.flatMap_map]

theorem body_symbols {body : List Symbol} (h : ∀ s ∈ body, s.Representable) :
    Line.Body (body.map .symbol) (body.flatMap fun s => ' ' :: s.text.toList) := by
  induction body with
  | nil => exact @Line.Body.done [] [] nofun (.inl rfl)
  | cons s body ih =>
    -- a blank or nothing follows, so a name goes no further than it is meant to
    have hrest : EndsRun Line.isNameChar (body.flatMap fun s => ' ' :: s.text.toList) := by
      cases body with
      | nil => exact endsRun_nil
      | cons s' body => exact endsRun_cons.2 (by decide)
    exact .item Line.blanks_space ((h s List.mem_cons_self).written hrest)
      (ih fun s' hs' => h s' (List.mem_cons_of_mem _ hs'))

theorem Representable.denotes (h : r.Representable) : Line.Denotes r.text.toList [r] := by
  have hhead : Line.Headed r.head.toList (r.body.flatMap fun s => ' ' :: s.text.toList)
      r.text.toList := by
    -- the blank before the arrow keeps it apart from a hyphen at the end of the name
    rw [toList_text]
    exact @Line.Headed.intro [] _ [' '] _ nofun h.head (endsRun_cons.2 (by decide))
      Line.blanks_space
  have hrules := Line.Denotes.rules hhead (body_symbols h.body)
    (Line.alternatives_eq_iff.1 (Line.alternatives_map_symbol r.body))
  rwa [List.map_singleton, String.ofList_toList] at hrules

theorem Representable.isLine (h : r.Representable) : IsLine r.text.toList := by
  rw [toList_text]
  apply h.head.isLine.append
  have harrow : IsLine [' ', '-', '>'] := .of_all (by decide)
  have hblank : IsLine [' '] := .of_all (by decide)
  exact harrow.append (.flatMap fun s hs => hblank.append (h.body s hs).isLine)

theorem representable_of_denotes {line : List Char} {rs : List Rule} (h : Line.Denotes line rs)
    (hfeed : '\n' ∉ line) (hr : r ∈ rs) : r.Representable := by
  cases h with
  | nothing => cases hr
  | @rules name body _ is bodies hhead hbody hbodies =>
    obtain ⟨symbols, hsymbols, rfl⟩ := List.mem_map.1 hr
    rw [← Line.alternatives_eq_iff] at hbodies
    rw [← hbodies] at hsymbols
    refine ⟨?_, fun s hs => ?_⟩
    · rw [String.toList_ofList]
      exact hhead.isName
    · obtain ⟨text, rest, hsub, hwritten⟩ :=
        hbody.exists_written (Line.mem_of_mem_alternatives hsymbols hs)
      exact Symbol.representable_of_written hwritten fun hc =>
        hfeed (hhead.suffix.subset (hsub hc))

end Rule

namespace Grammar

variable {g : Grammar} {text : String}

theorem rulesOfLines_map {rules : List Rule} (h : ∀ r ∈ rules, r.Representable) (number : Nat) :
    rulesOfLines number (rules.map fun r => r.text.toList) = .ok rules := by
  refine rulesOfLines_eq_ok_iff.2 ⟨rules.map fun r => [r], ?_, ?_⟩
  · rw [List.map_map, List.map_map]
    exact List.map_congr_left fun r hr => Line.rules_of_denotes (h r hr).denotes
  · rw [← List.flatMap_def, List.flatMap_singleton']

theorem exists_line_of_rulesOfLines {number : Nat} {lines : List (List Char)} {rules : List Rule}
    {r : Rule} (h : rulesOfLines number lines = .ok rules) (hr : r ∈ rules) :
    ∃ line ∈ lines, ∃ rs, Line.rules line = .ok rs ∧ r ∈ rs := by
  obtain ⟨parts, hparts, rfl⟩ := rulesOfLines_eq_ok_iff.1 h
  obtain ⟨rs, hrs, hr⟩ := List.mem_flatten.1 hr
  obtain ⟨line, hline, hread⟩ := List.mem_map.1 (hparts ▸ List.mem_map_of_mem hrs)
  exact ⟨line, hline, rs, hread, hr⟩

theorem ofRules?_eq_some_iff {rules : List Rule} : ofRules? rules = some g ↔
    rules = g.rules ∧ ∃ first rest, g.rules = first :: rest ∧ g.start = first.head := by
  obtain ⟨start, rules'⟩ := g
  cases rules with
  | nil =>
    constructor
    · nofun
    · rintro ⟨rfl, first, rest, hcons, -⟩
      cases hcons
  | cons first rest =>
    rw [ofRules?, Option.some.injEq, Grammar.mk.injEq]
    constructor
    · rintro ⟨rfl, rfl⟩
      exact ⟨rfl, first, rest, rfl, rfl⟩
    · rintro ⟨rfl, first', rest', hcons, rfl⟩
      cases hcons
      exact ⟨rfl, rfl⟩

theorem read_eq_ok_iff : read text = .ok g ↔
    readRules text = .ok g.rules ∧
      ∃ first rest, g.rules = first :: rest ∧ g.start = first.head := by
  unfold read
  split
  · rename_i h
    simp [h]
  · rename_i rules h
    rw [h, Except.ok.injEq, ← ofRules?_eq_some_iff]
    split <;> rename_i hrules <;> simp [hrules]

theorem mem_of_mem_eraseRepsBy_loop {x a : String} {xs acc : List String}
    (h : x ∈ List.eraseRepsBy.loop (· == ·) a xs acc) : x = a ∨ x ∈ xs ∨ x ∈ acc := by
  induction xs generalizing a acc with
  | nil => simpa [List.eraseRepsBy.loop, or_comm] using h
  | cons b xs ih =>
    rw [List.eraseRepsBy.loop] at h
    split at h
    · rcases ih h with h | h | h <;> simp [h]
    · rcases ih h with h | h | h
      · simp [h]
      · simp [h]
      · rcases List.mem_cons.1 h with h | h <;> simp [h]

theorem exists_rule_of_mem_categories {name : String} (h : name ∈ g.categories) :
    ∃ r ∈ g.rules, r.head = name := by
  have hsorted : name ∈ (g.rules.map Rule.head).mergeSort (· ≤ ·) := by
    unfold categories List.eraseReps List.eraseRepsBy at h
    split at h
    · cases h
    · rename_i hcons
      rw [hcons]
      simpa using mem_of_mem_eraseRepsBy_loop h
  exact List.mem_map.1 (List.mem_mergeSort.1 hsorted)

/-- The comment that names the start symbol. -/
def startLine (g : Grammar) : List Char := '#' :: (" start: ".toList ++ g.start.toList)

/-- The comment that lists the categories. -/
def categoriesLine (g : Grammar) : List Char :=
  '#' :: (" nonterminals:".toList ++ g.categories.flatMap fun name => ' ' :: name.toList)

theorem toList_text (g : Grammar) : g.text.toList =
    g.startLine ++ '\n' :: (g.categoriesLine ++ '\n' ::
      g.rules.flatMap fun r => r.text.toList ++ ['\n']) := by
  simp [Grammar.text, startLine, categoriesLine, String.toList_join, List.flatMap_map]

theorem Representable.isLine_startLine (h : g.Representable) : IsLine g.startLine := by
  obtain ⟨first, rest, hrules, hfirst⟩ := h.start
  have hname : IsLine g.start.toList :=
    hfirst ▸ (h.rules first (hrules ▸ List.mem_cons_self)).head.isLine
  have hmark : IsLine ['#'] := .of_all (by decide)
  have hword : IsLine " start: ".toList := .of_all (by decide)
  exact hmark.append (hword.append hname)

theorem Representable.isLine_categoriesLine (h : g.Representable) : IsLine g.categoriesLine := by
  have hmark : IsLine ['#'] := .of_all (by decide)
  have hword : IsLine " nonterminals:".toList := .of_all (by decide)
  have hblank : IsLine [' '] := .of_all (by decide)
  refine hmark.append (hword.append (.flatMap fun name hname => ?_))
  obtain ⟨r, hr, rfl⟩ := exists_rule_of_mem_categories hname
  exact hblank.append (h.rules r hr).head.isLine

theorem Representable.lines_text (h : g.Representable) : lines g.text.toList =
    g.startLine :: g.categoriesLine :: g.rules.map fun r => r.text.toList := by
  rw [toList_text, lines_append_feed h.isLine_startLine, lines_append_feed h.isLine_categoriesLine,
    lines_flatMap_feed fun r hr => (h.rules r hr).isLine]

theorem rules_comment (s : List Char) : Line.rules ('#' :: s) = .ok [] :=
  Line.rules_of_denotes (@Line.Denotes.nothing [] _ nofun (.inr ⟨s, rfl⟩))

theorem Representable.read_text (h : g.Representable) : read g.text = .ok g := by
  rw [read_eq_ok_iff]
  refine ⟨?_, h.start⟩
  rw [readRules, h.lines_text, startLine, categoriesLine, rulesOfLines, rules_comment, rulesOfLines,
    rules_comment, rulesOfLines_map h.rules]
  rfl

theorem representable_of_read (h : read text = .ok g) : g.Representable := by
  obtain ⟨hrules, hstart⟩ := read_eq_ok_iff.1 h
  refine ⟨hstart, fun r hr => ?_⟩
  obtain ⟨line, hline, rs, hrs, hr⟩ := exists_line_of_rulesOfLines hrules hr
  exact Rule.representable_of_denotes (Line.rules_eq_ok_iff.1 hrs) (not_mem_of_mem_lines hline) hr

/-- The representable grammars are those that are read back as they were written, and those that
are read from some text. -/
theorem read_text_iff (g : Grammar) :
    (read g.text = .ok g ↔ g.Representable) ∧ ((∃ text, read text = .ok g) ↔ g.Representable) ∧
    ∀ text, read text = .ok g → read g.text = .ok g :=
  ⟨⟨representable_of_read, Representable.read_text⟩,
    ⟨fun ⟨_, h⟩ => representable_of_read h, fun h => ⟨g.text, h.read_text⟩⟩,
    fun _ h => (representable_of_read h).read_text⟩

/-- A name that ends in a hyphen, words with an arrow, a bar, a number sign and either mark, an
alternative without symbols, and a carriage return before the line feed. -/
theorem read_text_iff_marks :
    ∃ g, read "A- -> \"->'\" '#|\"' B |# none\r\nB ->" = .ok g ∧ g.rules.length = 3 ∧
      read g.text = .ok g := by
  have hread : read "A- -> \"->'\" '#|\"' B |# none\r\nB ->" = .ok ⟨"A-",
      [⟨"A-", [.terminal "->'", .terminal "#|\"", .nonterminal "B"]⟩, ⟨"A-", []⟩, ⟨"B", []⟩]⟩ := by
    decide +kernel
  exact ⟨_, hread, rfl, (read_text_iff _).2.2 _ hread⟩

end Grammar

end PhraseChart
