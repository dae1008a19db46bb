import PhraseChart.Proofs.Lines
import PhraseChart.Proofs.Runs
import PhraseChart.Tree.Layout

namespace PhraseChart

namespace Text

/-- Nothing in the text ends a line. -/
def IsOneLine (text : String) : Prop := '\n' ∉ text.toList ∧ '\r' ∉ text.toList

instance (text : String) : Decidable (IsOneLine text) := inferInstanceAs (Decidable (_ ∧ _))

theorem IsOneLine.append {s t : String} (hs : IsOneLine s) (ht : IsOneLine t) :
    IsOneLine (s ++ t) := by
  simp only [IsOneLine, String.toList_append, List.mem_append, not_or]
  exact ⟨⟨hs.1, ht.1⟩, hs.2, ht.2⟩

theorem isOneLine_toString (n : Nat) : IsOneLine (toString n) :=
  ⟨fun h => absurd (isDigit_of_mem_toString h) (by decide),
    fun h => absurd (isDigit_of_mem_toString h) (by decide)⟩

/-- The second text is the first one put two blanks further in, its first line apart. -/
structure Indents (s s' : String) : Prop where
  no_return : '\r' ∉ s.toList
  toList_eq : s'.toList = replaceFeeds ['\n', ' ', ' '] s.toList

namespace Indents

variable {s s' t t' : String}

theorem of_isOneLine (h : IsOneLine s) : Indents s s :=
  ⟨h.2, (replaceFeeds_of_not_mem _ h.1).symm⟩

theorem append (hs : Indents s s') (ht : Indents t t') : Indents (s ++ t) (s' ++ t') := by
  constructor
  · rw [String.toList_append, List.mem_append]
    exact not_or.2 ⟨hs.no_return, ht.no_return⟩
  · rw [String.toList_append, String.toList_append, hs.toList_eq, ht.toList_eq,
      replaceFeeds_append]

theorem feed : Indents "\n" "\n  " := by
  constructor <;> decide

end Indents

end Text

open Text

namespace Tree

theorem isOneLine_caption (span : Span) {value : String} (h : IsOneLine value) :
    IsOneLine (caption span value) := by
  have hdots : IsOneLine ".." := by decide
  have hcolon : IsOneLine ": " := by decide
  have hspan : IsOneLine span.text :=
    ((isOneLine_toString span.start).append hdots).append (isOneLine_toString span.stop)
  exact (hspan.append hcolon).append h

theorem indented_eq {s s' : String} (h : Indents s s')
    (hlast : ∃ c, s.toList.getLast? = some c ∧ c ≠ '\n') : indented s = "\n  " ++ s' := by
  have hmark : "\n  ".toList = ['\n', ' ', ' '] := by decide
  rw [← String.toList_inj, indented, String.toList_join, List.flatMap_map, String.toList_append,
    h.toList_eq, hmark, ← flatMap_lines _ h.no_return hlast]
  simp only [String.toList_append, String.toList_ofList, hmark]

mutual

/-- The words and the names in a tree. -/
def values : Tree → List String
  | leaf word _ => [word]
  | branch name _ children => name :: valuesAll children

def valuesAll : List Tree → List String
  | [] => []
  | t :: ts => t.values ++ valuesAll ts

end

theorem mem_valuesAll {v : String} {ts : List Tree} :
    v ∈ valuesAll ts ↔ ∃ t ∈ ts, v ∈ t.values := by
  induction ts with
  | nil => simp [valuesAll]
  | cons t ts ih => simp [valuesAll, ih]

mutual

/-- The outline of a tree that stands this many levels in. -/
def laidOut (depth : Nat) : Tree → String
  | leaf word span => toString span.start ++ ".." ++ toString span.stop ++ ": " ++ word
  | branch name span [child] =>
    "(" ++ (toString span.start ++ ".." ++ toString span.stop ++ ": " ++ name)
      ++ " (" ++ child.laidOut depth ++ "))"
  | branch name span children =>
    "(" ++ (toString span.start ++ ".." ++ toString span.stop ++ ": " ++ name)
      ++ laidOutAll (depth + 1) children ++ ")"

/-- The outlines of trees that stand this many levels in, each on a line of its own. -/
def laidOutAll (depth : Nat) : List Tree → String
  | [] => ""
  | t :: ts =>
    "\n" ++ String.ofList (List.replicate (2 * depth) ' ') ++ t.laidOut depth ++ laidOutAll depth ts

end

section

variable {name : String} {span : Span} {children : List Tree}

theorem outline_of_not_single (h : ¬∃ c, children = [c]) :
    (branch name span children).outline = "(" ++ caption span name ++ outlineAll children ++ ")" :=
  outline.eq_3 name span children (not_exists.1 h)

theorem laidOut_of_not_single (depth : Nat) (h : ¬∃ c, children = [c]) :
    (branch name span children).laidOut depth =
      "(" ++ caption span name ++ laidOutAll (depth + 1) children ++ ")" :=
  laidOut.eq_3 depth name span children (not_exists.1 h)

end

theorem indents_laidOutAll {ts : List Tree} {depth : Nat}
    (h : ∀ t ∈ ts, Indents (t.laidOut depth) (t.laidOut (depth + 1))) :
    Indents (laidOutAll depth ts) (laidOutAll (depth + 1) ts) := by
  induction ts with
  | nil =>
    have hnone : IsOneLine "" := by decide
    exact .of_isOneLine hnone
  | cons t ts ih =>
    -- the two blanks that come with the line feed are the first of the deeper line
    have hblanks : Indents ("\n" ++ String.ofList (List.replicate (2 * depth) ' '))
        ("\n" ++ String.ofList (List.replicate (2 * (depth + 1)) ' ')) := by
      have hline : IsOneLine (String.ofList (List.replicate (2 * depth) ' ')) := by
        simp [IsOneLine]
      have hsum := Indents.feed.append (.of_isOneLine hline)
      have hdeeper : "\n  " ++ String.ofList (List.replicate (2 * depth) ' ') =
          "\n" ++ String.ofList (List.replicate (2 * (depth + 1)) ' ') := by
        rw [← String.toList_inj]
        simp [Nat.mul_succ, List.replicate_succ]
      rwa [hdeeper] at hsum
    exact (hblanks.append (h t List.mem_cons_self)).append
      (ih fun u hu => h u (List.mem_cons_of_mem _ hu))

/-- One level deeper a tree is laid out as it is here, put two blanks further in. -/
theorem indents_laidOut {t : Tree} (h : ∀ v ∈ t.values, IsOneLine v) (depth : Nat) :
    Indents (t.laidOut depth) (t.laidOut (depth + 1)) := by
  induction t using Tree.ind generalizing depth with
  | leaf word span =>
    exact .of_isOneLine (isOneLine_caption span (h word List.mem_cons_self))
  | branch name span children ih =>
    have hopen : Indents ("(" ++ caption span name) ("(" ++ caption span name) :=
      .of_isOneLine (.append (by decide) (isOneLine_caption span (h name List.mem_cons_self)))
    have hchildren : ∀ c ∈ children, ∀ depth,
        Indents (c.laidOut depth) (c.laidOut (depth + 1)) :=
      fun c hc => ih c hc fun v hv => h v (List.mem_cons_of_mem _ (mem_valuesAll.2 ⟨c, hc, hv⟩))
    by_cases hsingle : ∃ c, children = [c]
    · obtain ⟨c, rfl⟩ := hsingle
      have hmiddle : Indents " (" " (" := .of_isOneLine (by decide)
      have hclose : Indents "))" "))" := .of_isOneLine (by decide)
      exact ((hopen.append hmiddle).append (hchildren c List.mem_cons_self depth)).append hclose
    · have hclose : Indents ")" ")" := .of_isOneLine (by decide)
      rw [laidOut_of_not_single depth hsingle, laidOut_of_not_single (depth + 1) hsingle]
      exact (hopen.append (indents_laidOutAll fun c hc => hchildren c hc (depth + 1))).append hclose

/-- The text ends within a line, behind a caption or a bracket. -/
theorem getLast?_laidOut {t : Tree} (h : ∀ v ∈ t.values, IsOneLine v) (depth : Nat) :
    ∃ c, (t.laidOut depth).toList.getLast? = some c ∧ c ≠ '\n' := by
  cases t with
  | leaf word span =>
    have hline : IsOneLine (caption span word) := isOneLine_caption span (h word List.mem_cons_self)
    have hne : (caption span word).toList ≠ [] := by simp [caption]
    exact ⟨_, List.getLast?_eq_some_getLast hne, fun e => hline.1 (e ▸ List.getLast_mem hne)⟩
  | branch name span children =>
    refine ⟨')', ?_, by decide⟩
    by_cases hsingle : ∃ c, children = [c]
    · obtain ⟨c, rfl⟩ := hsingle
      rw [laidOut, String.toList_append, List.getLast?_append]
      rfl
    · rw [laidOut_of_not_single depth hsingle, String.toList_append, List.getLast?_append]
      rfl

theorem outlineAll_eq_laidOutAll {ts : List Tree} (h : ∀ t ∈ ts, ∀ v ∈ t.values, IsOneLine v)
    (hts : ∀ t ∈ ts, t.outline = t.laidOut 0) : outlineAll ts = laidOutAll 1 ts := by
  induction ts with
  | nil => rfl
  | cons t ts ih =>
    have ht := h t List.mem_cons_self
    rw [outlineAll, hts t List.mem_cons_self,
      indented_eq (indents_laidOut ht 0) (getLast?_laidOut ht 0),
      ih (fun u hu => h u (List.mem_cons_of_mem _ hu))
        fun u hu => hts u (List.mem_cons_of_mem _ hu)]
    rfl

/-- The outline is the text that is laid out in one pass, if every value stands on one line. -/
theorem outline_eq_laidOut {t : Tree} (h : ∀ v ∈ t.values, IsOneLine v) :
    t.outline = t.laidOut 0 := by
  induction t using Tree.ind with
  | leaf word span => rfl
  | branch name span children ih =>
    have hvalues : ∀ c ∈ children, ∀ v ∈ c.values, IsOneLine v :=
      fun c hc v hv => h v (List.mem_cons_of_mem _ (mem_valuesAll.2 ⟨c, hc, hv⟩))
    have hchildren : ∀ c ∈ children, c.outline = c.laidOut 0 := fun c hc => ih c hc (hvalues c hc)
    by_cases hsingle : ∃ c, children = [c]
    · obtain ⟨c, rfl⟩ := hsingle
      rw [outline, hchildren c List.mem_cons_self]
      rfl
    · rw [outline_of_not_single hsingle, laidOut_of_not_single 0 hsingle,
        outlineAll_eq_laidOutAll hvalues hchildren]

/-- Only children above a branch with several, next to a branch with none. -/
def stacked : Tree :=
  .branch "S" ⟨0, 3⟩ [.branch "E" ⟨0, 0⟩ [], .branch "A" ⟨0, 3⟩ [.branch "B" ⟨0, 3⟩
    [.leaf "x" ⟨0, 1⟩, .branch "C" ⟨1, 3⟩ [.leaf "y" ⟨1, 2⟩, .leaf "" ⟨2, 3⟩]]]]

theorem outline_eq_laidOut_stacked :
    (∀ v ∈ stacked.values, IsOneLine v) ∧ stacked.outline = stacked.laidOut 0 ∧
      stacked.laidOut 0 = "(0..3: S\n  (0..0: E)\n  (0..3: A ((0..3: B\n    0..1: x\n" ++
        "    (1..3: C\n      1..2: y\n      2..3: )))))" := by
  have hvalues : ∀ v ∈ stacked.values, IsOneLine v := by decide
  exact ⟨hvalues, outline_eq_laidOut hvalues, by decide +kernel⟩

end Tree

end PhraseChart
