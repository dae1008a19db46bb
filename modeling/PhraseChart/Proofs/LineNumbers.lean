import Mathlib.Control.Monad.Basic
import PhraseChart.Grammar.Reader
import PhraseChart.Proofs.Lines

namespace PhraseChart.Grammar
open Text

section
variable {number : Nat} {line : List Char} {lines : List (List Char)} {rules : List Rule}
  {e : GrammarError}

theorem rulesOfLines_cons_eq_ok_iff : rulesOfLines number (line :: lines) = .ok rules ↔
    ∃ rs more, Line.rules line = .ok rs ∧ rulesOfLines (number + 1) lines = .ok more ∧
      rules = rs ++ more := by
  rw [rulesOfLines]
  cases Line.rules line with
  | error cause => simp
  | ok rs =>
    cases rulesOfLines (number + 1) lines with
    | error e => simp [Except.map]
    | ok more => simp [Except.map, eq_comm]

theorem rulesOfLines_cons_eq_error_iff : rulesOfLines number (line :: lines) = .error e ↔
    (∃ cause, Line.rules line = .error cause ∧ e = .badLine number cause) ∨
      ∃ rs, Line.rules line = .ok rs ∧ rulesOfLines (number + 1) lines = .error e := by
  rw [rulesOfLines]
  cases Line.rules line with
  | error cause => simp [eq_comm]
  | ok rs => cases rulesOfLines (number + 1) lines <;> simp [Except.map]

/-- Where every line can be read, the rules are those of the lines, however these are numbered. -/
theorem rulesOfLines_eq_ok_iff : rulesOfLines number lines = .ok rules ↔
    ∃ parts : List (List Rule), lines.map Line.rules = parts.map .ok ∧ parts.flatten = rules := by
  induction lines generalizing number rules with
  | nil =>
    constructor
    · intro h
      exact ⟨[], rfl, Except.ok.inj h⟩
    · rintro ⟨parts, hparts, rfl⟩
      rw [List.map_eq_nil_iff.1 hparts.symm]
      rfl
  | cons line lines ih =>
    rw [rulesOfLines_cons_eq_ok_iff]
    constructor
    · rintro ⟨rs, more, hline, hlines, rfl⟩
      obtain ⟨parts, hparts, rfl⟩ := ih.1 hlines
      exact ⟨rs :: parts, by rw [List.map_cons, List.map_cons, hline, hparts], rfl⟩
    · rintro ⟨parts, hparts, rfl⟩
      obtain ⟨rs, parts, rfl, hline, hlines⟩ := List.map_eq_cons_iff.1 hparts.symm
      exact ⟨rs, parts.flatten, hline.symm, ih.2 ⟨parts, hlines.symm, rfl⟩, rfl⟩

/-- The error is the first line that cannot be read. -/
theorem rulesOfLines_eq_error_iff : rulesOfLines number lines = .error e ↔
    ∃ before line after cause, lines = before ++ line :: after ∧
      (∀ l ∈ before, ∃ rs, Line.rules l = .ok rs) ∧ Line.rules line = .error cause ∧
      e = .badLine (number + before.length) cause := by
  induction lines generalizing number with
  | nil =>
    constructor
    · nofun
    · rintro ⟨before, line, after, cause, hcut, -⟩
      simp at hcut
  | cons line lines ih =>
    rw [rulesOfLines_cons_eq_error_iff]
    constructor
    · rintro (⟨cause, hline, rfl⟩ | ⟨rs, hline, hlines⟩)
      · exact ⟨[], line, lines, cause, rfl, nofun, hline, rfl⟩
      · obtain ⟨before, bad, after, cause, rfl, hbefore, hbad, rfl⟩ := ih.1 hlines
        refine ⟨line :: before, bad, after, cause, rfl,
          List.forall_mem_cons.2 ⟨⟨rs, hline⟩, hbefore⟩, hbad, ?_⟩
        rw [List.length_cons, Nat.add_right_comm, Nat.add_assoc]
    · rintro ⟨before, bad, after, cause, hcut, hbefore, hbad, rfl⟩
      cases before with
      | nil =>
        obtain ⟨rfl, rfl⟩ := List.cons.inj hcut
        exact .inl ⟨cause, hbad, rfl⟩
      | cons first before =>
        obtain ⟨rfl, rfl⟩ := List.cons.inj hcut
        obtain ⟨⟨rs, hrs⟩, hbefore⟩ := List.forall_mem_cons.1 hbefore
        refine .inr ⟨rs, hrs, ih.2 ⟨before, bad, after, cause, rfl, hbefore, hbad, ?_⟩⟩
        rw [List.length_cons, Nat.add_right_comm, Nat.add_assoc]

/-- Lines behind others are read if those are, and keep their numbers. -/
theorem rulesOfLines_append (number : Nat) (lines more : List (List Char)) :
    rulesOfLines number (lines ++ more) = (rulesOfLines number lines).bind fun rules =>
      (rulesOfLines (number + lines.length) more).map (rules ++ ·) := by
  induction lines generalizing number with
  | nil =>
    rw [List.nil_append, rulesOfLines, List.length_nil, Nat.add_zero]
    cases rulesOfLines number more <;> rfl
  | cons line lines ih =>
    have hnumber : number + 1 + lines.length = number + (line :: lines).length := by
      rw [List.length_cons]
      omega
    rw [List.cons_append, rulesOfLines, rulesOfLines, ih, hnumber]
    cases Line.rules line with
    | error cause => rfl
    | ok rs =>
      cases rulesOfLines (number + 1) lines with
      | error e => rfl
      | ok rules =>
        cases rulesOfLines (number + (line :: lines).length) more with
        | error e => rfl
        | ok rules' => exact congrArg Except.ok (List.append_assoc rs rules rules').symm

theorem rulesOfLines_of_blank (h : ∀ l ∈ lines, l = []) : rulesOfLines number lines = .ok [] := by
  induction lines generalizing number with
  | nil => rfl
  | cons line lines ih =>
    obtain ⟨rfl, hlines⟩ := List.forall_mem_cons.1 h
    exact rulesOfLines_cons_eq_ok_iff.2 ⟨[], [], rfl, ih hlines, rfl⟩

end

/-- The lines of the second text are counted on from those of the first. -/
theorem readRules_append {a : String} (ha : a.toList.getLast? ≠ some '\r') (b : String) :
    readRules (a ++ "\n" ++ b) = (readRules a).bind fun rules =>
      (rulesOfLines (a.toList.count '\n' + 2) (lines b.toList)).map (rules ++ ·) := by
  obtain ⟨last, hlast, hlength, happ⟩ := lines_append ha
  have htext : (a ++ "\n" ++ b).toList = a.toList ++ '\n' :: b.toList := by simp
  have hnumber : 1 + (lines a.toList ++ last).length = a.toList.count '\n' + 2 := by
    rw [hlength]
    omega
  have hread : rulesOfLines 1 (lines a.toList ++ last) = readRules a := by
    rw [rulesOfLines_append, rulesOfLines_of_blank hlast, ← readRules]
    cases readRules a with
    | error e => rfl
    | ok rules => exact congrArg Except.ok (List.append_nil rules)
  rw [readRules, htext, happ, rulesOfLines_append, hnumber, hread]

/-- A text is read line by line. An error gives the number of the first line that cannot be read,
counted from one. A text behind another one, with a line feed between them, is read if the first one
is, its rules come after those of the first, and its lines are numbered on from there. Carriage
returns before the line feeds change nothing. -/
theorem readRules_line_by_line :
    (∀ (text : String) (e : GrammarError), readRules text = .error e ↔
      ∃ before line after cause, lines text.toList = before ++ line :: after ∧
        (∀ l ∈ before, ∃ rs, Line.rules l = .ok rs) ∧ Line.rules line = .error cause ∧
        e = .badLine (before.length + 1) cause) ∧
    (∀ a b : String, a.toList.getLast? ≠ some '\r' →
      (∀ e, readRules a = .error e → readRules (a ++ "\n" ++ b) = .error e) ∧
      ∀ rules, readRules a = .ok rules →
        (∀ more, readRules b = .ok more → readRules (a ++ "\n" ++ b) = .ok (rules ++ more)) ∧
        ∀ e, readRules b = .error e → ∃ number cause, e = .badLine number cause ∧
          readRules (a ++ "\n" ++ b) =
            .error (.badLine (number + 1 + a.toList.count '\n') cause)) ∧
    ∀ text : String, '\r' ∉ text.toList →
      readRules (String.ofList (withReturns text.toList)) = readRules text := by
  refine ⟨fun text e => ?_, fun a b ha => ?_, fun text htext => ?_⟩
  · rw [readRules, rulesOfLines_eq_error_iff]
    simp only [Nat.add_comm 1]
  · rw [readRules_append ha]
    refine ⟨fun e he => by rw [he]; rfl, fun rules hrules => ⟨fun more hmore => ?_, fun e he => ?_⟩⟩
    · have hlater : rulesOfLines (a.toList.count '\n' + 2) (lines b.toList) = .ok more :=
        rulesOfLines_eq_ok_iff.2 (rulesOfLines_eq_ok_iff.1 hmore)
      rw [hrules, Except.bind, hlater]
      rfl
    · obtain ⟨before, line, after, cause, hcut, hbefore, hline, rfl⟩ :=
        rulesOfLines_eq_error_iff.1 he
      have hnumber : a.toList.count '\n' + 2 + before.length =
          1 + before.length + 1 + a.toList.count '\n' := by omega
      have hlater : rulesOfLines (a.toList.count '\n' + 2) (lines b.toList) =
          .error (.badLine (1 + before.length + 1 + a.toList.count '\n') cause) :=
        rulesOfLines_eq_error_iff.2
          ⟨before, line, after, cause, hcut, hbefore, hline, by rw [hnumber]⟩
      refine ⟨_, cause, rfl, ?_⟩
      rw [hrules, Except.bind, hlater]
      rfl
  · rw [readRules, String.toList_ofList, lines_withReturns htext, readRules]

/-- A comment and a blank line before the line that has no arrow, and a text of two lines with the
last of them left empty. -/
theorem readRules_line_by_line_blanks :
    "A -> 'x'\n".toList.getLast? ≠ some '\r' ∧
      readRules "A -> 'x'\n" = .ok [⟨"A", [.terminal "x"]⟩] ∧
      readRules "# none\n\nB = A" = .error (.badLine 3 (.noArrow "= A")) ∧
      readRules "A -> 'x'\n\n# none\n\nB = A" = .error (.badLine 5 (.noArrow "= A")) ∧
      readRules "A -> 'x'\r\n" = .ok [⟨"A", [.terminal "x"]⟩] := by
  have hend : "A -> 'x'\n".toList.getLast? ≠ some '\r' := by decide
  have hfirst : readRules "A -> 'x'\n" = .ok [⟨"A", [.terminal "x"]⟩] := by decide +kernel
  have hsecond : readRules "# none\n\nB = A" = .error (.badLine 3 (.noArrow "= A")) := by
    decide +kernel
  obtain ⟨-, hjoined, hreturns⟩ := readRules_line_by_line
  obtain ⟨number, cause, he, hread⟩ :=
    ((hjoined _ "# none\n\nB = A" hend).2 _ hfirst).2 _ hsecond
  obtain ⟨rfl, rfl⟩ := GrammarError.badLine.inj he
  refine ⟨hend, hfirst, hsecond, hread, ?_⟩
  exact (hreturns "A -> 'x'\n" (by decide)).trans hfirst

end PhraseChart.Grammar
