import PhraseChart.Proofs.Brackets
import PhraseChart.Proofs.Conversation

namespace PhraseChart.CommandLine

variable {a : Analysis} {first : Tree} {others : List Tree}

theorem treesText_cons (first : Tree) (others : List Tree) :
    treesText (first :: others) = treesText [first] ++ treesText others := by
  simp [treesText, String.join_cons]

theorem resultText_of_trees_eq_nil (h : a.trees = []) (showAll : Bool) :
    resultText showAll a = "No parse\n\n" := by
  have hfirst : a.firstTree? = none := by rw [← a.head?_trees, h, List.head?_nil]
  cases showAll <;> simp [resultText, h, hfirst]

/-- Of all trees the first one is what is written otherwise. -/
theorem resultText_of_trees_eq_cons (h : a.trees = first :: others) (showAll : Bool) :
    resultText showAll a =
      header a.recognition ++ treesText (if showAll then first :: others else [first]) := by
  have hfirst : a.firstTree? = some first := by rw [← a.head?_trees, h, List.head?_cons]
  cases showAll <;> simp [resultText, h, hfirst]

theorem header_append_ne (r : Recognition) (text : String) : header r ++ text ≠ "No parse\n\n" := by
  intro h
  have hfront := congrArg String.toList h
  simp [header] at hfront

theorem resultText_eq_no_parse_iff (a : Analysis) (showAll : Bool) :
    resultText showAll a = "No parse\n\n" ↔ a.trees = [] := by
  refine ⟨fun h => ?_, fun h => resultText_of_trees_eq_nil h showAll⟩
  cases htrees : a.trees with
  | nil => rfl
  | cons first others =>
    rw [resultText_of_trees_eq_cons htrees] at h
    exact absurd h (header_append_ne _ _)

theorem exists_resultText_all (a : Analysis) :
    ∃ more, resultText true a = resultText false a ++ more := by
  cases htrees : a.trees with
  | nil => exact ⟨"", by simp only [resultText_of_trees_eq_nil htrees, String.append_empty]⟩
  | cons first others =>
    refine ⟨treesText others, ?_⟩
    rw [resultText_of_trees_eq_cons htrees, resultText_of_trees_eq_cons htrees, if_pos rfl,
      treesText_cons, String.append_assoc]
    rfl

variable {p : Parser} {file : Except FileError ByteArray}

theorem exists_read_of_load (h : load file = .ok p) :
    ∃ text g, Grammar.read text = .ok g ∧ Parser.ofGrammar g = .ok p := by
  unfold load at h
  split at h
  · cases h
  rename_i g hfile
  unfold Grammar.ofFile at hfile
  split at hfile
  · cases hfile
  split at hfile
  · cases hfile
  · exact ⟨_, g, hfile, h⟩

/-- What a run for a sentence writes with these options. -/
def written (t : CharTables) (file : Except FileError ByteArray) (stdin : ByteArray)
    (path sentence : String) (showChart showAll : Bool) : String :=
  (runJob t ⟨path, showChart, showAll, some sentence⟩ file stdin).stdout

/-- What is written without an option is a part of what is written with it. The result is a header
with the numbers of analyses and of labels and as many different trees as it says, of which one or
all are written, or it says that there is no parse, if the sentence is not accepted. -/
theorem options_add_output {t : CharTables} (hwords : t.words.SuitsNames)
    (hload : load file = .ok p) (stdin : ByteArray) (path sentence : String) :
    (∀ showChart, ∃ more, written t file stdin path sentence showChart true =
      written t file stdin path sentence showChart false ++ more) ∧
    (∀ showAll, written t file stdin path sentence true showAll =
      "chart:\n" ++ (p.chart (t.words.tokenize sentence)).text ++ "\n" ++
        written t file stdin path sentence false showAll) ∧
    (∀ showAll, written t file stdin path sentence false showAll = "No parse\n\n" ↔
      (p.recognize (t.words.tokenize sentence)).accepted = false) ∧
    (∀ labels analyses, p.recognize (t.words.tokenize sentence) = ⟨true, labels, analyses⟩ →
      ∃ first others, p.parseAll (t.words.tokenize sentence) = first :: others ∧
        (first :: others).length = analyses ∧ ((first :: others).map Tree.bracketed).Nodup ∧
        ∀ showAll, written t file stdin path sentence false showAll =
          "Parsed " ++ toString analyses ++
            (if analyses = 1 then " analysis (" else " analyses (") ++
            toString labels ++ (if labels = 1 then " label" else " labels") ++ " at the top)\n" ++
            String.join ((if showAll then first :: others else [first]).map fun tree =>
              tree.bracketed ++ "\n\n")) := by
  have hwritten : ∀ showChart showAll, written t file stdin path sentence showChart showAll =
      (if showChart then chartText (p.analyze (t.words.tokenize sentence)) else "") ++
        resultText showAll (p.analyze (t.words.tokenize sentence)) := by
    intro showChart showAll
    rw [written, runJob_of_sentence hload]
    rfl
  have hagrees : (p.analyze (t.words.tokenize sentence)).Agrees := Analysis.agrees_ofChart ..
  have haccepted : (p.recognize (t.words.tokenize sentence)).accepted = true ↔
      (p.analyze (t.words.tokenize sentence)).trees ≠ [] := by
    rw [Parser.recognize, hagrees.accepted, hagrees.analyses, List.length_pos_iff]
  refine ⟨fun showChart => ?_, fun showAll => ?_, fun showAll => ?_, fun labels analyses h => ?_⟩
  · obtain ⟨more, hmore⟩ := exists_resultText_all (p.analyze (t.words.tokenize sentence))
    exact ⟨more, by rw [hwritten, hwritten, hmore, String.append_assoc]⟩
  · rw [hwritten, hwritten]
    simp [chartText, Parser.analyze]
  · rw [hwritten, ← Bool.not_eq_true, haccepted, not_not]
    simp [resultText_eq_no_parse_iff]
  · obtain ⟨first, others, htrees⟩ := List.exists_cons_of_ne_nil (haccepted.1 (by rw [h]))
    obtain ⟨text, g, hg, hp⟩ := exists_read_of_load hload
    have hnodup : ((p.parseAll (t.words.tokenize sentence)).map Tree.bracketed).Nodup :=
      Parser.nodup_map_bracketed hwords (Parser.isName_head_of_read hg hp)
        fun _ => isToken_of_mem_tokenize
    have hnumber : (p.analyze (t.words.tokenize sentence)).trees.length = analyses := by
      rw [← hagrees.analyses, ← Parser.recognize, h]
    rw [Parser.parseAll, htrees] at hnodup
    rw [htrees] at hnumber
    refine ⟨first, others, htrees, hnumber, hnodup, fun showAll => ?_⟩
    rw [Parser.recognize] at h
    rw [hwritten, resultText_of_trees_eq_cons htrees, header, h]
    exact String.empty_append

/-- A sentence with two analyses among its four labels, and one without any. -/
theorem options_add_output_looped :
    CharTables.unicode.words.SuitsNames ∧ load loopedFile = .ok Parser.looped ∧
      Parser.looped.recognize (tokenize "x x x") = ⟨true, 4, 2⟩ ∧
      (∃ more, written .unicode loopedFile ByteArray.empty "g" "x x x" false true =
        written .unicode loopedFile ByteArray.empty "g" "x x x" false false ++ more) ∧
      (∃ first others, (first :: others).length = 2 ∧
        ((first :: others).map Tree.bracketed).Nodup ∧
        written .unicode loopedFile ByteArray.empty "g" "x x x" false false =
          "Parsed 2 analyses (4 labels at the top)\n" ++ first.bracketed ++ "\n\n") ∧
      written .unicode loopedFile ByteArray.empty "g" "y" false true = "No parse\n\n" := by
  have hnumbers : Parser.looped.recognize (tokenize "x x x") = ⟨true, 4, 2⟩ := by decide +kernel
  have hrejected : (Parser.looped.recognize (tokenize "y")).accepted = false := by decide +kernel
  obtain ⟨hmore, -, -, hresult⟩ := options_add_output CharTables.unicode_suitsNames
    load_loopedFile ByteArray.empty "g" "x x x"
  obtain ⟨-, -, hnone, -⟩ := options_add_output CharTables.unicode_suitsNames
    load_loopedFile ByteArray.empty "g" "y"
  obtain ⟨first, others, -, hlength, hnodup, hall⟩ := hresult 4 2 hnumbers
  have hheader : "Parsed " ++ toString 2 ++ (if 2 = 1 then " analysis (" else " analyses (") ++
      toString 4 ++ (if 4 = 1 then " label" else " labels") ++ " at the top)\n" =
        "Parsed 2 analyses (4 labels at the top)\n" := by decide +kernel
  have hfirst := hall false
  rw [hheader, if_neg Bool.false_ne_true, List.map_singleton, String.join_cons, String.join_nil,
    String.append_empty, ← String.append_assoc] at hfirst
  exact ⟨CharTables.unicode_suitsNames, load_loopedFile, hnumbers, hmore false,
    ⟨first, others, hlength, hnodup, hfirst⟩, (hnone true).2 hrejected⟩

end PhraseChart.CommandLine
