import PhraseChart.CommandLine.Job
import PhraseChart.Proofs.Enumeration
import PhraseChart.Proofs.Lines
import PhraseChart.Proofs.Reading
import PhraseChart.Proofs.Tokens

namespace PhraseChart.CommandLine
open Text

def textOf? (bytes : List UInt8) : Option String := String.fromUTF8? ⟨bytes.toArray⟩

/-- The lines of an input, each with the line feed at its end. What follows the last line feed is a
line as well unless it is empty. -/
def inputPieces (input : List UInt8) : List (List UInt8) :=
  let pieces := input.splitOn 10
  pieces.dropLast.map (· ++ [10]) ++ pieces.getLast?.toList.filter (!·.isEmpty)

section
variable {line rest piece input : List UInt8} {pieces : List (List UInt8)}

theorem inputPieces_append_feed (h : 10 ∉ line) :
    inputPieces (line ++ 10 :: rest) = (line ++ [10]) :: inputPieces rest := by
  have hsplit : (line ++ 10 :: rest).splitOn 10 = line :: rest.splitOn 10 := by
    rw [List.splitOn_append_cons_self, List.splitOn_eq_singleton h]
    rfl
  have hne : rest.splitOn 10 ≠ [] := List.splitOn_ne_nil 10 rest
  simp [inputPieces, hsplit, List.dropLast_cons_of_ne_nil hne, List.getLast?_cons_of_ne_nil hne]

theorem inputPieces_of_not_mem (h : 10 ∉ line) :
    inputPieces line = if line = [] then [] else [line] := by
  rw [inputPieces, List.splitOn_eq_singleton h]
  cases line <;> rfl

theorem cutLine_append_feed (h : 10 ∉ line) :
    cutLine (line ++ 10 :: rest) = (line ++ [10], rest) := by
  induction line with
  | nil => rfl
  | cons b line ih =>
    have hb : b ≠ 10 := (List.ne_of_not_mem_cons h).symm
    rw [List.cons_append, cutLine, if_neg hb, ih (List.not_mem_of_not_mem_cons h)]
    rfl

theorem cutLine_of_not_mem (h : 10 ∉ line) : cutLine line = (line, []) := by
  induction line with
  | nil => rfl
  | cons b line ih =>
    have hb : b ≠ 10 := (List.ne_of_not_mem_cons h).symm
    rw [cutLine, if_neg hb, ih (List.not_mem_of_not_mem_cons h)]

/-- The first line of an input is what is cut off, and its other lines are those of the rest. -/
theorem inputPieces_eq_cons (h : input ≠ []) :
    inputPieces input = (cutLine input).1 :: inputPieces (cutLine input).2 := by
  induction input using lineInduction (10 : UInt8) with
  | last line hline =>
    rw [inputPieces_of_not_mem hline, if_neg h, cutLine_of_not_mem hline]
    rfl
  | line line rest hline _ => rw [inputPieces_append_feed hline, cutLine_append_feed hline]

theorem inputPieces_eq_nil_iff : inputPieces input = [] ↔ input = [] := by
  refine ⟨fun h => ?_, fun h => h ▸ rfl⟩
  by_contra hne
  rw [inputPieces_eq_cons hne] at h
  cases h

theorem cutLine_of_inputPieces (h : inputPieces input = piece :: pieces) :
    (cutLine input).1 = piece ∧ inputPieces (cutLine input).2 = pieces := by
  have hne : input ≠ [] := by
    rintro rfl
    cases h
  rw [inputPieces_eq_cons hne] at h
  exact List.cons.inj h

end

section
variable {t : CharTables} {w : WordClass} {p : Parser} {job : Job} {text : String}
  {input piece : List UInt8} {texts : List String}

theorem answer_trim (w : WordClass) (p : Parser) (job : Job) (text : String) :
    answer w p job (String.ofList (trim text.toList)) = answer w p job text := by
  rw [answer, answer, WordClass.tokenize, WordClass.tokenize, String.toList_ofList, tokensOf_trim]

theorem text_chart_nil (p : Parser) : (p.chart []).text = "" := by
  simp [Parser.chart, Chart.fill, Chart.seeded, splits, Chart.blank, Chart.text, Chart.cells]

theorem answer_of_blanks (h : ∀ c ∈ text.toList, isBlank c = true) :
    answer w p job text = (if job.showChart then "chart:\n\n" else "") ++ "No parse\n\n" := by
  have htokens : w.tokenize text = [] := by
    rw [WordClass.tokenize, tokensOf_of_blanks h, List.map_nil]
  have hresult : resultText job.showAll (p.analyze []) = "No parse\n\n" := by
    cases job.showAll <;> rfl
  have hchart : chartText (p.analyze []) = "chart:\n\n" := by
    rw [chartText, Parser.analyze, Analysis.chart_ofChart, text_chart_nil]
    rfl
  rw [answer, htokens, hresult, hchart]

theorem readLine_of_inputPieces {pieces : List (List UInt8)}
    (h : inputPieces input = piece :: pieces) :
    readLine "" input = (appendBytes "" piece).map fun text => (text, (cutLine input).2) := by
  rw [readLine, (cutLine_of_inputPieces h).1]

theorem appendBytes_of_textOf? (h : textOf? piece = some text) :
    appendBytes "" piece = .ok text := by
  rw [appendBytes, ← textOf?, h]
  exact congrArg Except.ok String.empty_append

theorem ne_nil_of_inputPieces {pieces : List (List UInt8)}
    (h : inputPieces input = piece :: pieces) : piece ≠ [] := by
  rw [← (cutLine_of_inputPieces h).1]
  cases input with
  | nil => cases h
  | cons b bs =>
    unfold cutLine
    split
    · exact List.cons_ne_nil b []
    · exact List.cons_ne_nil b _

theorem isEmpty_of_textOf? (h : textOf? piece = some text) (hne : piece ≠ []) :
    text.isEmpty = false := by
  unfold textOf? String.fromUTF8? at h
  split at h
  · rename_i hvalid
    rw [← Option.some.inj h, ← Bool.not_eq_true, String.isEmpty_iff]
    intro hempty
    have hbytes : ByteArray.mk piece.toArray = "".toByteArray := congrArg String.toByteArray hempty
    have hdata : piece.toArray = #[] := congrArg ByteArray.data hbytes
    exact hne (congrArg Array.toList hdata)
  · cases h

/-- At the end of the input nothing comes into the buffer. -/
theorem converse_nil : converse t p job "" [] = ⟨0, "> ", ""⟩ := by
  rw [converse]
  rfl

/-- A line that is text is answered, and with the buffer cleared it goes on behind the line. -/
theorem converse_of_textOf?_eq_some {pieces : List (List UInt8)}
    (hpieces : inputPieces input = piece :: pieces) (htext : textOf? piece = some text) :
    converse t p job "" input =
      { converse t p job "" (cutLine input).2 with
        stdout := "> " ++ answer t.words p job text
          ++ (converse t p job "" (cutLine input).2).stdout } := by
  have hread : readLine "" input = .ok (text, (cutLine input).2) := by
    rw [readLine_of_inputPieces hpieces, appendBytes_of_textOf? htext]
    rfl
  have hfull := isEmpty_of_textOf? htext (ne_nil_of_inputPieces hpieces)
  rw [converse]
  split
  · rename_i h
    cases hread.symm.trans h
  · rename_i h
    cases hread.symm.trans h
    rw [dif_neg (Bool.eq_false_iff.1 hfull), answer_trim]
    rfl

theorem converse_of_textOf?_eq_none {pieces : List (List UInt8)}
    (hpieces : inputPieces input = piece :: pieces) (htext : textOf? piece = none) :
    converse t p job "" input = failure "> " (FileError.notText.record t.shown) := by
  have hread : readLine "" input = .error .notText := by
    rw [readLine_of_inputPieces hpieces, appendBytes, ← textOf?, htext]
    rfl
  rw [converse]
  split
  · rename_i h
    cases hread.symm.trans h
    rfl
  · rename_i h
    cases hread.symm.trans h

/-- Lines that are texts are answered one after the other, and how it ends is up to what is behind
them. -/
theorem converse_append {before after : List (List UInt8)} {exit : Nat} {stderr : String}
    (hpieces : inputPieces input = before ++ after)
    (hbefore : before.map textOf? = texts.map some)
    (hafter : ∀ rest, inputPieces rest = after →
      converse t p job "" rest = ⟨exit, "> ", stderr⟩) :
    converse t p job "" input =
      ⟨exit, "> " ++ String.join (texts.map fun text => answer t.words p job text ++ "> "),
        stderr⟩ := by
  induction texts generalizing before input with
  | nil =>
    obtain rfl := List.map_eq_nil_iff.1 hbefore
    exact hafter input hpieces
  | cons text texts ih =>
    obtain ⟨piece, before, rfl, hpiece, hbefore⟩ := List.map_eq_cons_iff.1 hbefore
    rw [converse_of_textOf?_eq_some hpieces hpiece, ih (cutLine_of_inputPieces hpieces).2 hbefore,
      List.map_cons, String.join_cons]
    simp only [String.append_assoc]

end

section
variable {t : CharTables} {p : Parser} {path : String} {showChart showAll : Bool}
  {file : Except FileError ByteArray}

theorem runJob_of_sentence (h : load file = .ok p) (t : CharTables) (path : String)
    (showChart showAll : Bool) (sentence : String) (stdin : ByteArray) :
    runJob t ⟨path, showChart, showAll, some sentence⟩ file stdin =
      ⟨0, answer t.words p ⟨path, showChart, showAll, some sentence⟩ sentence, ""⟩ := by
  rw [runJob, h]

theorem runJob_of_lines (h : load file = .ok p) (t : CharTables) (path : String)
    (showChart showAll : Bool) (stdin : ByteArray) :
    runJob t ⟨path, showChart, showAll, none⟩ file stdin =
      converse t p ⟨path, showChart, showAll, none⟩ "" stdin.toList := by
  rw [runJob, h]

/-- A conversation joins the runs for its lines: a prompt, and for each line what its run writes and
a prompt again. It ends with the input or before the first line that is no text; blanks alone are a
sentence without tokens, not the end of the input. -/
theorem conversation_joins_runs (t : CharTables) (path : String) (showChart showAll : Bool)
    (file : Except FileError ByteArray) (stdin idle : ByteArray) :
    (∀ p, load file = .ok p →
      (∀ lines : List String, (inputPieces stdin.toList).map textOf? = lines.map some →
        runJob t ⟨path, showChart, showAll, none⟩ file stdin =
          ⟨0, "> " ++ String.join (lines.map fun line =>
            (runJob t ⟨path, showChart, showAll, some line⟩ file idle).stdout ++ "> "), ""⟩) ∧
      (∀ (before after : List (List UInt8)) (piece : List UInt8) (lines : List String),
        inputPieces stdin.toList = before ++ piece :: after →
        before.map textOf? = lines.map some → textOf? piece = none →
        (runJob t ⟨path, showChart, showAll, none⟩ file stdin).exit = 1 ∧
          (runJob t ⟨path, showChart, showAll, none⟩ file stdin).stdout =
            "> " ++ String.join (lines.map fun line =>
              (runJob t ⟨path, showChart, showAll, some line⟩ file idle).stdout ++ "> ")) ∧
      ∀ line : String, (∀ c ∈ line.toList, isBlank c = true) →
        (runJob t ⟨path, showChart, showAll, some line⟩ file idle).stdout =
          (if showChart then "chart:\n\n" else "") ++ "No parse\n\n") ∧
    ∀ error, load file = .error error →
      (runJob t ⟨path, showChart, showAll, none⟩ file stdin).exit = 1 ∧
        (runJob t ⟨path, showChart, showAll, none⟩ file stdin).stdout = "" := by
  refine ⟨fun p hload => ?_, fun error hload => ?_⟩
  · simp only [runJob_of_sentence hload, runJob_of_lines hload]
    refine ⟨fun lines hlines => ?_, fun before after piece lines hpieces hbefore hpiece => ?_,
      fun line hblank => answer_of_blanks hblank⟩
    · apply converse_append (List.append_nil _).symm hlines
      intro rest hrest
      rw [inputPieces_eq_nil_iff.1 hrest, converse_nil]
    · rw [converse_append hpieces hbefore fun rest hrest =>
        converse_of_textOf?_eq_none hrest hpiece]
      exact ⟨rfl, rfl⟩
  · rw [runJob, hload]
    exact ⟨rfl, rfl⟩

/-- The file of a grammar in which two names derive each other. -/
def loopedFile : Except FileError ByteArray := .ok "S -> A A | A\nA -> S | 'x'".toUTF8

theorem load_loopedFile : load loopedFile = .ok Parser.looped := by
  have hfile : Grammar.ofFile loopedFile = .ok Parser.looped.grammar := by decide +kernel
  rw [load, hfile]
  rfl

/-- Of three lines the one in the middle is of blanks alone and the last one has no line feed; of
two lines the second one is no text. -/
theorem conversation_joins_runs_lines :
    load loopedFile = .ok Parser.looped ∧
      runJob .unicode ⟨"g", false, false, none⟩ loopedFile ⟨#[0x78, 10, 32, 10, 0x78]⟩ =
        ⟨0, "> Parsed 1 analysis (3 labels at the top)\n(S (A x))\n\n> No parse\n\n" ++
          "> Parsed 1 analysis (3 labels at the top)\n(S (A x))\n\n> ", ""⟩ ∧
      (runJob .unicode ⟨"g", true, false, some " \n"⟩ loopedFile ByteArray.empty).stdout =
        "chart:\n\nNo parse\n\n" ∧
      (runJob .unicode ⟨"g", false, false, none⟩ loopedFile ⟨#[0x78, 10, 0xff, 10]⟩).exit = 1 ∧
      (runJob .unicode ⟨"g", false, false, none⟩ loopedFile ⟨#[0x78, 10, 0xff, 10]⟩).stdout =
        "> Parsed 1 analysis (3 labels at the top)\n(S (A x))\n\n> " ∧
      (runJob .unicode ⟨"g", false, false, none⟩ (.error .notFound) ⟨#[0x78, 10]⟩).exit = 1 := by
  have hgood : (inputPieces (ByteArray.mk #[0x78, 10, 32, 10, 0x78]).toList).map textOf? =
      ["x\n", " \n", "x"].map some := by decide +kernel
  have hbad : inputPieces (ByteArray.mk #[0x78, 10, 0xff, 10]).toList =
      [[0x78, 10]] ++ [0xff, 10] :: [] := by decide +kernel
  have hbefore : [[0x78, 10]].map textOf? = ["x\n"].map some := by decide +kernel
  have hpiece : textOf? [0xff, 10] = none := by decide +kernel
  have hblank : ∀ c ∈ " \n".toList, isBlank c = true := by
    intro c hc
    rcases List.mem_pair.1 hc with rfl | rfl <;> decide
  have herror : load (.error .notFound) = .error (.unreadable .notFound) := rfl
  have hx : (runJob .unicode ⟨"g", false, false, some "x"⟩ loopedFile ByteArray.empty).stdout =
      "Parsed 1 analysis (3 labels at the top)\n(S (A x))\n\n" := by decide +kernel
  have hfeed : (runJob .unicode ⟨"g", false, false, some "x\n"⟩ loopedFile ByteArray.empty).stdout =
      "Parsed 1 analysis (3 labels at the top)\n(S (A x))\n\n" := by decide +kernel
  obtain ⟨hall, -, hplain⟩ := (conversation_joins_runs .unicode "g" false false loopedFile
    ⟨#[0x78, 10, 32, 10, 0x78]⟩ ByteArray.empty).1 _ load_loopedFile
  obtain ⟨-, hstop, -⟩ := (conversation_joins_runs .unicode "g" false false loopedFile
    ⟨#[0x78, 10, 0xff, 10]⟩ ByteArray.empty).1 _ load_loopedFile
  obtain ⟨-, -, hchart⟩ := (conversation_joins_runs .unicode "g" true false loopedFile
    ByteArray.empty ByteArray.empty).1 _ load_loopedFile
  have hspace := hplain " \n" hblank
  obtain ⟨hexit, hout⟩ := hstop _ _ _ _ hbad hbefore hpiece
  refine ⟨load_loopedFile, (hall _ hgood).trans ?_, hchart " \n" hblank, hexit, hout.trans ?_,
    ((conversation_joins_runs .unicode "g" false false _ _ ByteArray.empty).2 _ herror).1⟩
  · rw [List.map_cons, List.map_cons, List.map_singleton, hfeed, hspace, hx]
    rfl
  · rw [List.map_singleton, hfeed]
    rfl

end

end PhraseChart.CommandLine
