import PhraseChart.Parser
import PhraseChart.Text.Quoted
import PhraseChart.Token

namespace PhraseChart

/-- The cause as a record with named fields. -/
def FileError.record (shown : Char → Bool) : FileError → String
  | system code kind text =>
    "Os \x7b code: " ++ toString code ++ ", kind: " ++ kind ++ ", message: "
      ++ Text.quoted shown text ++ " \x7d"
  | reading kind text =>
    "Error \x7b kind: " ++ kind ++ ", message: " ++ Text.quoted shown text ++ " \x7d"
  | other _ record => record

/-- The cause as a record with named fields. -/
def GrammarError.record (shown : Char → Bool) : GrammarError → String
  | badLine number cause =>
    "Syntax \x7b line: " ++ toString number ++ ", message: " ++ Text.quoted shown cause.message
      ++ " \x7d"
  | noRules => "Empty"
  | badArity rule =>
    "InvalidGrammar \x7b rule: " ++ Text.quoted shown rule.text ++ ", arity: "
      ++ toString rule.arity ++ " \x7d"
  | unreadable cause => "Io(" ++ cause.record shown ++ ")"

namespace CommandLine

/-- A run over one grammar: of the one sentence, or of the lines of standard input. -/
structure Job where
  grammar : String
  showChart : Bool
  showAll : Bool
  sentence : Option String
deriving DecidableEq, Repr

def prompt : String := "> "

/-- How a run ended and what it wrote. -/
structure Outcome where
  exit : Nat
  stdout : String
  stderr : String
deriving DecidableEq, Repr

def failure (stdout record : String) : Outcome := ⟨1, stdout, "Error: " ++ record ++ "\n"⟩

/-- How many analyses there are, and how many labels cover the sentence. -/
def header (r : Recognition) : String :=
  "Parsed " ++ toString r.analyses ++ (if r.analyses = 1 then " analysis (" else " analyses (")
    ++ toString r.labelCount ++ (if r.labelCount = 1 then " label" else " labels")
    ++ " at the top)\n"

def treesText (trees : List Tree) : String :=
  String.join (trees.map fun t => t.bracketed ++ "\n\n")

def resultText (showAll : Bool) (a : Analysis) : String :=
  match if showAll then a.trees else a.firstTree?.toList with
  | [] => "No parse\n\n"
  | tree :: trees => header a.recognition ++ treesText (tree :: trees)

def chartText (a : Analysis) : String := "chart:\n" ++ a.chart.text ++ "\n"

/-- What is printed for one sentence. -/
def answer (w : WordClass) (p : Parser) (job : Job) (sentence : String) : String :=
  let a := p.analyze (w.tokenize sentence)
  (if job.showChart then chartText a else "") ++ resultText job.showAll a

/-- The bytes of an input up to its first line feed and with it, and the bytes behind. -/
def cutLine : List UInt8 → List UInt8 × List UInt8
  | [] => ([], [])
  | b :: bs =>
    if b = 10 then ([b], bs)
    else
      let (line, rest) := cutLine bs
      (b :: line, rest)

theorem length_cutLine_lt {input : List UInt8} (h : input ≠ []) :
    (cutLine input).2.length < input.length := by
  induction input with
  | nil => exact absurd rfl h
  | cons b bs ih =>
    unfold cutLine
    split
    · exact Nat.lt_succ_self _
    · cases bs with
      | nil => exact Nat.lt_succ_self _
      | cons c cs => exact Nat.lt_succ_of_lt (ih (List.cons_ne_nil c cs))

/-- Puts bytes behind the text in the buffer, if they are text themselves. -/
def appendBytes (buffer : String) (bytes : List UInt8) : Except FileError String :=
  match String.fromUTF8? ⟨bytes.toArray⟩ with
  | none => .error .notText
  | some text => .ok (buffer ++ text)

/-- Puts the next line of the input behind the text in the buffer. At the end of the input there is
nothing to put there. -/
def readLine (buffer : String) (input : List UInt8) : Except FileError (String × List UInt8) :=
  (appendBytes buffer (cutLine input).1).map fun text => (text, (cutLine input).2)

theorem readLine_nil (buffer : String) : readLine buffer [] = .ok (buffer, []) := by
  have hempty : appendBytes buffer [] = .ok (buffer ++ "") := rfl
  rw [readLine, cutLine, hempty, String.append_empty]
  rfl

/-- If the buffer is not empty then, it was not empty before or a part of the input is used up. -/
theorem length_lt_of_readLine {buffer text : String} {input rest : List UInt8}
    (h : readLine buffer input = .ok (text, rest)) (htext : ¬text.isEmpty = true) :
    rest.length < input.length + buffer.length := by
  by_cases hinput : input = []
  · subst hinput
    rw [readLine_nil] at h
    cases h
    simpa [Nat.pos_iff_ne_zero] using htext
  · have hcut := length_cutLine_lt hinput
    unfold readLine at h
    cases hbytes : appendBytes buffer (cutLine input).1 with
    | error e =>
      rw [hbytes] at h
      cases h
    | ok text =>
      rw [hbytes] at h
      cases h
      exact Nat.lt_add_right _ hcut

/-- Prompts and reads a line into the buffer, until nothing is in the buffer even then. What is in
there is answered without the blanks around it, and the buffer is cleared. -/
def converse (t : CharTables) (p : Parser) (job : Job) (buffer : String) (input : List UInt8) :
    Outcome :=
  match _h : readLine buffer input with
  | .error e => failure prompt (e.record t.shown)
  | .ok (text, rest) =>
    if _htext : text.isEmpty then ⟨0, prompt, ""⟩
    else
      let later := converse t p job "" rest
      let said := answer t.words p job (String.ofList (Text.trim text.toList))
      { later with stdout := prompt ++ said ++ later.stdout }
termination_by input.length + buffer.length
decreasing_by exact length_lt_of_readLine (by assumption) (by assumption)

/-- The parser for a grammar file. -/
def load (file : Except FileError ByteArray) : Except GrammarError Parser :=
  match Grammar.ofFile file with
  | .error e => .error e
  | .ok g => Parser.ofGrammar g

def runJob (t : CharTables) (job : Job) (file : Except FileError ByteArray) (stdin : ByteArray) :
    Outcome :=
  match load file with
  | .error e => failure "" (e.record t.shown)
  | .ok p =>
    match job.sentence with
    | some sentence => ⟨0, answer t.words p job sentence, ""⟩
    | none => converse t p job "" stdin.toList

end CommandLine

end PhraseChart
