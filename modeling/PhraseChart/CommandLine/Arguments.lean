import PhraseChart.CommandLine.Job

namespace PhraseChart.CommandLine

inductive Request where
  | help
  | version
  | run (job : Job)
deriving DecidableEq, Repr

inductive UsageError where
  | unknownOption (arg : String)
  | repeatedOption (name : String)
  | missingValue (name : String)
  | unwantedValue (name : String)
  | extraArgument (arg : String)
  | missingGrammar
deriving DecidableEq, Repr

def UsageError.message : UsageError → String
  | .unknownOption arg => "unexpected argument '" ++ arg ++ "' found"
  | .repeatedOption name => "the argument '--" ++ name ++ "' cannot be used multiple times"
  | .missingValue name => "a value is required for '--" ++ name ++ "' but none was supplied"
  | .unwantedValue name => "no value is accepted for '--" ++ name ++ "'"
  | .extraArgument arg => "unexpected argument '" ++ arg ++ "' found"
  | .missingGrammar => "the argument '<GRAMMAR>' is required"

inductive Switch where
  | chart
  | all
  | sentence
  | help
  | version
deriving DecidableEq, Repr

namespace Switch

def name : Switch → String
  | chart => "chart"
  | all => "all"
  | sentence => "sentence"
  | help => "help"
  | version => "version"

def letter : Switch → Char
  | chart => 'c'
  | all => 'a'
  | sentence => 's'
  | help => 'h'
  | version => 'V'

def every : List Switch := [chart, all, sentence, help, version]

def ofName? (name : String) : Option Switch := every.find? fun s => s.name == name

def ofLetter? (letter : Char) : Option Switch := every.find? fun s => s.letter == letter

end Switch

/-- What the arguments read so far have set. -/
structure Settings where
  grammar : Option String := none
  showChart : Bool := false
  showAll : Bool := false
  sentence : Option String := none
deriving DecidableEq, Repr

/-- Where reading one argument leads. -/
inductive Progress where
  | settled (s : Settings)
  | wantsSentence (s : Settings)
  | stopped (r : Request)
deriving DecidableEq, Repr

namespace Settings

/-- The grammar is given once, and not by an empty name. -/
def setGrammar (s : Settings) (path : String) : Except UsageError Settings :=
  match s.grammar with
  | some _ => .error (.extraArgument path)
  | none => if path.isEmpty then .error .missingGrammar else .ok { s with grammar := some path }

def setSentence (s : Settings) (text : String) : Except UsageError Settings :=
  match s.sentence with
  | some _ => .error (.repeatedOption Switch.sentence.name)
  | none => .ok { s with sentence := some text }

/-- Each switch is given once at most. Help and the version end the reading at once. -/
def turnOn (s : Settings) : Switch → Except UsageError Progress
  | .chart =>
    if s.showChart then .error (.repeatedOption Switch.chart.name)
    else .ok (.settled { s with showChart := true })
  | .all =>
    if s.showAll then .error (.repeatedOption Switch.all.name)
    else .ok (.settled { s with showAll := true })
  | .sentence => .ok (.wantsSentence s)
  | .help => .ok (.stopped .help)
  | .version => .ok (.stopped .version)

/-- The letters after one hyphen. The sentence may follow its letter, with or without `=`. -/
def letters (s : Settings) : List Char → Except UsageError Progress
  | [] => .ok (.settled s)
  | c :: cs =>
    match Switch.ofLetter? c with
    | none => .error (.unknownOption (String.ofList ['-', c]))
    | some switch =>
      match s.turnOn switch with
      | .error e => .error e
      | .ok (.stopped r) => .ok (.stopped r)
      | .ok (.settled s) => s.letters cs
      | .ok (.wantsSentence s) =>
        match cs with
        | [] => .ok (.wantsSentence s)
        | '=' :: text => (s.setSentence (String.ofList text)).map .settled
        | text => (s.setSentence (String.ofList text)).map .settled

/-- A full name after two hyphens, with the value after `=` if there is one. -/
def word (s : Settings) (text : List Char) : Except UsageError Progress :=
  let name := String.ofList (text.takeWhile (· != '='))
  match Switch.ofName? name, text.dropWhile (· != '=') with
  | none, _ => .error (.unknownOption ("--" ++ name))
  | some switch, [] => s.turnOn switch
  | some .sentence, _ :: value => (s.setSentence (String.ofList value)).map .settled
  | some switch, _ :: _ => .error (.unwantedValue switch.name)

def finish (s : Settings) : Except UsageError Request :=
  match s.grammar with
  | none => .error .missingGrammar
  | some path => .ok (.run ⟨path, s.showChart, s.showAll, s.sentence⟩)

/-- Arguments that are taken as they stand. -/
def readPlain (s : Settings) : List String → Except UsageError Request
  | [] => s.finish
  | arg :: rest =>
    match s.setGrammar arg with
    | .error e => .error e
    | .ok s => s.readPlain rest

/-- A hyphen alone is no option but a value like any other. -/
def looksLikeOption (arg : String) : Bool :=
  match arg.toList with
  | '-' :: _ :: _ => true
  | _ => false

/-- One argument other than the two hyphens that end the options. -/
def readOne (s : Settings) (arg : String) : Except UsageError Progress :=
  match arg.toList with
  | '-' :: '-' :: text => s.word text
  | '-' :: c :: cs => s.letters (c :: cs)
  | _ => (s.setGrammar arg).map .settled

def read (s : Settings) : List String → Except UsageError Request
  | [] => s.finish
  | arg :: rest =>
    if arg = "--" then s.readPlain rest
    else
      match s.readOne arg with
      | .error e => .error e
      | .ok (.stopped r) => .ok r
      | .ok (.settled s) => s.read rest
      | .ok (.wantsSentence s) =>
        match rest with
        | [] => .error (.missingValue Switch.sentence.name)
        | text :: rest =>
          if looksLikeOption text then .error (.missingValue Switch.sentence.name)
          else
            match s.setSentence text with
            | .error e => .error e
            | .ok s => s.read rest

end Settings

def readArguments (args : List String) : Except UsageError Request := Settings.read {} args

end PhraseChart.CommandLine
