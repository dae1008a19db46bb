import PhraseChart.CommandLine.Arguments

namespace PhraseChart.CommandLine

def versionText : String := "ckytree 0.1.0\n"

def helpText : String :=
  "Parse sentences against a context-free grammar with a generalized CKY chart\n\n"
    ++ "Usage: ckytree [OPTIONS] <GRAMMAR>\n\n"
    ++ "Arguments:\n"
    ++ "  <GRAMMAR>  Grammar file, one `LHS -> alt | alt` rule group per line\n\n"
    ++ "Options:\n"
    ++ "  -c, --chart                Print the parse chart (defaults to not printing)\n"
    ++ "  -a, --all                  Print every analysis instead of the first one\n"
    ++ "  -s, --sentence <SENTENCE>  Parse this sentence and exit instead of reading from stdin\n"
    ++ "  -h, --help                 Print help\n"
    ++ "  -V, --version              Print version\n"

/-- A whole run, given what the files hold and all of standard input. -/
def run (args : List String) (files : String → Except FileError ByteArray) (stdin : ByteArray) :
    Outcome :=
  match readArguments args with
  | .error e => ⟨2, "", "error: " ++ e.message ++ "\n"⟩
  | .ok .help => ⟨0, helpText, ""⟩
  | .ok .version => ⟨0, versionText, ""⟩
  | .ok (.run job) => runJob .unicode job (files job.grammar) stdin

end PhraseChart.CommandLine
