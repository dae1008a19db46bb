import PhraseChart.Symbol
import PhraseChart.Text.Blank

namespace PhraseChart

/-- Why a line cannot be read. Each cause holds the rest of the line from where reading stopped. -/
inductive LineError where
  | noHead (rest : String)
  | noArrow (rest : String)
  | noItem (rest : String)
  | openQuote (rest : String)
  | emptyWord (rest : String)
deriving DecidableEq, Repr

namespace LineError

def rest : LineError → String
  | noHead rest | noArrow rest | noItem rest | openQuote rest | emptyWord rest => rest

/-- What was looked for, outermost part first. -/
def expectation : LineError → String
  | noHead _ => "rule symbol: name: couldn't match [a-zA-Z0-9\\-_]+"
  | noArrow _ => "rule arrow: couldn't match ->"
  | noItem _ => "rule production: symbol: name: couldn't match [a-zA-Z0-9\\-_]+"
  | openQuote _ => "rule production: terminal: unterminated quote"
  | emptyWord _ => "rule production: terminal: empty terminal"

def message (e : LineError) : String := e.expectation ++ " at `" ++ e.rest ++ "`"

end LineError

namespace Line

def isNameChar (c : Char) : Bool := c.isAlphanum || c == '-' || c == '_'

/-- A line is over at its end and where a comment starts. -/
def atEnd : List Char → Bool
  | [] => true
  | c :: _ => c == '#'

/-- The longest name at the front, and what follows it. -/
def name? (s : List Char) : Option (String × List Char) :=
  match s.takeWhile isNameChar with
  | [] => none
  | name => some (String.ofList name, s.dropWhile isNameChar)

/-- What follows the arrow at the front. -/
def arrow? : List Char → Option (List Char)
  | '-' :: '>' :: rest => some rest
  | _ => none

/-- The text up to the closing mark, and what follows that mark. -/
def quoted? (mark : Char) (s : List Char) : Option (List Char × List Char) :=
  match s.dropWhile (· != mark) with
  | [] => none
  | _ :: rest => some (s.takeWhile (· != mark), rest)

/-- What a right-hand side is written as: symbols, and bars between the alternatives. -/
inductive Item where
  | bar
  | symbol (s : Symbol)
deriving DecidableEq, Repr

/-- The item at the front. The mark that opens a word is the one that closes it. -/
def item : List Char → Except LineError (Item × List Char)
  | [] => .error (.noItem "")
  | c :: cs =>
    if c = '|' then .ok (.bar, cs)
    else match Quote.ofMark? c with
      | some q =>
        match quoted? q.mark cs with
        | none => .error (.openQuote (String.ofList (c :: cs)))
        | some ([], _) => .error (.emptyWord (String.ofList (c :: cs)))
        | some (word, rest) => .ok (.symbol (.terminal (String.ofList word)), rest)
      | none =>
        match name? (c :: cs) with
        | none => .error (.noItem (String.ofList (c :: cs)))
        | some (name, rest) => .ok (.symbol (.nonterminal name), rest)

theorem length_lt_of_name? {s rest : List Char} {name : String} (h : name? s = some (name, rest)) :
    rest.length < s.length := by
  unfold name? at h
  split at h
  · simp at h
  · rename_i hne
    have hlen := congrArg List.length (List.takeWhile_append_dropWhile (p := isNameChar) (l := s))
    have hpos := List.length_pos_iff.2 hne
    simp only [Option.some.injEq, Prod.mk.injEq] at h
    rw [List.length_append] at hlen
    rw [← h.2]
    omega

theorem length_le_of_quoted? {mark : Char} {s word rest : List Char}
    (h : quoted? mark s = some (word, rest)) : rest.length ≤ s.length := by
  unfold quoted? at h
  split at h
  · simp at h
  · rename_i c r hd
    have hle := (List.dropWhile_sublist (l := s) (· != mark)).length_le
    simp only [Option.some.injEq, Prod.mk.injEq] at h
    rw [hd, List.length_cons] at hle
    rw [← h.2]
    omega

/-- Reading an item uses up text. -/
theorem length_lt_of_item {s rest : List Char} {i : Item} (h : item s = .ok (i, rest)) :
    rest.length < s.length := by
  unfold item at h
  split at h
  · simp at h
  split at h
  · simp only [Except.ok.injEq, Prod.mk.injEq] at h
    simp [← h.2]
  split at h
  · split at h
    · simp at h
    · simp at h
    · rename_i hq
      simp only [Except.ok.injEq, Prod.mk.injEq] at h
      have := length_le_of_quoted? hq
      simp only [List.length_cons, ← h.2]
      omega
  · split at h
    · simp at h
    · rename_i hn
      simp only [Except.ok.injEq, Prod.mk.injEq] at h
      exact h.2 ▸ length_lt_of_name? hn

/-- The items up to the end of the line, with any blanks around them. -/
def items (s : List Char) : Except LineError (List Item) :=
  let s' := Text.dropBlanks s
  if atEnd s' then .ok []
  else
    match _h : item s' with
    | .error e => .error e
    | .ok (i, rest) => (items rest).map (i :: ·)
termination_by s.length
decreasing_by
  exact Nat.lt_of_lt_of_le (length_lt_of_item (by assumption)) (Text.length_dropBlanks_le s)

/-- The right-hand sides between the bars, empty ones included. -/
def alternatives : List Item → List (List Symbol)
  | [] => [[]]
  | .bar :: rest => [] :: alternatives rest
  | .symbol s :: rest =>
    match alternatives rest with
    | [] => [[s]]
    | body :: bodies => (s :: body) :: bodies

/-- The rules of a line: none for a blank line or a comment, else one for each alternative. -/
def rules (line : List Char) : Except LineError (List Rule) :=
  let s := Text.dropBlanks line
  if atEnd s then .ok []
  else
    match name? s with
    | none => .error (.noHead (String.ofList s))
    | some (head, afterHead) =>
      let s := Text.dropBlanks afterHead
      match arrow? s with
      | none => .error (.noArrow (String.ofList s))
      | some body => (items body).map fun is => (alternatives is).map (Rule.mk head)

end Line

end PhraseChart
