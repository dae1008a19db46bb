namespace PhraseChart

/-- The two marks that can enclose a word in a rule. -/
inductive Quote where
  | single
  | double
deriving DecidableEq, Repr

def Quote.mark : Quote → Char
  | .single => '\''
  | .double => '"'

def Quote.ofMark? (c : Char) : Option Quote :=
  if c = Quote.single.mark then some .single
  else if c = Quote.double.mark then some .double
  else none

def Quote.enclose (q : Quote) (word : String) : String :=
  String.singleton q.mark ++ word ++ String.singleton q.mark

/-- Single marks, unless the word holds one itself. -/
def Quote.forWord (word : String) : Quote :=
  if Quote.single.mark ∈ word.toList then .double else .single

theorem Quote.ofMark?_mark (q : Quote) : Quote.ofMark? q.mark = some q := by
  cases q <;> rfl

/-- One item of a rule's right-hand side. A word and a name spelled alike are different symbols. -/
inductive Symbol where
  | terminal (word : String)
  | nonterminal (name : String)
deriving DecidableEq, Repr

namespace Symbol

def name? : Symbol → Option String
  | terminal _ => none
  | nonterminal name => some name

def text : Symbol → String
  | terminal word => (Quote.forWord word).enclose word
  | nonterminal name => name

instance : ToString Symbol := ⟨text⟩

end Symbol

structure Rule where
  head : String
  body : List Symbol
deriving DecidableEq, Repr

namespace Rule

/-- How many symbols stand on the right-hand side. -/
def arity (r : Rule) : Nat := r.body.length

def text (r : Rule) : String :=
  r.head ++ " ->" ++ String.join (r.body.map fun s => " " ++ s.text)

instance : ToString Rule := ⟨text⟩

end Rule

end PhraseChart
