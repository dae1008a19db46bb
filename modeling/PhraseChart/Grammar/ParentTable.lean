namespace PhraseChart

/-- For each right-hand side the heads of its rules, in rule order and repeated as the rules are. -/
structure ParentTable (κ : Type) where
  entries : List (κ × List String) := []
deriving DecidableEq, Repr

namespace ParentTable

variable {κ : Type} [DecidableEq κ]

def addTo (key : κ) (head : String) : List (κ × List String) → List (κ × List String)
  | [] => [(key, [head])]
  | (k, heads) :: rest =>
    if k = key then (k, heads ++ [head]) :: rest else (k, heads) :: addTo key head rest

def add (t : ParentTable κ) (key : κ) (head : String) : ParentTable κ :=
  ⟨addTo key head t.entries⟩

def parents (t : ParentTable κ) (key : κ) : List String := (t.entries.lookup key).getD []

/-- All heads in the table. -/
def heads (t : ParentTable κ) : List String := t.entries.flatMap Prod.snd

/-- How many rules the table holds. -/
def size (t : ParentTable κ) : Nat := t.heads.length

theorem mem_heads_of_mem_parents {t : ParentTable κ} {key : κ} {head : String}
    (h : head ∈ t.parents key) : head ∈ t.heads := by
  obtain ⟨entries⟩ := t
  induction entries with
  | nil => simp [parents] at h
  | cons e rest ih =>
    obtain ⟨k, hs⟩ := e
    simp only [parents, heads, List.lookup_cons, List.flatMap_cons, List.mem_append] at h ih ⊢
    split at h
    · exact .inl (by simpa using h)
    · exact .inr (ih h)

end ParentTable

end PhraseChart
