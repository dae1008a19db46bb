namespace PhraseChart.Text

/-- The text does not go on with a character of this kind. -/
def EndsRun (kind : Char → Bool) (rest : List Char) : Prop := ∀ c ∈ rest.head?, kind c = false

variable {kind : Char → Bool} {run rest : List Char}

theorem endsRun_nil : EndsRun kind [] := fun _ h => nomatch h

theorem endsRun_cons {c : Char} : EndsRun kind (c :: rest) ↔ kind c = false := by
  simp [EndsRun]

theorem endsRun_dropWhile (kind : Char → Bool) (s : List Char) :
    EndsRun kind (s.dropWhile kind) := by
  intro c hc
  have h := List.head?_dropWhile_not kind s
  rwa [Option.mem_def.1 hc] at h

theorem dropWhile_of_endsRun (h : EndsRun kind rest) : rest.dropWhile kind = rest := by
  cases rest with
  | nil => rfl
  | cons c cs =>
    have hc : ¬kind c = true := by simpa using endsRun_cons.1 h
    rw [List.dropWhile_cons_of_neg hc]

theorem takeWhile_of_endsRun (h : EndsRun kind rest) : rest.takeWhile kind = [] := by
  cases rest with
  | nil => rfl
  | cons c cs =>
    have hc : ¬kind c = true := by simpa using endsRun_cons.1 h
    rw [List.takeWhile_cons_of_neg hc]

theorem takeWhile_run (hrun : ∀ c ∈ run, kind c = true) (hrest : EndsRun kind rest) :
    (run ++ rest).takeWhile kind = run := by
  rw [List.takeWhile_append_of_pos hrun, takeWhile_of_endsRun hrest, List.append_nil]

theorem dropWhile_run (hrun : ∀ c ∈ run, kind c = true) (hrest : EndsRun kind rest) :
    (run ++ rest).dropWhile kind = rest := by
  rw [List.dropWhile_append_of_pos hrun, dropWhile_of_endsRun hrest]

/-- A number is written as a run of digits. -/
theorem isDigit_of_mem_toString {n : Nat} {c : Char} (h : c ∈ (toString n).toList) :
    c.isDigit = true := by
  rw [Nat.toString_eq_repr, Nat.toList_repr] at h
  exact Nat.isDigit_of_mem_toDigits (by decide) (by decide) h

end PhraseChart.Text
