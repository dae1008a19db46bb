import Mathlib.Data.List.TakeWhile
import PhraseChart.Grammar.Line
import PhraseChart.Proofs.Runs

namespace PhraseChart.Line
open Text

/-- Blanks, as many as there may be. -/
def Blanks (s : List Char) : Prop := ∀ c ∈ s, isBlank c = true

/-- Nothing is left of the line, or a comment is. -/
def Over (s : List Char) : Prop := s = [] ∨ ∃ comment, s = '#' :: comment

/-- One or more characters of a name. -/
structure IsName (s : List Char) : Prop where
  ne_nil : s ≠ []
  chars : ∀ c ∈ s, isNameChar c = true

/-- How an item is written in front of this rest: a bar, a name that is as long as it can be, or a
word between two marks of one kind. -/
inductive Written (rest : List Char) : Item → List Char → Prop
  | bar : Written rest .bar ['|']
  | name {name : List Char} (hname : IsName name) (hrest : EndsRun isNameChar rest) :
    Written rest (.symbol (.nonterminal (String.ofList name))) name
  | word {word : List Char} (q : Quote) (hne : word ≠ []) (hmark : q.mark ∉ word) :
    Written rest (.symbol (.terminal (String.ofList word))) (q.mark :: (word ++ [q.mark]))

/-- Items up to the end of the line, with blanks around them. -/
inductive Body : List Item → List Char → Prop
  | done {blanks rest : List Char} (hblanks : Blanks blanks) (hover : Over rest) :
    Body [] (blanks ++ rest)
  | item {blanks text rest : List Char} {i : Item} {is : List Item} (hblanks : Blanks blanks)
    (hitem : Written rest i text) (hrest : Body is rest) :
    Body (i :: is) (blanks ++ (text ++ rest))

/-- A name and an arrow with blanks around the name, then the body of the rules. -/
inductive Headed : List Char → List Char → List Char → Prop
  | intro {blanks name blanks' body : List Char} (hblanks : Blanks blanks) (hname : IsName name)
    (hend : EndsRun isNameChar (blanks' ++ '-' :: '>' :: body)) (hblanks' : Blanks blanks') :
    Headed name body (blanks ++ (name ++ (blanks' ++ '-' :: '>' :: body)))

/-- What a line says: no rules, or one rule for each of the segments between the bars. -/
inductive Denotes : List Char → List Rule → Prop
  | nothing {blanks rest : List Char} (hblanks : Blanks blanks) (hover : Over rest) :
    Denotes (blanks ++ rest) []
  | rules {name body line : List Char} {is : List Item} {bodies : List (List Symbol)}
    (hhead : Headed name body line) (hbody : Body is body)
    (hbodies : is.splitOn .bar = bodies.map (List.map .symbol)) :
    Denotes line (bodies.map (Rule.mk (String.ofList name)))

/-- No item is written at the front of the text. -/
def NoItem (s : List Char) : Prop := ∀ i text rest, s = text ++ rest → ¬Written rest i text

/-- The first text holds items up to the second one, which is not over but begins with no item. -/
inductive BodyStops : List Char → List Char → Prop
  | here {blanks rest : List Char} (hblanks : Blanks blanks) (hend : EndsRun isBlank rest)
    (hover : ¬Over rest) (hitem : NoItem rest) : BodyStops (blanks ++ rest) rest
  | later {blanks text after rest : List Char} {i : Item} (hblanks : Blanks blanks)
    (hitem : Written after i text) (hafter : BodyStops after rest) :
    BodyStops (blanks ++ (text ++ after)) rest

/-- The first text is a line up to the second one, where a name, an arrow or an item is missing. -/
inductive Stops : List Char → List Char → Prop
  | head {blanks rest : List Char} (hblanks : Blanks blanks) (hend : EndsRun isBlank rest)
    (hover : ¬Over rest) (hname : ∀ name after, rest = name ++ after → ¬IsName name) :
    Stops (blanks ++ rest) rest
  | arrow {blanks name blanks' rest : List Char} (hblanks : Blanks blanks) (hname : IsName name)
    (hend : EndsRun isNameChar (blanks' ++ rest)) (hblanks' : Blanks blanks')
    (hend' : EndsRun isBlank rest) (harrow : ∀ after, rest ≠ '-' :: '>' :: after) :
    Stops (blanks ++ (name ++ (blanks' ++ rest))) rest
  | item {name body line rest : List Char} (hhead : Headed name body line)
    (hbody : BodyStops body rest) : Stops line rest

section
variable {s rest name blanks : List Char}

theorem atEnd_iff : atEnd s = true ↔ Over s := by
  cases s <;> simp [atEnd, Over]

theorem exists_blanks (s : List Char) : ∃ blanks, Blanks blanks ∧ s = blanks ++ dropBlanks s :=
  ⟨s.takeWhile isBlank, fun _ hc => List.mem_takeWhile_imp hc,
    List.takeWhile_append_dropWhile.symm⟩

theorem blanks_space : Blanks [' '] := by
  intro c hc
  rw [List.mem_singleton.1 hc]
  decide

theorem dropBlanks_append (hblanks : Blanks blanks) (h : EndsRun isBlank rest) :
    dropBlanks (blanks ++ rest) = rest := dropWhile_run hblanks h

/-- Letters and digits of ASCII, the hyphen and the underscore. -/
theorem isNameChar_iff {c : Char} : isNameChar c = true ↔
    ('A' ≤ c ∧ c ≤ 'Z') ∨ ('a' ≤ c ∧ c ≤ 'z') ∨ ('0' ≤ c ∧ c ≤ '9') ∨ c = '-' ∨ c = '_' := by
  have hletter : c.isAlpha =
      (decide ('A' ≤ c ∧ c ≤ 'Z') || (decide ('a' ≤ c) && decide (c ≤ 'z'))) := rfl
  have hdigit : c.isDigit = (decide ('0' ≤ c) && decide (c ≤ '9')) := rfl
  rw [isNameChar, Char.isAlphanum, hletter, hdigit]
  simp [or_assoc]

theorem toNat_of_isNameChar {c : Char} (h : isNameChar c = true) :
    0x2d ≤ c.toNat ∧ c.toNat ≤ 0x7a := by
  simp only [isNameChar_iff, Char.le_def, UInt32.le_iff_toNat_le, Char.toNat_val,
    Char.reduceToNat] at h
  rcases h with h | h | h | rfl | rfl
  · omega
  · omega
  · omega
  · decide
  · decide

theorem isBlank_of_isNameChar {c : Char} (h : isNameChar c = true) : isBlank c = false := by
  have hrange := toNat_of_isNameChar h
  have houtside : ∀ r ∈ blankRanges, r.2 < 0x2d ∨ 0x7a < r.1 := by decide
  rw [isBlank, ← Bool.not_eq_true, inRanges_iff]
  rintro ⟨r, hr, hc⟩
  have := houtside r hr
  omega

theorem Over.endsRun (h : Over s) : EndsRun isBlank s := by
  rcases h with rfl | ⟨comment, rfl⟩
  · exact endsRun_nil
  · exact endsRun_cons.2 (by decide)

theorem IsName.exists_cons (h : IsName name) : ∃ c cs, name = c :: cs ∧ isNameChar c = true := by
  obtain ⟨c, cs, rfl⟩ := List.exists_cons_of_ne_nil h.ne_nil
  exact ⟨c, cs, rfl, h.chars c List.mem_cons_self⟩

theorem IsName.endsRun (h : IsName name) : EndsRun isBlank (name ++ rest) := by
  obtain ⟨c, cs, rfl, hc⟩ := h.exists_cons
  exact endsRun_cons.2 (isBlank_of_isNameChar hc)

theorem IsName.not_over (h : IsName name) : ¬Over (name ++ rest) := by
  obtain ⟨c, cs, rfl, hc⟩ := h.exists_cons
  rintro (h | ⟨comment, h⟩)
  · exact List.cons_ne_nil _ _ h
  · obtain rfl := (List.cons.inj h).1
    exact absurd hc (by decide)

theorem name?_eq_some_iff {n : String} :
    name? s = some (n, rest) ↔
      ∃ name, s = name ++ rest ∧ IsName name ∧ EndsRun isNameChar rest ∧
        n = String.ofList name := by
  constructor
  · intro h
    unfold name? at h
    split at h
    · cases h
    · rename_i hne
      simp only [Option.some.injEq, Prod.mk.injEq] at h
      obtain ⟨rfl, rfl⟩ := h
      exact ⟨_, List.takeWhile_append_dropWhile.symm,
        ⟨hne, fun _ hc => List.mem_takeWhile_imp hc⟩, endsRun_dropWhile _ s, rfl⟩
  · rintro ⟨name, rfl, hname, hrest, rfl⟩
    unfold name?
    rw [takeWhile_run hname.chars hrest, dropWhile_run hname.chars hrest]
    split
    · exact absurd rfl hname.ne_nil
    · rfl

theorem name?_eq_none_iff :
    name? s = none ↔ ∀ name after, s = name ++ after → ¬IsName name := by
  constructor
  · rintro h name after rfl hname
    obtain ⟨c, cs, rfl, hc⟩ := hname.exists_cons
    simp [name?, hc] at h
  · intro h
    cases hs : name? s with
    | none => rfl
    | some found =>
      obtain ⟨name, hcut, hname, -⟩ := name?_eq_some_iff.1 hs
      exact absurd hname (h name _ hcut)

theorem arrow?_eq_some_iff : arrow? s = some rest ↔ s = '-' :: '>' :: rest := by
  constructor
  · intro h
    unfold arrow? at h
    split at h
    · rw [Option.some.inj h]
    · cases h
  · rintro rfl
    rfl

end

section
variable {s text rest blanks word : List Char} {i : Item} {is : List Item} {e : LineError}

theorem quoted?_eq_some_iff {mark : Char} :
    quoted? mark s = some (word, rest) ↔ s = word ++ mark :: rest ∧ mark ∉ word := by
  constructor
  · intro h
    unfold quoted? at h
    split at h
    · cases h
    · rename_i c cs hdrop
      simp only [Option.some.injEq, Prod.mk.injEq] at h
      obtain ⟨rfl, rfl⟩ := h
      have hcut := List.takeWhile_append_dropWhile (p := (· != mark)) (l := s)
      have hmark : c = mark := by
        have hend := endsRun_dropWhile (· != mark) s
        rw [hdrop, endsRun_cons] at hend
        simpa using hend
      rw [hdrop, hmark] at hcut
      refine ⟨hcut.symm, fun hmem => ?_⟩
      simpa using List.mem_takeWhile_imp hmem
  · rintro ⟨rfl, hmark⟩
    have hword : ∀ c ∈ word, (c != mark) = true := by
      intro c hc
      simpa using fun h : c = mark => hmark (h ▸ hc)
    have hend : EndsRun (· != mark) (mark :: rest) := endsRun_cons.2 (by simp)
    rw [quoted?, dropWhile_run hword hend, takeWhile_run hword hend]

theorem ofMark?_eq_none {c : Char} (h : isNameChar c = true) : Quote.ofMark? c = none := by
  unfold Quote.ofMark?
  split
  · rename_i hc
    exact absurd (hc ▸ h) (by decide)
  split
  · rename_i hc
    exact absurd (hc ▸ h) (by decide)
  · rfl

theorem mark_of_ofMark? {c : Char} {q : Quote} (h : Quote.ofMark? c = some q) : c = q.mark := by
  unfold Quote.ofMark? at h
  split at h
  · rw [← Option.some.inj h]
    assumption
  split at h
  · rw [← Option.some.inj h]
    assumption
  · cases h

theorem item_of_written (h : Written rest i text) : item (text ++ rest) = .ok (i, rest) := by
  cases h with
  | bar => simp [item]
  | name hname hrest =>
    obtain ⟨c, cs, hcons, hc⟩ := hname.exists_cons
    have hbar : c ≠ '|' := by
      rintro rfl
      exact absurd hc (by decide)
    have hread := name?_eq_some_iff.2 ⟨_, rfl, hname, hrest, rfl⟩
    rw [hcons, List.cons_append] at hread ⊢
    simp only [item, if_neg hbar, ofMark?_eq_none hc, hread]
  | @word word q hne hmark =>
    obtain ⟨c, cs, rfl⟩ := List.exists_cons_of_ne_nil hne
    have hbar : q.mark ≠ '|' := by cases q <;> decide
    have hread : quoted? q.mark (c :: cs ++ q.mark :: rest) = some (c :: cs, rest) :=
      quoted?_eq_some_iff.2 ⟨rfl, hmark⟩
    rw [List.cons_append, List.append_assoc, List.singleton_append]
    simp only [item, if_neg hbar, Quote.ofMark?_mark, hread]

/-- What is read as an item is written at the front. -/
theorem written_of_item (h : item s = .ok (i, rest)) :
    ∃ text, s = text ++ rest ∧ Written rest i text := by
  unfold item at h
  split at h
  · cases h
  rename_i c cs
  split at h
  · rename_i hbar
    cases h
    exact ⟨['|'], by rw [hbar]; rfl, .bar⟩
  split at h
  · rename_i q hq
    split at h
    · cases h
    · cases h
    · rename_i word rest' hne hread
      cases h
      obtain ⟨rfl, hmark⟩ := quoted?_eq_some_iff.1 hread
      refine ⟨q.mark :: (word ++ [q.mark]), ?_, .word q hne hmark⟩
      rw [mark_of_ofMark? hq]
      simp
  · split at h
    · cases h
    · rename_i hread
      cases h
      obtain ⟨name, hcut, hname, hrest, rfl⟩ := name?_eq_some_iff.1 hread
      exact ⟨name, hcut, .name hname hrest⟩

theorem rest_of_item_error (h : item s = .error e) : e.rest = String.ofList s := by
  unfold item at h
  split at h
  · cases h
    rfl
  split at h
  · cases h
  split at h
  · split at h
    · cases h
      rfl
    · cases h
      rfl
    · cases h
  · split at h
    · cases h
      rfl
    · cases h

theorem noItem_of_error (h : item s = .error e) : NoItem s := by
  rintro i text rest rfl hitem
  rw [item_of_written hitem] at h
  cases h

theorem item_of_noItem (h : NoItem s) : ∃ e, item s = .error e := by
  cases hs : item s with
  | error e => exact ⟨e, rfl⟩
  | ok found =>
    obtain ⟨text, hcut, hitem⟩ := written_of_item hs
    exact absurd hitem (h _ text _ hcut)

theorem Written.endsRun (h : Written rest i text) : EndsRun isBlank (text ++ rest) := by
  cases h with
  | bar => exact endsRun_cons.2 (by decide)
  | name hname _ => exact hname.endsRun
  | word q _ _ => exact endsRun_cons.2 (by cases q <;> decide)

theorem Written.not_over (h : Written rest i text) : ¬Over (text ++ rest) := by
  cases h with
  | bar => simp [Over]
  | name hname _ => exact hname.not_over
  | word q _ _ => cases q <;> simp [Over, Quote.mark]

end

end PhraseChart.Line
