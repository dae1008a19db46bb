import PhraseChart.Proofs.LineGrammar

namespace PhraseChart.Line
open Text

section
variable {s text rest blanks : List Char} {i : Item} {is : List Item} {e : LineError}

theorem items_of_over (h : Over (dropBlanks s)) : items s = .ok [] := by
  rw [items]
  exact if_pos (atEnd_iff.2 h)

theorem items_of_not_over {s' : List Char} (hs : dropBlanks s = s') (hover : ¬Over s') :
    items s = match item s' with
      | .error e => .error e
      | .ok (i, rest) => (items rest).map (i :: ·) := by
  subst hs
  rw [items, if_neg (mt atEnd_iff.1 hover)]
  split <;> rename_i h <;> rw [h]

theorem items_of_written (hblanks : Blanks blanks) (h : Written rest i text) :
    items (blanks ++ (text ++ rest)) = (items rest).map (i :: ·) := by
  rw [items_of_not_over (dropBlanks_append hblanks h.endsRun) h.not_over, item_of_written h]

theorem items_of_body (h : Body is s) : items s = .ok is := by
  induction h with
  | done hblanks hover =>
    apply items_of_over
    rwa [dropBlanks_append hblanks hover.endsRun]
  | item hblanks hitem _ ih =>
    rw [items_of_written hblanks hitem, ih]
    rfl

theorem items_of_bodyStops (h : BodyStops s rest) :
    ∃ e, items s = .error e ∧ e.rest = String.ofList rest := by
  induction h with
  | here hblanks hend hover hitem =>
    obtain ⟨e, he⟩ := item_of_noItem hitem
    refine ⟨e, ?_, rest_of_item_error he⟩
    rw [items_of_not_over (dropBlanks_append hblanks hend) hover, he]
  | later hblanks hitem _ ih =>
    obtain ⟨e, he, hrest⟩ := ih
    exact ⟨e, by rw [items_of_written hblanks hitem, he]; rfl, hrest⟩

/-- What follows an arrow is a body, or it stops being one somewhere. -/
theorem body_or_bodyStops (s : List Char) : (∃ is, Body is s) ∨ ∃ rest, BodyStops s rest := by
  -- the reader says where to cut, so its recursion carries the induction
  fun_induction items s with
  | case1 s s' hend =>
    obtain ⟨blanks, hblanks, hs⟩ := exists_blanks s
    rw [hs]
    exact .inl ⟨[], .done hblanks (atEnd_iff.1 hend)⟩
  | case2 s s' hend e he =>
    obtain ⟨blanks, hblanks, hs⟩ := exists_blanks s
    rw [hs]
    exact .inr ⟨s', .here hblanks (endsRun_dropWhile _ _) (mt atEnd_iff.2 hend)
      (noItem_of_error he)⟩
  | case3 s s' hend i rest h ih =>
    obtain ⟨blanks, hblanks, hs⟩ := exists_blanks s
    obtain ⟨text, hcut, hitem⟩ := written_of_item h
    rw [hs, show dropBlanks s = text ++ rest from hcut]
    rcases ih with ⟨is, his⟩ | ⟨stop, hstop⟩
    · exact .inl ⟨i :: is, .item hblanks hitem his⟩
    · exact .inr ⟨stop, .later hblanks hitem hstop⟩

theorem items_eq_ok_iff : items s = .ok is ↔ Body is s := by
  constructor
  · intro h
    rcases body_or_bodyStops s with ⟨is', his'⟩ | ⟨rest, hrest⟩
    · obtain rfl := Except.ok.inj ((items_of_body his').symm.trans h)
      exact his'
    · obtain ⟨e, he, -⟩ := items_of_bodyStops hrest
      rw [he] at h
      cases h
  · exact items_of_body

/-- Each item of a body is written somewhere in it. -/
theorem Body.exists_written (h : Body is s) (hi : i ∈ is) :
    ∃ text rest, text ⊆ s ∧ Written rest i text := by
  induction h with
  | done => cases hi
  | @item blanks text rest _ _ _ hitem _ ih =>
    rcases List.mem_cons.1 hi with rfl | hi
    · exact ⟨text, rest, fun c hc => by simp [hc], hitem⟩
    · obtain ⟨text', rest', hsub, hwritten⟩ := ih hi
      exact ⟨text', rest', fun c hc => by simp [hsub hc], hwritten⟩

theorem BodyStops.suffix (h : BodyStops s rest) : rest <:+ s := by
  induction h with
  | here => exact List.suffix_append _ _
  | later _ _ _ ih =>
    exact ih.trans ((List.suffix_append _ _).trans (List.suffix_append _ _))

end

theorem alternatives_ne_nil (is : List Item) : alternatives is ≠ [] := by
  cases is with
  | nil => exact List.cons_ne_nil _ _
  | cons i is =>
    cases i with
    | bar => exact List.cons_ne_nil _ _
    | symbol s =>
      rw [alternatives]
      split <;> exact List.cons_ne_nil _ _

theorem alternatives_symbol_cons (s : Symbol) (is : List Item) :
    alternatives (.symbol s :: is) = (alternatives is).modifyHead (s :: ·) := by
  obtain ⟨body, bodies, h⟩ := List.exists_cons_of_ne_nil (alternatives_ne_nil is)
  simp [alternatives, h]

theorem map_alternatives (is : List Item) :
    (alternatives is).map (List.map .symbol) = is.splitOn .bar := by
  rw [List.splitOn_eq_splitOnP]
  induction is with
  | nil => rfl
  | cons i is ih =>
    rw [List.splitOnP_cons_eq_if_modifyHead, ← ih]
    cases i with
    | bar => rfl
    | symbol s =>
      rw [alternatives_symbol_cons]
      cases alternatives is <;> rfl

theorem alternatives_eq_iff {is : List Item} {bodies : List (List Symbol)} :
    alternatives is = bodies ↔ is.splitOn .bar = bodies.map (List.map .symbol) := by
  rw [← map_alternatives, List.map_inj_right]
  intro body body' h
  exact (List.map_inj_right fun _ _ => Item.symbol.inj).1 h

theorem alternatives_map_symbol (body : List Symbol) :
    alternatives (body.map .symbol) = [body] := by
  induction body with
  | nil => rfl
  | cons s body ih =>
    rw [List.map_cons, alternatives_symbol_cons, ih]
    rfl

theorem mem_of_mem_alternatives {is : List Item} {body : List Symbol} {s : Symbol}
    (hbody : body ∈ alternatives is) (hs : s ∈ body) : .symbol s ∈ is := by
  induction is generalizing body with
  | nil =>
    rw [List.mem_singleton.1 hbody] at hs
    cases hs
  | cons i is ih =>
    cases i with
    | bar =>
      rcases List.mem_cons.1 hbody with rfl | hbody
      · cases hs
      · exact List.mem_cons_of_mem _ (ih hbody hs)
    | symbol first =>
      obtain ⟨b, bs, halts⟩ := List.exists_cons_of_ne_nil (alternatives_ne_nil is)
      rw [alternatives_symbol_cons, halts, List.modifyHead_cons] at hbody
      rw [halts] at ih
      rcases List.mem_cons.1 hbody with rfl | hbody
      · rcases List.mem_cons.1 hs with rfl | hs
        · exact List.mem_cons_self
        · exact List.mem_cons_of_mem _ (ih List.mem_cons_self hs)
      · exact List.mem_cons_of_mem _ (ih (List.mem_cons_of_mem _ hbody) hs)

theorem length_alternatives (is : List Item) : (alternatives is).length = 1 + is.count .bar := by
  induction is with
  | nil => rfl
  | cons i is ih =>
    cases i with
    | bar =>
      rw [alternatives, List.length_cons, ih, List.count_cons_self]
      omega
    | symbol s =>
      have hne : Item.symbol s ≠ .bar := nofun
      rw [alternatives_symbol_cons, List.length_modifyHead, ih, List.count_cons_of_ne hne]

section
variable {line rest name body : List Char} {rs : List Rule}

theorem rules_of_headed (h : Headed name body line) :
    rules line =
      (items body).map fun is => (alternatives is).map (Rule.mk (String.ofList name)) := by
  cases h with
  | @intro blanks _ blanks' _ hblanks hname hend hblanks' =>
    have hhead : dropBlanks (blanks ++ (name ++ (blanks' ++ '-' :: '>' :: body))) =
        name ++ (blanks' ++ '-' :: '>' :: body) := dropBlanks_append hblanks hname.endsRun
    have harrow : dropBlanks (blanks' ++ '-' :: '>' :: body) = '-' :: '>' :: body :=
      dropBlanks_append hblanks' (endsRun_cons.2 (by decide))
    have hread := name?_eq_some_iff.2 ⟨_, rfl, hname, hend, rfl⟩
    simp only [rules, hhead, mt atEnd_iff.1 hname.not_over, hread, harrow, arrow?]
    rfl

theorem rules_of_denotes (h : Denotes line rs) : rules line = .ok rs := by
  cases h with
  | nothing hblanks hover =>
    simp [rules, dropBlanks_append hblanks hover.endsRun, atEnd_iff.2 hover]
  | rules hhead hbody hbodies =>
    rw [rules_of_headed hhead, items_of_body hbody, ← alternatives_eq_iff.2 hbodies]
    rfl

theorem rules_of_stops (h : Stops line rest) :
    ∃ e, rules line = .error e ∧ e.rest = String.ofList rest := by
  cases h with
  | head hblanks hend hover hname =>
    refine ⟨.noHead (String.ofList rest), ?_, rfl⟩
    simp [rules, dropBlanks_append hblanks hend, mt atEnd_iff.1 hover, name?_eq_none_iff.2 hname]
  | arrow hblanks hname hend hblanks' hend' harrow =>
    refine ⟨.noArrow (String.ofList rest), ?_, rfl⟩
    have hread := name?_eq_some_iff.2 ⟨_, rfl, hname, hend, rfl⟩
    have hnone : arrow? rest = none := Option.eq_none_iff_forall_ne_some.2 fun after h =>
      harrow after (arrow?_eq_some_iff.1 h)
    simp only [rules, dropBlanks_append hblanks hname.endsRun, mt atEnd_iff.1 hname.not_over, hread,
      dropBlanks_append hblanks' hend', hnone]
    rfl
  | item hhead hbody =>
    obtain ⟨e, he, hrest⟩ := items_of_bodyStops hbody
    exact ⟨e, by rw [rules_of_headed hhead, he]; rfl, hrest⟩

/-- Each line denotes rules, or it stops somewhere. -/
theorem denotes_or_stops (line : List Char) :
    (∃ rs, Denotes line rs) ∨ ∃ rest, Stops line rest := by
  obtain ⟨blanks, hblanks, hline⟩ := exists_blanks line
  have hend : EndsRun isBlank (dropBlanks line) := endsRun_dropWhile _ _
  by_cases hover : Over (dropBlanks line)
  · rw [hline]
    exact .inl ⟨[], .nothing hblanks hover⟩
  cases hname : name? (dropBlanks line) with
  | none =>
    rw [hline]
    exact .inr ⟨_, .head hblanks hend hover (name?_eq_none_iff.1 hname)⟩
  | some found =>
    obtain ⟨name, hcut, hname, hend', -⟩ := name?_eq_some_iff.1 hname
    obtain ⟨blanks', hblanks', hafter⟩ := exists_blanks found.2
    rw [hafter] at hcut hend'
    rw [hcut] at hline
    cases harrow : arrow? (dropBlanks found.2) with
    | none =>
      rw [hline]
      refine .inr ⟨_, .arrow hblanks hname hend' hblanks' (endsRun_dropWhile _ _) fun after h => ?_⟩
      rw [arrow?_eq_some_iff.2 h] at harrow
      cases harrow
    | some body =>
      rw [arrow?_eq_some_iff.1 harrow] at hline hend'
      have hhead : Headed name body line := hline ▸ .intro hblanks hname hend' hblanks'
      rcases body_or_bodyStops body with ⟨is, his⟩ | ⟨rest, hrest⟩
      · exact .inl ⟨_, .rules hhead his (map_alternatives is).symm⟩
      · exact .inr ⟨rest, .item hhead hrest⟩

theorem rules_eq_ok_iff : rules line = .ok rs ↔ Denotes line rs := by
  constructor
  · intro h
    rcases denotes_or_stops line with ⟨rs', hrs'⟩ | ⟨rest, hrest⟩
    · obtain rfl := Except.ok.inj ((rules_of_denotes hrs').symm.trans h)
      exact hrs'
    · obtain ⟨e, he, -⟩ := rules_of_stops hrest
      rw [he] at h
      cases h
  · exact rules_of_denotes

theorem Headed.isName (h : Headed name body line) : IsName name := by
  cases h with
  | intro _ hname _ _ => exact hname

theorem Headed.suffix (h : Headed name body line) : body <:+ line := by
  cases h with
  | intro =>
    refine List.IsSuffix.trans ?_ (List.suffix_append _ _)
    refine List.IsSuffix.trans ?_ (List.suffix_append _ _)
    exact (List.suffix_append ['-', '>'] body).trans (List.suffix_append _ _)

theorem Stops.suffix (h : Stops line rest) : rest <:+ line := by
  cases h with
  | head => exact List.suffix_append _ _
  | arrow =>
    exact (List.suffix_append _ _).trans ((List.suffix_append _ _).trans (List.suffix_append _ _))
  | item hhead hbody => exact hbody.suffix.trans hhead.suffix

/-- A line stops at one place at most. -/
theorem Stops.unique {rest' : List Char} (h : Stops line rest) (h' : Stops line rest') :
    rest = rest' := by
  obtain ⟨e, he, hrest⟩ := rules_of_stops h
  obtain ⟨e', he', hrest'⟩ := rules_of_stops h'
  obtain rfl := Except.error.inj (he.symm.trans he')
  exact String.ofList_injective (hrest.symm.trans hrest')

theorem rules_eq_error (h : ¬∃ rs, Denotes line rs) :
    ∃ e rest, rules line = .error e ∧ Stops line rest ∧ e.rest = String.ofList rest := by
  obtain ⟨rest, hrest⟩ := (denotes_or_stops line).resolve_left h
  obtain ⟨e, he, hstop⟩ := rules_of_stops hrest
  exact ⟨e, rest, he, hrest, hstop⟩

/-- A line is read as the rules it denotes, one more than it has bars. A line that denotes nothing
is refused, and the message quotes the rest of it from the one place where it stops. -/
theorem rules_reads_denoted (line : List Char) :
    (∀ rs, rules line = .ok rs ↔ Denotes line rs) ∧
    (∀ name body is, Headed name body line → Body is body →
      ∃ rs, rules line = .ok rs ∧ rs.length = 1 + is.count .bar) ∧
    ((¬∃ rs, Denotes line rs) ↔ ∃ e rest, rules line = .error e ∧ rest <:+ line ∧
      (∀ rest', Stops line rest' ↔ rest' = rest) ∧
      e.message = e.expectation ++ " at `" ++ String.ofList rest ++ "`") := by
  refine ⟨fun rs => rules_eq_ok_iff, ?_, ?_, ?_⟩
  · intro name body is hhead hbody
    refine ⟨_, by rw [rules_of_headed hhead, items_of_body hbody]; rfl, ?_⟩
    rw [List.length_map, length_alternatives]
  · intro h
    obtain ⟨e, rest, he, hstops, hrest⟩ := rules_eq_error h
    refine ⟨e, rest, he, hstops.suffix, fun rest' => ⟨fun h' => h'.unique hstops, ?_⟩, ?_⟩
    · rintro rfl
      exact hstops
    · rw [LineError.message, hrest]
  · rintro ⟨e, rest, he, -⟩ ⟨rs, hrs⟩
    rw [rules_of_denotes hrs] at he
    cases he

/-- A name that takes the hyphen along, a bar and a number sign between marks, one mark between
marks of the other kind, and a bar with nothing after it but a comment. -/
theorem rules_reads_denoted_marks :
    ∃ body is, Headed ['S', '-'] body
        ['S', '-', ' ', '-', '>', 'A', '\'', '|', '#', '\'', '|', '"', '\'', '"', ' ', '|', '#'] ∧
      Body is body ∧ is.count .bar = 2 ∧
      ∃ rs, rules
        ['S', '-', ' ', '-', '>', 'A', '\'', '|', '#', '\'', '|', '"', '\'', '"', ' ', '|', '#'] =
          .ok rs ∧ rs.length = 3 := by
  have hhead : Headed ['S', '-']
      ['A', '\'', '|', '#', '\'', '|', '"', '\'', '"', ' ', '|', '#'] _ :=
    @Headed.intro [] _ [' '] _ nofun ⟨nofun, by simp; decide⟩ (endsRun_cons.2 (by decide))
      blanks_space
  have hbody : Body [.symbol (.nonterminal "A"), .symbol (.terminal "|#"), .bar,
      .symbol (.terminal "'"), .bar]
      ['A', '\'', '|', '#', '\'', '|', '"', '\'', '"', ' ', '|', '#'] :=
    items_eq_ok_iff.1 (by decide +kernel)
  exact ⟨_, _, hhead, hbody, by decide, (rules_reads_denoted _).2.1 _ _ _ hhead hbody⟩

end

end PhraseChart.Line
