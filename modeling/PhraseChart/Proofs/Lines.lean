import PhraseChart.Text.Lines

namespace PhraseChart.Text

/-- A text that stays whole, and as it is, when a line feed is put after it. -/
structure IsLine (l : List Char) : Prop where
  no_feed : '\n' ∉ l
  no_return : l.getLast? ≠ some '\r'

namespace IsLine

variable {l m : List Char}

theorem nil : IsLine [] := ⟨List.not_mem_nil, nofun⟩

theorem of_forall (h : ∀ c ∈ l, c ≠ '\n' ∧ c ≠ '\r') : IsLine l :=
  ⟨fun hl => (h _ hl).1 rfl, fun hl => (h _ (List.mem_of_getLast? hl)).2 rfl⟩

theorem of_all (h : l.all (fun c => c != '\n' && c != '\r') = true) : IsLine l :=
  of_forall (by simpa using h)

theorem append (hl : IsLine l) (hm : IsLine m) : IsLine (l ++ m) := by
  constructor
  · rw [List.mem_append]
    exact not_or.2 ⟨hl.no_feed, hm.no_feed⟩
  · have hr := hm.no_return
    rw [List.getLast?_append]
    cases h : m.getLast? with
    | none => exact hl.no_return
    | some c => rwa [h] at hr

theorem flatMap {β : Type} {f : β → List Char} {bs : List β} (h : ∀ b ∈ bs, IsLine (f b)) :
    IsLine (bs.flatMap f) := by
  induction bs with
  | nil => exact nil
  | cons b bs ih =>
    rw [List.flatMap_cons]
    exact (h b List.mem_cons_self).append (ih fun d hd => h d (List.mem_cons_of_mem _ hd))

end IsLine

theorem lines_cons {c : Char} {cs : List Char} (hc : c ≠ '\n')
    (h : c = '\r' → ∀ rest, cs ≠ '\n' :: rest) :
    lines (c :: cs) = match lines cs with
      | [] => [[c]]
      | l :: ls => (c :: l) :: ls :=
  lines.eq_4 c cs hc fun rest hr => h hr rest

/-- A text without a line feed is put in front of the empty line that the rest begins with, unless a
carriage return and a line feed come together between the two. -/
theorem lines_append_of_lines_eq {l rest : List Char} {ls : List (List Char)} (h : '\n' ∉ l)
    (hrest : lines rest = [] :: ls)
    (hapart : l.getLast? = some '\r' → ∀ after, rest ≠ '\n' :: after) :
    lines (l ++ rest) = l :: ls := by
  induction l with
  | nil => exact hrest
  | cons c cs ih =>
    have hc : c ≠ '\n' := fun e => h (e ▸ List.mem_cons_self)
    have hcs : '\n' ∉ cs := List.not_mem_of_not_mem_cons h
    cases cs with
    | nil =>
      rw [List.cons_append, lines_cons hc, List.nil_append, hrest]
      rintro rfl
      exact hapart rfl
    | cons d ds =>
      have hd : d ≠ '\n' := fun e => hcs (e ▸ List.mem_cons_self)
      rw [List.getLast?_cons_cons] at hapart
      rw [List.cons_append, lines_cons hc, ih hcs hapart]
      exact fun _ after he => hd (List.cons.inj he).1

theorem lines_append_feed {l : List Char} (h : IsLine l) (rest : List Char) :
    lines (l ++ '\n' :: rest) = l :: lines rest := by
  refine lines_append_of_lines_eq h.no_feed ?_ fun hr => absurd hr h.no_return
  rw [lines]

theorem lines_append_return_feed {l : List Char} (h : '\n' ∉ l) (rest : List Char) :
    lines (l ++ '\r' :: '\n' :: rest) = l :: lines rest := by
  refine lines_append_of_lines_eq h ?_ fun _ after he => ?_
  · rw [lines]
  · exact absurd (List.cons.inj he).1 (by decide)

/-- The line that a line feed ends does not depend on what follows. -/
theorem exists_lines_append_feed {l : List Char} (h : '\n' ∉ l) :
    ∃ line, ∀ rest, lines (l ++ '\n' :: rest) = line :: lines rest := by
  by_cases hreturn : l.getLast? = some '\r'
  · obtain ⟨line, rfl⟩ := List.getLast?_eq_some_iff.1 hreturn
    refine ⟨line, fun rest => ?_⟩
    rw [List.append_assoc]
    exact lines_append_return_feed (fun hm => h (List.mem_append_left _ hm)) rest
  · exact ⟨l, lines_append_feed ⟨h, hreturn⟩⟩

theorem lines_of_not_mem {l : List Char} (h : '\n' ∉ l) : lines l = if l = [] then [] else [l] := by
  induction l with
  | nil => rfl
  | cons c cs ih =>
    have hc : c ≠ '\n' := fun e => h (e ▸ List.mem_cons_self)
    have hcs : '\n' ∉ cs := List.not_mem_of_not_mem_cons h
    have hfeed : ∀ rest, cs ≠ '\n' :: rest := by
      rintro rest rfl
      exact hcs List.mem_cons_self
    rw [lines_cons hc fun _ => hfeed, ih hcs]
    cases cs <;> rfl

/-- A text is taken line by line. -/
theorem lineInduction {α : Type} (feed : α) {P : List α → Prop}
    (last : ∀ line, feed ∉ line → P line)
    (line : ∀ line rest, feed ∉ line → P rest → P (line ++ feed :: rest)) (text : List α) :
    P text := by
  by_cases h : feed ∈ text
  · obtain ⟨front, rest, htext, hfront⟩ := List.eq_append_cons_of_mem h
    have hlength : rest.length < text.length := by
      rw [htext, List.length_append, List.length_cons]
      omega
    exact htext ▸ line front rest hfront (lineInduction feed last line rest)
  · exact last text h
termination_by text.length

/-- Behind a line feed a text has its own lines. Those before are one more than there are line feeds
before, for the last of them counts even if it is empty. -/
theorem lines_append {a : List Char} (ha : a.getLast? ≠ some '\r') :
    ∃ last, (∀ l ∈ last, l = []) ∧ (lines a ++ last).length = a.count '\n' + 1 ∧
      ∀ b, lines (a ++ '\n' :: b) = lines a ++ last ++ lines b := by
  induction a using lineInduction '\n' with
  | last line h =>
    rw [lines_of_not_mem h, List.count_eq_zero.2 h]
    have happ : ∀ b, lines (line ++ '\n' :: b) = line :: lines b := lines_append_feed ⟨h, ha⟩
    by_cases hline : line = []
    · subst hline
      exact ⟨[[]], by simp, rfl, happ⟩
    · rw [if_neg hline]
      exact ⟨[], by simp, rfl, happ⟩
  | line line rest h ih =>
    have hrest : rest.getLast? ≠ some '\r' := by
      intro hr
      rw [List.getLast?_append, List.getLast?_cons, hr] at ha
      exact ha rfl
    obtain ⟨first, hfirst⟩ := exists_lines_append_feed h
    obtain ⟨last, hlast, hlength, happ⟩ := ih hrest
    refine ⟨last, hlast, ?_, fun b => ?_⟩
    · rw [hfirst, List.count_append, List.count_eq_zero.2 h, List.count_cons_self, ← hlength]
      simp
    · rw [List.append_assoc, List.cons_append, hfirst, happ, hfirst]
      rfl

/-- The text with this in place of each line feed. -/
def replaceFeeds (mark s : List Char) : List Char :=
  s.flatMap fun c => if c = '\n' then mark else [c]

theorem replaceFeeds_append (mark s t : List Char) :
    replaceFeeds mark (s ++ t) = replaceFeeds mark s ++ replaceFeeds mark t := List.flatMap_append

theorem replaceFeeds_of_not_mem (mark : List Char) {l : List Char} (h : '\n' ∉ l) :
    replaceFeeds mark l = l := by
  induction l with
  | nil => rfl
  | cons c cs ih =>
    have hc : c ≠ '\n' := fun e => h (e ▸ List.mem_cons_self)
    rw [replaceFeeds, List.flatMap_cons, if_neg hc, ← replaceFeeds,
      ih (List.not_mem_of_not_mem_cons h), List.singleton_append]

theorem replaceFeeds_append_feed (mark : List Char) {l : List Char} (h : '\n' ∉ l)
    (rest : List Char) :
    replaceFeeds mark (l ++ '\n' :: rest) = l ++ (mark ++ replaceFeeds mark rest) := by
  rw [replaceFeeds_append, replaceFeeds_of_not_mem mark h]
  rfl

/-- Where a text ends within a line, a mark before each of its lines is one in front and one in
place of each line feed. -/
theorem flatMap_lines (mark : List Char) {s : List Char} (hreturn : '\r' ∉ s)
    (hlast : ∃ c, s.getLast? = some c ∧ c ≠ '\n') :
    (lines s).flatMap (mark ++ ·) = mark ++ replaceFeeds mark s := by
  induction s using lineInduction '\n' with
  | last line h =>
    obtain ⟨c, hc, -⟩ := hlast
    have hne : line ≠ [] := by
      rintro rfl
      cases hc
    rw [lines_of_not_mem h, if_neg hne, replaceFeeds_of_not_mem mark h, List.flatMap_singleton]
  | line line rest h ih =>
    rw [List.mem_append, List.mem_cons, not_or, not_or] at hreturn
    have hline : IsLine line := ⟨h, fun hr => hreturn.1 (List.mem_of_getLast? hr)⟩
    obtain ⟨c, hc, hfeed⟩ := hlast
    have hrest : rest.getLast? = some c := by
      rw [List.getLast?_append, List.getLast?_cons] at hc
      cases hr : rest.getLast? with
      | none =>
        -- the text would end with its line feed
        rw [hr] at hc
        exact absurd (Option.some.inj hc).symm hfeed
      | some d => rwa [hr] at hc
    rw [lines_append_feed hline, List.flatMap_cons, ih hreturn.2.2 ⟨c, hrest, hfeed⟩,
      replaceFeeds_append_feed mark h, List.append_assoc]

/-- The text with a carriage return before each line feed. -/
def withReturns (s : List Char) : List Char :=
  s.flatMap fun c => if c = '\n' then ['\r', '\n'] else [c]

theorem withReturns_of_not_mem {l : List Char} (h : '\n' ∉ l) : withReturns l = l :=
  replaceFeeds_of_not_mem _ h

theorem withReturns_append_feed {l : List Char} (h : '\n' ∉ l) (rest : List Char) :
    withReturns (l ++ '\n' :: rest) = l ++ '\r' :: '\n' :: withReturns rest :=
  replaceFeeds_append_feed _ h rest

theorem lines_withReturns {s : List Char} (h : '\r' ∉ s) : lines (withReturns s) = lines s := by
  induction s using lineInduction '\n' with
  | last line hline => rw [withReturns_of_not_mem hline]
  | line line rest hline ih =>
    rw [List.mem_append, List.mem_cons, not_or, not_or] at h
    have hreturn : line.getLast? ≠ some '\r' := fun hr => h.1 (List.mem_of_getLast? hr)
    rw [withReturns_append_feed hline, lines_append_return_feed hline, ih h.2.2,
      lines_append_feed ⟨hline, hreturn⟩]

theorem lines_flatMap_feed {β : Type} {f : β → List Char} {bs : List β}
    (h : ∀ b ∈ bs, IsLine (f b)) : lines (bs.flatMap fun b => f b ++ ['\n']) = bs.map f := by
  induction bs with
  | nil => rfl
  | cons b bs ih =>
    rw [List.flatMap_cons, List.append_assoc, List.singleton_append,
      lines_append_feed (h b List.mem_cons_self), ih fun d hd => h d (List.mem_cons_of_mem _ hd),
      List.map_cons]

/-- A line feed ends a line wherever it stands. -/
theorem not_mem_of_mem_lines {s l : List Char} (h : l ∈ lines s) : '\n' ∉ l := by
  fun_induction lines s generalizing l with
  | case1 => cases h
  | case2 cs ih =>
    rcases List.mem_cons.1 h with rfl | h
    · exact List.not_mem_nil
    · exact ih h
  | case3 cs ih =>
    rcases List.mem_cons.1 h with rfl | h
    · exact List.not_mem_nil
    · exact ih h
  | case4 c cs hc _ _ _ =>
    rw [List.mem_singleton.1 h, List.mem_singleton]
    exact fun e => hc e.symm
  | case5 c cs hc _ l' ls hcons ih =>
    rw [hcons] at ih
    rcases List.mem_cons.1 h with rfl | h
    · rw [List.mem_cons]
      exact not_or.2 ⟨fun e => hc e.symm, ih List.mem_cons_self⟩
    · exact ih (List.mem_cons_of_mem _ h)

end PhraseChart.Text
