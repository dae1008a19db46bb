import PhraseChart.Proofs.Saturation
import PhraseChart.Proofs.Triangle

namespace PhraseChart
open Relation

namespace Chart

/-- What would break off a fill: a cell that is made or asked for where there is none, a place
outside of its row, or a difference below zero. -/
inductive Fault where
  | cell (error : SpanError)
  | place (place size : Nat)
  | difference (n k : Nat)
deriving DecidableEq, Repr

def difference? (n k : Nat) : Except Fault Nat :=
  if k ≤ n then .ok (n - k) else .error (.difference n k)

def entry? {α : Type} (xs : Array α) (place : Nat) : Except Fault α :=
  match xs[place]? with
  | some x => .ok x
  | none => .error (.place place xs.size)

/-- The numbers from the first on that are below the second. -/
def upTo (first bound : Nat) : List Nat := List.range' first (bound - first)

def blank? (n : Nat) : Except Fault Chart := do
  let rows ← (upTo 0 n).mapM fun start =>
    (upTo (start + 1) (n + 1)).mapM fun stop => (Cell.blank? ⟨start, stop⟩).mapError .cell
  return ⟨n, (rows.map List.toArray).toArray⟩

def cell? (c : Chart) (span : Span) : Except Fault Cell :=
  if Covers c.size span then do
    let row ← entry? c.rows span.start
    let length ← difference? span.stop span.start
    entry? row (← difference? length 1)
  else .error (.cell (.outside span))

def update? (c : Chart) (span : Span) (f : Cell → Cell) : Except Fault Chart := do
  let _ ← c.cell? span
  return c.update span f

def top? (c : Chart) : Except Fault (Option Cell) :=
  if c.isEmpty then return none else return some (← c.cell? ⟨0, c.size⟩)

def seed? (ix : Index) (c : Chart) (token : String) (position : Nat) : Except Fault Chart :=
  c.update? ⟨position, position + 1⟩ fun cell =>
    (cell.note (.seed token)).add ix (.ofToken token)

def combine? (ix : Index) (c : Chart) (s : Split) : Except Fault Chart := do
  -- the right side is asked for even if the left one has no labels to go with it
  let left ← c.cell? s.left
  let right ← c.cell? s.right
  c.update? s.whole (Cell.addJoins ix s.middle (Join.all ix left right))

/-- All cuts of all stretches of two or more of the tokens, loop by loop. -/
def combineAll? (ix : Index) (n : Nat) (c : Chart) : Except Fault Chart :=
  (upTo 2 (n + 1)).foldlM (fun c length => do
    let last ← difference? n length
    (upTo 0 (last + 1)).foldlM (fun c start =>
      (upTo (start + 1) (start + length)).foldlM (fun c middle =>
        c.combine? ix ⟨start, middle, start + length⟩) c) c) c

/-- The fill; when it is done the top is asked for. -/
def fill? (ix : Index) (tokens : List String) : Except Fault Chart := do
  let c ← blank? tokens.length
  let c ← tokens.zipIdx.foldlM (fun c t => c.seed? ix t.1 t.2) c
  let c ← combineAll? ix c.size c
  let _ ← c.top?
  return c

theorem ok_bind {α β ε : Type} (a : α) (f : α → Except ε β) : (Except.ok a >>= f) = f a := rfl

theorem mapM_eq_ok {α β ε : Type} {f : α → Except ε β} {g : α → β} {xs : List α}
    (h : ∀ x ∈ xs, f x = .ok (g x)) : xs.mapM f = .ok (xs.map g) := by
  induction xs with
  | nil => rfl
  | cons x xs ih =>
    rw [List.mapM_cons, h x List.mem_cons_self, ih fun y hy => h y (List.mem_cons_of_mem _ hy)]
    rfl

/-- A loop that may fail does not fail as long as what it keeps saves each round from failing. -/
theorem foldlM_eq_ok {α β ε : Type} {P : β → Prop} {f : β → α → Except ε β} {g : β → α → β}
    {xs : List α} (h : ∀ x ∈ xs, ∀ b, P b → f b x = .ok (g b x) ∧ P (g b x)) {b : β} (hb : P b) :
    xs.foldlM f b = .ok (xs.foldl g b) ∧ P (xs.foldl g b) := by
  induction xs generalizing b with
  | nil => exact ⟨rfl, hb⟩
  | cons x xs ih =>
    obtain ⟨hok, hnext⟩ := h x List.mem_cons_self b hb
    rw [List.foldlM_cons, hok]
    exact ih (fun y hy => h y (List.mem_cons_of_mem _ hy)) hnext

theorem mem_upTo {first bound k : Nat} : k ∈ upTo first bound ↔ first ≤ k ∧ k < bound := by
  rw [upTo, List.mem_range'_1]
  omega

theorem difference?_of_le {n k : Nat} (h : k ≤ n) : difference? n k = .ok (n - k) := if_pos h

theorem blank?_eq (n : Nat) : blank? n = .ok (blank n) := by
  have hcell : ∀ start, ∀ stop ∈ upTo (start + 1) (n + 1),
      (Cell.blank? ⟨start, stop⟩).mapError Fault.cell = .ok { span := ⟨start, stop⟩ } := by
    intro start stop hstop
    have hblank : Cell.blank? ⟨start, stop⟩ = .ok { span := ⟨start, stop⟩ } :=
      if_pos (mem_upTo.1 hstop).1
    rw [hblank]
    rfl
  have hrow : ∀ start, (upTo (start + 1) (n + 1)).map (fun stop => Cell.mk ⟨start, stop⟩ #[] #[]) =
      (blankRow n start).toList := by
    intro start
    simp [upTo, blankRow, List.range'_eq_map_range, Nat.add_right_comm]
  have hrows : (((upTo 0 n).map fun start => (blankRow n start).toList).map List.toArray).toArray =
      (blank n).rows := by
    simp [upTo, blank, ← List.range_eq_range', ← List.toArray_range, Function.comp_def]
  rw [blank?, mapM_eq_ok fun start _ => mapM_eq_ok (hcell start), ok_bind]
  simp only [hrow]
  rw [hrows]
  rfl

/-- What is found without the checks is found with them. -/
theorem cell?_of_cell {c : Chart} {span : Span} {cell : Cell} (h : c.cell span = .ok cell) :
    c.cell? span = .ok cell := by
  obtain ⟨hspan, hplace⟩ := cell_eq_ok_iff.1 h
  obtain ⟨row, hrow, hcell⟩ := Option.bind_eq_some_iff.1 hplace
  have hlength : 1 ≤ span.stop - span.start := Nat.sub_pos_of_lt hspan.1
  rw [cell?, if_pos hspan, entry?, hrow, ok_bind, difference?_of_le (Nat.le_of_lt hspan.1), ok_bind,
    difference?_of_le hlength, ok_bind, entry?, hcell]

namespace Aligned

variable {n : Nat} {c : Chart} {ix : Index}

theorem update?_eq (h : Aligned n c) {span : Span} (hspan : Covers n span) (f : Cell → Cell) :
    c.update? span f = .ok (c.update span f) := by
  obtain ⟨cell, hcell⟩ := h.exists_cell hspan
  rw [update?, cell?_of_cell hcell]
  rfl

theorem top?_eq (h : Aligned n c) : c.top? = .ok c.top := by
  by_cases hsize : c.size = 0
  · have hempty : c.isEmpty = true := by simp [isEmpty, hsize]
    have hnone : ¬Covers c.size ⟨0, c.size⟩ := fun hwhole => Nat.ne_of_gt hwhole.1 hsize
    rw [top?, if_pos hempty, top, cell_of_not_covers hnone]
    rfl
  · have hempty : ¬c.isEmpty = true := by simp [isEmpty, hsize]
    have hwhole : Covers n ⟨0, c.size⟩ := ⟨Nat.pos_of_ne_zero hsize, Nat.le_of_eq h.size⟩
    obtain ⟨cell, hcell⟩ := h.exists_cell hwhole
    rw [top?, if_neg hempty, cell?_of_cell hcell, top, hcell]
    rfl

theorem seed?_eq (h : Aligned n c) (token : String) {k : Nat} (hk : k < n) :
    c.seed? ix token k = .ok (c.seed ix token k) := by
  have hspan : Covers n ⟨k, k + 1⟩ := ⟨Nat.lt_succ_self k, hk⟩
  exact h.update?_eq hspan _

theorem combine?_eq (h : Aligned n c) {s : Split} (hleft : s.start < s.middle)
    (hright : s.middle < s.stop) (hstop : s.stop ≤ n) :
    c.combine? ix s = .ok (c.combine ix s) := by
  have hleft' : Covers n s.left := ⟨hleft, Nat.le_trans (Nat.le_of_lt hright) hstop⟩
  have hright' : Covers n s.right := ⟨hright, hstop⟩
  have hwhole : Covers n s.whole := ⟨Nat.lt_trans hleft hright, hstop⟩
  obtain ⟨left, hl⟩ := h.exists_cell hleft'
  obtain ⟨right, hr⟩ := h.exists_cell hright'
  rw [combine?, cell?_of_cell hl, cell?_of_cell hr, combine_of_cells hl hr]
  exact h.update?_eq hwhole _

end Aligned

theorem splits_eq_upTo (n : Nat) : splits n = (upTo 2 (n + 1)).flatMap fun length =>
    (upTo 0 (n - length + 1)).flatMap fun start =>
      (upTo (start + 1) (start + length)).map fun middle => ⟨start, middle, start + length⟩ := by
  have hlengths : upTo 2 (n + 1) = List.range' 2 (n - 1) := rfl
  rw [splits, hlengths]
  apply List.flatMap_congr
  intro length hlength
  rw [List.mem_range'_1] at hlength
  have hstarts : upTo 0 (n - length + 1) = List.range (n + 1 - length) := by
    rw [upTo, List.range_eq_range', Nat.sub_zero, Nat.sub_add_comm (by omega)]
  rw [hstarts]
  apply List.flatMap_congr
  intro start _
  rw [splitsOf, upTo, Nat.add_sub_add_left]

theorem combineAll?_eq {n : Nat} {c : Chart} (ix : Index) (h : Aligned n c) :
    combineAll? ix n c = .ok ((splits n).foldl (combine ix) c) ∧
      Aligned n ((splits n).foldl (combine ix) c) := by
  simp only [splits_eq_upTo, List.foldl_flatMap, List.foldl_map]
  refine foldlM_eq_ok (fun length hlength c hc => ?_) h
  have hle : length ≤ n := Nat.le_of_lt_succ (mem_upTo.1 hlength).2
  rw [difference?_of_le hle]
  refine foldlM_eq_ok (fun start hstart c hc => ?_) hc
  have hstop : start + length ≤ n := by
    have := (mem_upTo.1 hstart).2
    omega
  refine foldlM_eq_ok (fun middle hmiddle c hc => ?_) hc
  obtain ⟨hleft, hright⟩ := mem_upTo.1 hmiddle
  exact ⟨hc.combine?_eq hleft hright hstop, hc.edits (edits_combine ix c _)⟩

theorem fill?_eq (ix : Index) (tokens : List String) : fill? ix tokens = .ok (fill ix tokens) := by
  have hseeds : ∀ t ∈ tokens.zipIdx, ∀ c, Aligned tokens.length c →
      c.seed? ix t.1 t.2 = .ok (c.seed ix t.1 t.2) ∧ Aligned tokens.length (c.seed ix t.1 t.2) := by
    intro t ht c hc
    exact ⟨hc.seed?_eq t.1 (List.snd_lt_of_mem_zipIdx ht), hc.edits (edits_seed ix c t.1 t.2)⟩
  obtain ⟨hok, hseeded⟩ := foldlM_eq_ok hseeds (aligned_blank tokens.length)
  change _ = Except.ok (seeded ix tokens) at hok
  change Aligned tokens.length (seeded ix tokens) at hseeded
  obtain ⟨hloops, hfilled⟩ := combineAll?_eq ix hseeded
  change _ = Except.ok (fill ix tokens) at hloops
  change Aligned tokens.length (fill ix tokens) at hfilled
  rw [fill?, blank?_eq, ok_bind, hok, ok_bind, hseeded.size, hloops, ok_bind, hfilled.top?_eq,
    ok_bind]
  rfl

/-- A blank chart is made without a fault, and it is triangular. So is every chart that comes of it
by edits of its cells, among them the charts after any number of tokens and of cuts. The fill with
all its checks ends without a fault and gives the chart of the fill. -/
theorem fill_stays_triangular (ix : Index) (tokens : List String) :
    (∀ n, blank? n = .ok (blank n) ∧ Triangular n (blank n)) ∧
    (∀ n c, ReflTransGen Edit (blank n) c → Triangular n c) ∧
    (∀ k, ReflTransGen Edit (blank tokens.length)
      ((tokens.zipIdx.take k).foldl (fun c t => c.seed ix t.1 t.2) (blank tokens.length))) ∧
    (∀ k, ReflTransGen Edit (blank tokens.length)
      (afterSplits ix tokens ((splits tokens.length).take k))) ∧
    fill? ix tokens = .ok (fill ix tokens) := by
  have hseeds : ∀ ts : List (String × Nat), ReflTransGen Edit (blank tokens.length)
      (ts.foldl (fun c t => c.seed ix t.1 t.2) (blank tokens.length)) :=
    fun ts => reflTransGen_foldl (fun t _ c => edits_seed ix c t.1 t.2) _
  refine ⟨fun n => ⟨blank?_eq n, (aligned_blank n).triangular⟩,
    fun n c hc => ((aligned_blank n).edits hc).triangular, fun k => hseeds _, fun k => ?_,
    fill?_eq ix tokens⟩
  exact (hseeds tokens.zipIdx).trans (reflTransGen_foldl (fun s _ c => edits_combine ix c s) _)

/-- Between the tokens and the only cut the cell of the whole has no labels, and it is in its
place. -/
theorem fill_stays_triangular_looped :
    ReflTransGen Edit (blank 2) (seeded Parser.looped.index ["x", "x"]) ∧
      Triangular 2 (seeded Parser.looped.index ["x", "x"]) ∧
      (seeded Parser.looped.index ["x", "x"]).cells.map (fun cell => (cell.span, cell.size)) =
        [(⟨0, 1⟩, 3), (⟨0, 2⟩, 0), (⟨1, 2⟩, 3)] ∧
      Triangular 2 (fill Parser.looped.index ["x", "x"]) ∧
      (fill Parser.looped.index ["x", "x"]).cells.map (fun cell => (cell.span, cell.size)) =
        [(⟨0, 1⟩, 3), (⟨0, 2⟩, 2), (⟨1, 2⟩, 3)] ∧
      fill? Parser.looped.index ["x", "x"] = .ok (fill Parser.looped.index ["x", "x"]) := by
  obtain ⟨-, htriangular, hseeds, hcuts, hfill⟩ :=
    fill_stays_triangular Parser.looped.index ["x", "x"]
  exact ⟨hseeds 2, htriangular 2 _ (hseeds 2), by decide +kernel, htriangular 2 _ (hcuts 1),
    by decide +kernel, hfill⟩

end Chart

end PhraseChart
