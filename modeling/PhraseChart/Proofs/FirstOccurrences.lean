import Mathlib.Data.List.Induction
import Mathlib.Data.List.Nodup

namespace PhraseChart.FirstOccurrences

variable {α β : Type*} [BEq α] [LawfulBEq α] [BEq β] [LawfulBEq β]

theorem nodup_eraseDups (xs : List α) : xs.eraseDups.Nodup := by
  match xs with
  | [] => exact List.nodup_nil
  | x :: xs =>
    rw [List.eraseDups_cons, List.nodup_cons]
    refine ⟨?_, nodup_eraseDups _⟩
    intro hx
    simp at hx
termination_by xs.length
decreasing_by exact Nat.lt_succ_of_le (List.length_filter_le _ _)

/-- A flattened list has no repetition when each element gives a list without repetition and no two
elements give lists that meet. -/
theorem nodup_flatMap {α β : Type*} {f : α → List β} {xs : List α} (hxs : xs.Nodup)
    (hf : ∀ x ∈ xs, (f x).Nodup)
    (hmeet : ∀ x ∈ xs, ∀ y ∈ xs, ∀ z, z ∈ f x → z ∈ f y → x = y) : (xs.flatMap f).Nodup := by
  rw [List.nodup_flatMap]
  refine ⟨hf, hxs.pairwise_of_forall_ne ?_⟩
  intro x hx y hy hne z hzx hzy
  exact hne (hmeet x hx y hy z hzx hzy)

theorem removeAll_eq_nil {xs ys : List α} (h : ys ⊆ xs) : ys.removeAll xs = [] := by
  rw [List.removeAll, List.filter_eq_nil_iff]
  intro y hy
  simpa using h hy

theorem removeAll_congr {xs xs' : List α} (h : ∀ x, x ∈ xs ↔ x ∈ xs') (ys : List α) :
    ys.removeAll xs = ys.removeAll xs' := by
  apply List.filter_congr
  intro y _
  rw [Bool.eq_iff_iff]
  simpa using not_congr (h y)

theorem eraseDups_eq_self {xs : List α} (h : xs.Nodup) : xs.eraseDups = xs := by
  induction xs with
  | nil => rfl
  | cons x xs ih =>
    have hx := List.nodup_cons.1 h
    rw [List.eraseDups_cons, List.filter_eq_self.2, ih hx.2]
    intro y hy
    have hne : y ≠ x := fun e => hx.1 (e ▸ hy)
    simpa using hne

theorem eraseDups_append_of_subset {xs ys : List α} (h : ys ⊆ xs) :
    (xs ++ ys).eraseDups = xs.eraseDups := by
  rw [List.eraseDups_append, removeAll_eq_nil h, List.eraseDups_nil, List.append_nil]

/-- Leaving out repetitions early changes nothing. -/
theorem eraseDups_eraseDups_append (xs ys : List α) :
    (xs.eraseDups ++ ys).eraseDups = (xs ++ ys).eraseDups := by
  rw [List.eraseDups_append, List.eraseDups_append, eraseDups_eq_self (nodup_eraseDups xs),
    removeAll_congr fun _ => List.mem_eraseDups]

theorem eraseDups_concat (xs : List α) (x : α) :
    (xs ++ [x]).eraseDups = if x ∈ xs then xs.eraseDups else xs.eraseDups ++ [x] := by
  split
  · rename_i hx
    exact eraseDups_append_of_subset (List.cons_subset.2 ⟨hx, List.nil_subset _⟩)
  · rename_i hx
    have hnew : [x].removeAll xs = [x] := by simp [List.removeAll, hx]
    rw [List.eraseDups_append, hnew, eraseDups_eq_self (List.nodup_singleton x)]

theorem eraseDups_filter (p : α → Bool) (xs : List α) :
    (xs.filter p).eraseDups = xs.eraseDups.filter p := by
  induction xs using List.reverseRecOn with
  | nil => rfl
  | append_singleton xs x ih =>
    by_cases hp : p x
    · have hnew : [x].filter p = [x] := by simp [hp]
      rw [List.filter_append, hnew, eraseDups_concat, eraseDups_concat, ih]
      by_cases hx : x ∈ xs <;> simp [hx, hp]
    · have hnew : [x].filter p = [] := by simp [hp]
      rw [List.filter_append, hnew, List.append_nil, eraseDups_concat, ih]
      by_cases hx : x ∈ xs <;> simp [hx, hp]

/-- A function that tells the elements apart does not change which of them come first. -/
theorem eraseDups_map {f : α → β} {xs : List α} (hf : ∀ x ∈ xs, ∀ y ∈ xs, f x = f y → x = y) :
    (xs.map f).eraseDups = xs.eraseDups.map f := by
  induction xs using List.reverseRecOn with
  | nil => rfl
  | append_singleton xs x ih =>
    have hmem : f x ∈ xs.map f ↔ x ∈ xs := by
      constructor
      · intro h
        obtain ⟨y, hy, he⟩ := List.mem_map.1 h
        rwa [← hf y (by simp [hy]) x (by simp) he]
      · exact List.mem_map_of_mem
    have ih := ih fun y hy z hz => hf y (by simp [hy]) z (by simp [hz])
    rw [List.map_append, List.map_singleton, eraseDups_concat, eraseDups_concat, ih]
    by_cases hx : x ∈ xs
    · rw [if_pos hx, if_pos (hmem.2 hx)]
    · rw [if_neg hx, if_neg (mt hmem.1 hx), List.map_append, List.map_singleton]

theorem mem_iff_of_eraseDups_eq {xs ys : List α} (h : xs.eraseDups = ys.eraseDups) (x : α) :
    x ∈ xs ↔ x ∈ ys := by
  rw [← List.mem_eraseDups, h, List.mem_eraseDups]

theorem eraseDups_append_congr {xs xs' ys ys' : List α} (hx : xs.eraseDups = xs'.eraseDups)
    (hy : ys.eraseDups = ys'.eraseDups) : (xs ++ ys).eraseDups = (xs' ++ ys').eraseDups := by
  have hmem := mem_iff_of_eraseDups_eq hx
  rw [List.eraseDups_append, List.eraseDups_append, hx, removeAll_congr hmem, List.removeAll,
    List.removeAll, eraseDups_filter, eraseDups_filter, hy]

theorem eraseDups_flatMap_eraseDups (f : α → List β) (xs : List α) :
    (xs.eraseDups.flatMap f).eraseDups = (xs.flatMap f).eraseDups := by
  induction xs using List.reverseRecOn with
  | nil => rfl
  | append_singleton xs x ih =>
    rw [eraseDups_concat, List.flatMap_append, List.flatMap_singleton]
    split
    · rename_i hx
      have hsub : f x ⊆ xs.flatMap f := fun y hy => List.mem_flatMap.2 ⟨x, hx, hy⟩
      rw [eraseDups_append_of_subset hsub, ih]
    · rw [List.flatMap_append, List.flatMap_singleton, eraseDups_append_congr ih rfl]

/-- The first occurrences in a flattened list depend on first occurrences only. -/
theorem eraseDups_flatMap_congr {f g : α → List β} {xs ys : List α}
    (h : xs.eraseDups = ys.eraseDups) (hfg : ∀ x ∈ xs, (f x).eraseDups = (g x).eraseDups) :
    (xs.flatMap f).eraseDups = (ys.flatMap g).eraseDups := by
  have hpoint : (xs.flatMap f).eraseDups = (xs.flatMap g).eraseDups := by
    clear h
    induction xs with
    | nil => rfl
    | cons x xs ih =>
      exact eraseDups_append_congr (hfg x List.mem_cons_self)
        (ih fun y hy => hfg y (List.mem_cons_of_mem _ hy))
  rw [hpoint, ← eraseDups_flatMap_eraseDups, h, eraseDups_flatMap_eraseDups]

end PhraseChart.FirstOccurrences
