import Mathlib
import PhraseChart.Proofs.Reporting
import PhraseChart.Proofs.Runs

namespace PhraseChart
open Text

/-- The field in which an event has its span. -/
def spanField (start stop : Nat) : String × String :=
  ("span", "(" ++ toString start ++ ", " ++ toString stop ++ ")")

theorem spanField_inj {i k i' k' : Nat} : spanField i k = spanField i' k' ↔ i = i' ∧ k = k' := by
  refine ⟨fun h => ?_, fun ⟨hi, hk⟩ => by rw [hi, hk]⟩
  have htext := congrArg String.toList (Prod.mk.inj h).2
  simp only [String.toList_append, List.append_assoc] at htext
  have hbehind := List.append_cancel_left htext
  -- no digit is a comma, so the first number is as long as its digits
  have hcomma : ∀ rest, EndsRun Char.isDigit (", ".toList ++ rest) := fun _ => endsRun_cons.2 rfl
  have hdigits : ∀ n : Nat, ∀ c ∈ (toString n).toList, c.isDigit = true :=
    fun _ _ hc => isDigit_of_mem_toString hc
  have hstart := congrArg (List.takeWhile Char.isDigit) hbehind
  rw [takeWhile_run (hdigits i) (hcomma _), takeWhile_run (hdigits i') (hcomma _)] at hstart
  rw [hstart] at hbehind
  have hstop := List.append_cancel_right (List.append_cancel_left (List.append_cancel_left hbehind))
  exact ⟨Nat.repr_inj.1 (String.toList_inj.1 hstart), Nat.repr_inj.1 (String.toList_inj.1 hstop)⟩

namespace Step

/-- A unary rule is tried on a label, whether or not its head is on the chain. -/
def triesUnary : Step → Bool
  | unary _ _ | unaryCycle _ _ => true
  | _ => false

/-- A label is brought into the cell. -/
def bringsLabel : Step → Bool
  | unaryCycle _ _ => false
  | _ => true

/-- A binary rule is used at this cut. -/
def joinsAt (middle : Nat) : Step → Bool
  | binary m _ _ _ => m == middle
  | _ => false

end Step

namespace Event

/-- The event has this message and these fields among its fields. -/
def shows (e : Event) (message : String) (fields : List (String × String)) : Bool :=
  e.message == message && fields.all fun field => e.fields.contains field

section
variable {e : Event} {span : Span} {step : Step} {i m k : Nat}

theorem shows_iff {message : String} {fields : List (String × String)} :
    e.shows message fields = true ↔
      e.message = message ∧ ∀ field ∈ fields, field ∈ e.fields := by
  simp [shows]

/-- No other event has the message of a step. -/
theorem message_eq_iff {message : String}
    (h : message ∈ ["seed", "unary", "unary cycle skipped", "binary"]) :
    e.message = message ↔ ∃ span step, e = .cellStep span step ∧ step.message = message := by
  constructor
  · rintro rfl
    cases e with
    | cellStep span step => exact ⟨span, step, rfl, rfl⟩
    | _ => simp [Event.message] at h
  · rintro ⟨span, step, rfl, rfl⟩
    rfl

theorem spanField_mem_fields (h : step.message ≠ "binary") :
    spanField i k ∈ step.fields span ↔ span = ⟨i, k⟩ := by
  obtain ⟨start, stop⟩ := span
  have hpair : ("span", Step.fields.pair ⟨start, stop⟩) = spanField start stop := rfl
  have hother : ∀ name text, name ≠ "span" → spanField i k ≠ (name, text) :=
    fun name text hne he => hne (Prod.mk.inj he).1.symm
  cases step with
  | binary _ _ _ _ => exact absurd rfl h
  | _ => simp [Step.fields, hpair, hother, spanField_inj, eq_comm]

/-- The events of some message that have a certain span are the steps for it. -/
theorem shows_span_iff {message : String}
    (h : message ∈ ["seed", "unary", "unary cycle skipped"]) :
    e.shows message [spanField i k] = true ↔
      ∃ step, e = .cellStep ⟨i, k⟩ step ∧ step.message = message := by
  have hbinary : message ≠ "binary" := by
    rintro rfl
    simp at h
  rw [shows_iff, message_eq_iff (List.mem_append_left ["binary"] h), List.forall_mem_singleton]
  constructor
  · rintro ⟨⟨span, step, rfl, hmessage⟩, hfield⟩
    rw [fields, spanField_mem_fields (hmessage ▸ hbinary)] at hfield
    exact ⟨step, by rw [hfield], hmessage⟩
  · rintro ⟨step, rfl, hmessage⟩
    exact ⟨⟨_, step, rfl, hmessage⟩, (spanField_mem_fields (hmessage ▸ hbinary)).2 rfl⟩

theorem message_eq_binary_iff : step.message = "binary" ↔
    ∃ middle parent left right, step = .binary middle parent left right := by
  cases step <;> simp [Step.message]

section
variable {middle : Nat} {parent : String} {left right : Symbol}

theorem start_mem_fields_binary :
    ("start", toString i) ∈ Step.fields span (.binary middle parent left right) ↔
      span.start = i := by
  simp [Step.fields, eq_comm]

theorem mid_mem_fields_binary :
    ("mid", toString m) ∈ Step.fields span (.binary middle parent left right) ↔ middle = m := by
  simp [Step.fields, eq_comm]

theorem end_mem_fields_binary :
    ("end", toString k) ∈ Step.fields span (.binary middle parent left right) ↔
      span.stop = k := by
  simp [Step.fields, eq_comm]

end

theorem shows_binary_fields_iff {fields : List (String × String)} :
    e.shows "binary" fields = true ↔ ∃ span middle parent left right,
      e = .cellStep span (.binary middle parent left right) ∧
        ∀ field ∈ fields, field ∈ Step.fields span (.binary middle parent left right) := by
  rw [shows_iff, message_eq_iff (by decide)]
  constructor
  · rintro ⟨⟨span, step, rfl, hmessage⟩, hfields⟩
    obtain ⟨middle, parent, left, right, rfl⟩ := message_eq_binary_iff.1 hmessage
    exact ⟨span, middle, parent, left, right, rfl, hfields⟩
  · rintro ⟨span, middle, parent, left, right, rfl, hfields⟩
    exact ⟨⟨_, _, rfl, rfl⟩, hfields⟩

theorem shows_binary_iff :
    e.shows "binary" [("start", toString i), ("end", toString k)] = true ↔
      ∃ step, e = .cellStep ⟨i, k⟩ step ∧ step.message = "binary" := by
  simp only [shows_binary_fields_iff, List.forall_mem_cons, start_mem_fields_binary,
    end_mem_fields_binary]
  constructor
  · rintro ⟨_, middle, parent, left, right, rfl, rfl, rfl, -⟩
    exact ⟨_, rfl, rfl⟩
  · rintro ⟨step, rfl, hmessage⟩
    obtain ⟨middle, parent, left, right, rfl⟩ := message_eq_binary_iff.1 hmessage
    exact ⟨_, _, _, _, _, rfl, rfl, rfl, nofun⟩

theorem shows_binaryAt_iff :
    e.shows "binary" [("start", toString i), ("mid", toString m), ("end", toString k)] = true ↔
      ∃ step, e = .cellStep ⟨i, k⟩ step ∧ step.joinsAt m = true := by
  simp only [shows_binary_fields_iff, List.forall_mem_cons, start_mem_fields_binary,
    mid_mem_fields_binary, end_mem_fields_binary]
  constructor
  · rintro ⟨_, middle, parent, left, right, rfl, rfl, rfl, rfl, -⟩
    exact ⟨_, rfl, beq_self_eq_true middle⟩
  · rintro ⟨step, rfl, hjoins⟩
    cases step with
    | binary middle parent left right =>
      exact ⟨_, _, _, _, _, rfl, rfl, eq_of_beq hjoins, rfl, nofun⟩
    | _ => cases hjoins

theorem stepAt?_eq_some_iff : e.stepAt? span = some step ↔ e = .cellStep span step := by
  unfold stepAt?
  split
  · split
    · rename_i h
      simp [h]
    · rename_i h
      simp [h]
  · simp_all

end

/-- Events that can be told to be steps of some kind for a span are counted among these steps. -/
theorem countP_eq_countP_steps {span : Span} {q : Event → Bool} {r : Step → Bool}
    (h : ∀ e, q e = true ↔ ∃ step, e = .cellStep span step ∧ r step = true)
    (events : List Event) : events.countP q = (events.filterMap (stepAt? span)).countP r := by
  rw [List.countP_filterMap]
  apply List.countP_congr
  intro e _
  rw [h e]
  cases hstep : e.stepAt? span with
  | none =>
    refine iff_of_false ?_ Bool.false_ne_true
    rintro ⟨step, rfl, -⟩
    rw [stepAt?_eq_some_iff.2 rfl] at hstep
    cases hstep
  | some step =>
    obtain rfl := stepAt?_eq_some_iff.1 hstep
    simp

theorem shows_tries_iff {e : Event} {i k : Nat} :
    (e.shows "unary" [spanField i k] || e.shows "unary cycle skipped" [spanField i k]) = true ↔
      ∃ step, e = .cellStep ⟨i, k⟩ step ∧ step.triesUnary = true := by
  have htries : ∀ step : Step, step.triesUnary = true ↔
      step.message = "unary" ∨ step.message = "unary cycle skipped" := by
    intro step
    cases step <;> simp [Step.triesUnary, Step.message]
  rw [Bool.or_eq_true, shows_span_iff (by decide), shows_span_iff (by decide), ← exists_or]
  simp only [htries, ← and_or_left]

theorem shows_brings_iff {e : Event} {i k : Nat} :
    (e.shows "seed" [spanField i k] ||
        e.shows "binary" [("start", toString i), ("end", toString k)] ||
        e.shows "unary" [spanField i k]) = true ↔
      ∃ step, e = .cellStep ⟨i, k⟩ step ∧ step.bringsLabel = true := by
  have hbrings : ∀ step : Step, step.bringsLabel = true ↔
      (step.message = "seed" ∨ step.message = "binary") ∨ step.message = "unary" := by
    intro step
    cases step <;> simp [Step.bringsLabel, Step.message]
  rw [Bool.or_eq_true, Bool.or_eq_true, shows_span_iff (by decide), shows_binary_iff,
    shows_span_iff (by decide), ← exists_or, ← exists_or]
  simp only [hbrings, ← and_or_left]

theorem seed?_eq_none (e : Event) (h : e.message ≠ "seed") : e.seed? = none := by
  cases e with
  | cellStep span step =>
    cases step with
    | seed token => exact absurd rfl h
    | _ => rfl
  | _ => rfl

/-- What is put in is reported with its place and its token. -/
theorem map_fields_seed (events : List Event) :
    (events.filter fun e => e.message == "seed").map fields =
      (events.filterMap seed?).map fun s => [spanField s.1.start s.1.stop, ("token", s.2)] := by
  induction events with
  | nil => rfl
  | cons e events ih =>
    by_cases he : e.message = "seed"
    · obtain ⟨span, step, rfl, hmessage⟩ := (message_eq_iff (by decide)).1 he
      cases step with
      | seed token =>
        have hseed : seed? (.cellStep span (.seed token)) = some (span, token) := rfl
        rw [List.filter_cons, if_pos (beq_iff_eq.2 he), List.filterMap_cons_some hseed,
          List.map_cons, List.map_cons, ih]
        rfl
      | _ => simp [Step.message] at hmessage
    · rw [List.filter_cons, if_neg (mt beq_iff_eq.1 he),
        List.filterMap_cons_none (seed?_eq_none e he), ih]

end Event

end PhraseChart
