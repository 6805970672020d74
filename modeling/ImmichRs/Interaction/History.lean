import ImmichRs.Interaction.Program
import Mathlib.Data.List.Induction

/-!
# Histories

A rule about what may follow what: every item of a list is judged by the items before it.  Rules
which stay true when the past grows longer hold of a concatenation when they hold of its parts.  A
program keeps a rule when each of its requests is allowed by the events before it.
-/

namespace Interaction

variable {ε : Type}

/-- Every item of a list is allowed by `rule` after the items before it. -/
def Throughout (rule : List ε → ε → Prop) (items : List ε) : Prop :=
  ∀ before item after, items = before ++ item :: after → rule before item

/-- A rule which stays true when the past grows longer. -/
def Extendable (rule : List ε → ε → Prop) : Prop :=
  ∀ first before item, rule before item → rule (first ++ before) item

theorem throughout_nil (rule : List ε → ε → Prop) : Throughout rule [] := by
  rintro before item after split
  simp at split

theorem Throughout.append {rule : List ε → ε → Prop} (extendable : Extendable rule)
    {first second : List ε} (left : Throughout rule first) (right : Throughout rule second) :
    Throughout rule (first ++ second) := by
  intro before item after split
  rcases List.append_eq_append_iff.mp split with ⟨middle, rfl, rest⟩ | ⟨middle, rfl, rest⟩
  · exact extendable first middle item (right middle item after rest)
  · cases middle with
    | nil =>
        have allowed := right [] item after rest.symm
        simpa using extendable before [] item allowed
    | cons head middle =>
        obtain ⟨rfl, _⟩ := List.cons.inj rest
        exact left before _ middle rfl

/-- One more item, judged by everything before it. -/
theorem Throughout.concat {rule : List ε → ε → Prop} {items : List ε} {item : ε}
    (earlier : Throughout rule items) (last : rule items item) :
    Throughout rule (items ++ [item]) := by
  intro before other after split
  rcases List.append_eq_append_iff.mp split with ⟨middle, rfl, rest⟩ | ⟨middle, rfl, rest⟩
  · cases middle with
    | nil =>
        cases rest
        simpa using last
    | cons head middle => simp at rest
  · cases middle with
    | nil =>
        cases rest
        simpa using last
    | cons head middle =>
        obtain ⟨rfl, _⟩ := List.cons.inj rest
        exact earlier before _ middle rfl

/-- An item before all others, which are judged with it in their past. -/
theorem throughout_cons {rule : List ε → ε → Prop} {item : ε} {items : List ε}
    (first : rule [] item) (later : Throughout (fun past => rule (item :: past)) items) :
    Throughout rule (item :: items) := by
  intro before other after split
  cases before with
  | nil =>
      obtain ⟨rfl, _⟩ := List.cons.inj split
      exact first
  | cons head before =>
      obtain ⟨rfl, rest⟩ := List.cons.inj split
      exact later before other after rest

/-- Rules hold of every beginning of a list. -/
theorem Throughout.of_append {rule : List ε → ε → Prop} {first second : List ε}
    (whole : Throughout rule (first ++ second)) : Throughout rule first := by
  rintro before item after rfl
  exact whole before item (after ++ second) (by simp)

theorem throughout_singleton {rule : List ε → ε → Prop} {item : ε} (allowed : rule [] item) :
    Throughout rule [item] :=
  (throughout_nil rule).concat allowed

/-- A rule about images is a rule about the items. -/
theorem Throughout.of_map {δ : Type} {rule : List δ → δ → Prop} {image : ε → δ} {items : List ε}
    (images : Throughout rule (items.map image)) :
    Throughout (fun past item => rule (past.map image) (image item)) items := by
  rintro before item after rfl
  exact images (before.map image) (image item) (after.map image) (by simp)

/-- Items which exclude earlier items of their kind come once. -/
theorem Throughout.length_filter_le_one {kind : ε → Bool} {items : List ε}
    (single : Throughout (fun past item => kind item = true → ∀ earlier ∈ past,
      kind earlier = false) items) : (items.filter kind).length ≤ 1 := by
  induction items using List.reverseRecOn with
  | nil => exact Nat.zero_le 1
  | append_singleton items item induction =>
      rw [List.filter_append, List.length_append]
      by_cases found : kind item = true
      · have absent : items.filter kind = [] := by
          rw [List.filter_eq_nil_iff]
          intro earlier member
          simp [single items item [] rfl found earlier member]
        rw [absent, List.filter_cons_of_pos found]
        simp
      · rw [List.filter_cons_of_neg found, List.filter_nil]
        exact induction single.of_append

/-! ## The last item of a kind -/

/-- The last item which satisfies a test. -/
def latest (holds : ε → Bool) (items : List ε) : Option ε :=
  (items.filter holds).getLast?

theorem latest_concat (holds : ε → Bool) (items : List ε) (item : ε) :
    latest holds (items ++ [item]) = if holds item then some item else latest holds items := by
  rw [latest, List.filter_append, latest]
  split
  · rename_i found
    rw [List.filter_cons_of_pos found, List.filter_nil, List.getLast?_concat]
  · rename_i other
    rw [List.filter_cons_of_neg other, List.filter_nil, List.append_nil]

/-! ## Programs which keep a rule -/

variable {Call : Type} {Answer : Call → Type} {α World : Type}

/-- The environment whose world is the list of events so far. -/
def recording : Environment Answer (List (Event Answer)) :=
  fun before event after => after = before ++ [event]

/-- The recorded past only grows. -/
theorem Program.Ensures.recorded {program : Program Answer α}
    {safe : List (Event Answer) → Event Answer → List (Event Answer) → Prop}
    {past : List (Event Answer)} {post : α → List (Event Answer) → Prop}
    (ensures : program.Ensures recording safe past post) :
    program.Ensures recording (fun before event after => past <+: before ∧ safe before event after)
      past fun value after => past <+: after ∧ post value after := by
  induction program generalizing past with
  | done value => exact ⟨List.prefix_refl _, ensures⟩
  | request call next induction =>
      rintro answer _ rfl
      obtain ⟨allowed, rest⟩ := ensures answer _ rfl
      have grown : past <+: past ++ [⟨call, answer⟩] := List.prefix_append _ _
      refine ⟨⟨List.prefix_refl _, allowed⟩, (induction answer rest).mono ?_ ?_⟩
      · exact fun _ _ _ reached => ⟨grown.trans reached.1, reached.2⟩
      · exact fun _ _ reached => ⟨grown.trans reached.1, reached.2⟩

/-- What a program guarantees of every event, given the events before it, holds of all its
executions, finished or not. -/
theorem Execution.keeps {environment : Environment Answer World} {program final : Program Answer α}
    {before after : World} {events : List (Event Answer)}
    {rule : List (Event Answer) → Event Answer → Prop} {past : List (Event Answer)}
    {post : α → List (Event Answer) → Prop}
    (execution : Execution environment program before events final after)
    (guarantee : program.Ensures recording (fun past event _ => rule past event) past post) :
    (∀ front event back, events = front ++ event :: back → rule (past ++ front) event) ∧
      final.Ensures recording (fun past event _ => rule past event) (past ++ events) post := by
  induction execution generalizing past with
  | refl program world =>
      refine ⟨fun front event back split => ?_, ?_⟩
      · simp at split
      · rwa [List.append_nil]
  | @head call next answer before middle after events final step _ induction =>
      obtain ⟨allowed, rest⟩ := guarantee answer _ rfl
      obtain ⟨later, kept⟩ := induction rest
      rw [List.append_assoc, List.singleton_append] at kept
      refine ⟨fun front event back split => ?_, kept⟩
      cases front with
      | nil =>
          obtain ⟨rfl, _⟩ := List.cons.inj split
          rwa [List.append_nil]
      | cons first front =>
          obtain ⟨rfl, tail⟩ := List.cons.inj split
          have found := later front event back tail
          rwa [List.append_assoc, List.singleton_append] at found

end Interaction
