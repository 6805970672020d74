import ImmichRs.Encoding.Splitting

/-!
# JSON texts

Values whose numbers are natural, and their compact texts under a given escape of single characters.
A text determines its value: objects and arrays close themselves, strings do where no escape starts
with a quotation mark, and a number ends before the next character which is no digit.
-/

namespace Encoding

/-- A JSON value whose numbers are natural. -/
inductive Json
  | null
  | bool (value : Bool)
  | number (value : Nat)
  | string (value : String)
  | array (items : List Json)
  | object (members : List (String × Json))

/-- Escapes split and do not start like the end of a string. -/
structure Escapes (escape : Char → List Char) : Prop where
  splits : Splits (fun _ => True) Anything escape
  unquoted : ∀ character rest, (escape character ++ rest).head? ≠ some '"'

section

variable (escape : Char → List Char)

/-- The text of a string. -/
def quote (text : String) : List Char := '"' :: (text.toList.flatMap escape ++ ['"'])

mutual

/-- The text of a value. -/
def Json.render : Json → List Char
  | .null => ['n', 'u', 'l', 'l']
  | .bool true => ['t', 'r', 'u', 'e']
  | .bool false => ['f', 'a', 'l', 's', 'e']
  | .number value => Nat.toDigits 10 value
  | .string value => quote escape value
  | .array [] => ['[', ']']
  | .array (first :: rest) => '[' :: (first.render ++ (renderItems rest ++ [']']))
  | .object [] => ['{', '}']
  | .object ((key, first) :: rest) =>
      '{' :: (quote escape key ++ ':' :: (first.render ++ (renderMembers rest ++ ['}'])))

/-- The text of further items. -/
def Json.renderItems : List Json → List Char
  | [] => []
  | item :: rest => ',' :: (item.render ++ renderItems rest)

/-- The text of further members. -/
def Json.renderMembers : List (String × Json) → List Char
  | [] => []
  | (key, item) :: rest =>
      ',' :: (quote escape key ++ ':' :: (item.render ++ renderMembers rest))

end

end

section

variable {escape : Char → List Char}

theorem quote_splits (escapes : Escapes escape) :
    Splits (fun _ => True) Anything (quote escape) := by
  intro first second left right _ _ _ _ same
  have texts := escapes.splits.flatMap (fun stream => stream.head? ≠ some '"')
    (fun character stream _ => escapes.unquoted character stream) fun _ _ => trivial
  rw [quote, quote, List.cons_append, List.cons_append, List.append_assoc, List.append_assoc,
    List.cons_inj_right] at same
  obtain ⟨equal, rest⟩ := texts (fun _ _ => trivial) (fun _ _ => trivial) ⟨trivial, by simp⟩
    ⟨trivial, by simp⟩ same
  exact ⟨String.toList_inj.mp equal, List.append_cancel_left rest⟩

/-- A stream which does not go on with a digit. -/
def EndsNumber (stream : List Char) : Prop := ∀ digit ∈ stream.head?, digit.isDigit = false

theorem toDigits_splits :
    Splits (fun _ => True) EndsNumber (fun value : Nat => Nat.toDigits 10 value) := by
  have spans : ∀ {digits stream : List Char}, (∀ digit ∈ digits, digit.isDigit = true) →
      EndsNumber stream → (digits ++ stream).takeWhile Char.isDigit = digits := by
    intro digits stream isDigits ends
    rw [List.takeWhile_append_of_pos isDigits]
    cases stream with
    | nil => simp
    | cons character rest =>
        rw [List.takeWhile_cons, ends character rfl]
        simp
  intro first second left right _ _ leftEnds rightEnds same
  dsimp only at same
  have isDigits : ∀ value, ∀ digit ∈ Nat.toDigits 10 value, digit.isDigit = true :=
    fun value digit member => Nat.isDigit_of_mem_toDigits (by decide) (by decide) member
  have digits := congrArg (List.takeWhile Char.isDigit) same
  rw [spans (isDigits first) leftEnds, spans (isDigits second) rightEnds] at digits
  have values := congrArg (Nat.ofDigitChars 10 · 0) digits
  simp only [Nat.ofDigitChars_ten_toDigits] at values
  subst values
  exact ⟨rfl, List.append_cancel_left same⟩

/-- The character which texts of one form start with; a number may start with another digit. -/
def Json.form : Json → Char
  | .null => 'n'
  | .bool true => 't'
  | .bool false => 'f'
  | .number _ => '0'
  | .string _ => '"'
  | .array _ => '['
  | .object _ => '{'

theorem Json.form_of_isDigit {value : Json} (digit : value.form.isDigit = true) :
    value.form = '0' := by
  cases value with
  | bool value => cases value <;> exact absurd digit (by decide)
  | number value => rfl
  | null => exact absurd digit (by decide : ¬ 'n'.isDigit = true)
  | string value => exact absurd digit (by decide : ¬ '"'.isDigit = true)
  | array items => exact absurd digit (by decide : ¬ '['.isDigit = true)
  | object members => exact absurd digit (by decide : ¬ '{'.isDigit = true)

/-- The first character of a text tells its form. -/
theorem Json.render_head (value : Json) : ∃ character rest, value.render escape = character :: rest ∧
    (character = value.form ∨ character.isDigit = true ∧ value.form = '0') := by
  cases value with
  | null => exact ⟨_, _, rfl, .inl rfl⟩
  | bool value => cases value <;> exact ⟨_, _, rfl, .inl rfl⟩
  | number value =>
      obtain ⟨digit, rest, shape⟩ := List.exists_cons_of_ne_nil
        (Nat.toDigits_ne_nil (n := value) (b := 10))
      have isDigit := Nat.isDigit_of_mem_toDigits (n := value) (b := 10) (by decide) (by decide)
        (shape ▸ List.mem_cons_self)
      exact ⟨digit, rest, by rw [render, shape], .inr ⟨isDigit, rfl⟩⟩
  | string value => exact ⟨_, _, rfl, .inl rfl⟩
  | array items => cases items <;> exact ⟨_, _, rfl, .inl rfl⟩
  | object members =>
      rcases members with _ | ⟨⟨key, value⟩, rest⟩
      · exact ⟨_, _, rfl, .inl rfl⟩
      · exact ⟨_, _, rfl, .inl rfl⟩

theorem Json.form_eq {first second : Json} {left right : List Char}
    (same : first.render escape ++ left = second.render escape ++ right) :
    first.form = second.form := by
  obtain ⟨head, rest, shape, form⟩ := @Json.render_head escape first
  obtain ⟨other, otherRest, otherShape, otherForm⟩ := @Json.render_head escape second
  rw [shape, otherShape, List.cons_append, List.cons_append] at same
  obtain ⟨rfl, _⟩ := List.cons.inj same
  rcases form with rfl | ⟨digit, form⟩
  · rcases otherForm with form | ⟨digit, otherForm⟩
    · exact form
    · rw [form_of_isDigit digit, otherForm]
  · rcases otherForm with rfl | ⟨_, otherForm⟩
    · rw [form, form_of_isDigit digit]
    · rw [form, otherForm]

/-- A value which its text determines. -/
def Json.Determined (escape : Char → List Char) (first : Json) : Prop :=
  ∀ ⦃second : Json⦄ ⦃left right : List Char⦄, EndsNumber left → EndsNumber right →
    first.render escape ++ left = second.render escape ++ right → first = second ∧ left = right

theorem endsNumber_cons {character : Char} (other : character.isDigit = false)
    (rest : List Char) : EndsNumber (character :: rest) := by
  intro digit first
  obtain rfl := Option.some.inj first
  exact other

theorem endsNumber_renderItems (items : List Json) (rest : List Char) :
    EndsNumber (Json.renderItems escape items ++ ']' :: rest) := by
  cases items with
  | nil => exact endsNumber_cons (by decide) _
  | cons item others => exact endsNumber_cons (by decide) _

theorem endsNumber_renderMembers (members : List (String × Json)) (rest : List Char) :
    EndsNumber (Json.renderMembers escape members ++ '}' :: rest) := by
  cases members with
  | nil => exact endsNumber_cons (by decide) _
  | cons member others => exact endsNumber_cons (by decide) _

theorem Json.renderItems_splits {first second : List Json}
    (determined : ∀ item ∈ first, item.Determined escape) {left right : List Char}
    (same : renderItems escape first ++ ']' :: left = renderItems escape second ++ ']' :: right) :
    first = second ∧ left = right := by
  induction first generalizing second with
  | nil =>
      cases second with
      | nil => exact ⟨rfl, List.cons_inj_right _ |>.mp same⟩
      | cons item others => simp [renderItems] at same
  | cons head rest induction =>
      cases second with
      | nil => simp [renderItems] at same
      | cons item others =>
          obtain ⟨headDetermined, restDetermined⟩ := List.forall_mem_cons.mp determined
          simp only [renderItems, List.cons_append, List.append_assoc, List.cons_inj_right] at same
          obtain ⟨rfl, tail⟩ := headDetermined (endsNumber_renderItems rest left)
            (endsNumber_renderItems others right) same
          obtain ⟨rfl, ends⟩ := induction restDetermined tail
          exact ⟨rfl, ends⟩

theorem Json.renderMembers_splits (escapes : Escapes escape) {first second : List (String × Json)}
    (determined : ∀ member ∈ first, member.2.Determined escape) {left right : List Char}
    (same : renderMembers escape first ++ '}' :: left =
      renderMembers escape second ++ '}' :: right) : first = second ∧ left = right := by
  induction first generalizing second with
  | nil =>
      cases second with
      | nil => exact ⟨rfl, List.cons_inj_right _ |>.mp same⟩
      | cons member others => simp [renderMembers] at same
  | cons head rest induction =>
      obtain ⟨key, value⟩ := head
      cases second with
      | nil => simp [renderMembers] at same
      | cons member others =>
          obtain ⟨otherKey, otherValue⟩ := member
          obtain ⟨headDetermined, restDetermined⟩ := List.forall_mem_cons.mp determined
          simp only [renderMembers, List.cons_append, List.append_assoc,
            List.cons_inj_right] at same
          obtain ⟨rfl, text⟩ := quote_splits escapes trivial trivial trivial trivial same
          rw [List.cons_inj_right] at text
          obtain ⟨rfl, tail⟩ := headDetermined (endsNumber_renderMembers rest left)
            (endsNumber_renderMembers others right) text
          obtain ⟨rfl, ends⟩ := induction restDetermined tail
          exact ⟨rfl, ends⟩

theorem Json.render_ne_closing (value : Json) (stream rest : List Char) :
    value.render escape ++ stream ≠ ']' :: rest := by
  obtain ⟨character, text, shape, form⟩ := @Json.render_head escape value
  intro same
  rw [shape, List.cons_append] at same
  obtain ⟨rfl, _⟩ := List.cons.inj same
  rcases form with form | ⟨digit, _⟩
  · cases value with
    | bool value => cases value <;> exact absurd form (by decide)
    | null => exact absurd form (by decide : ']' ≠ 'n')
    | number value => exact absurd form (by decide : ']' ≠ '0')
    | string value => exact absurd form (by decide : ']' ≠ '"')
    | array items => exact absurd form (by decide : ']' ≠ '[')
    | object members => exact absurd form (by decide : ']' ≠ '{')
  · exact absurd digit (by decide)

theorem Json.array_determined {items : List Json}
    (determined : ∀ item ∈ items, item.Determined escape) : (array items).Determined escape := by
  intro second left right _ _ same
  cases second with
  | array others =>
      have rest : items = others ∧ left = right := by
        cases items with
        | nil =>
            cases others with
            | nil => exact ⟨rfl, by simpa [render] using same⟩
            | cons head others =>
                simp only [render, List.cons_append, List.append_assoc, List.cons_inj_right,
                  List.nil_append] at same
                exact absurd same.symm (head.render_ne_closing _ _)
        | cons head rest =>
            cases others with
            | nil =>
                simp only [render, List.cons_append, List.append_assoc, List.cons_inj_right,
                  List.nil_append] at same
                exact absurd same (head.render_ne_closing _ _)
            | cons other others =>
                obtain ⟨headDetermined, restDetermined⟩ := List.forall_mem_cons.mp determined
                simp only [render, List.cons_append, List.append_assoc, List.nil_append,
                  List.cons_inj_right] at same
                obtain ⟨rfl, tail⟩ := headDetermined (endsNumber_renderItems rest left)
                  (endsNumber_renderItems others right) same
                obtain ⟨rfl, ends⟩ := renderItems_splits restDetermined tail
                exact ⟨rfl, ends⟩
      exact ⟨congrArg array rest.1, rest.2⟩
  | bool value => cases value <;> cases form_eq same
  | null => cases form_eq same
  | number value => cases form_eq same
  | string value => cases form_eq same
  | object members => cases form_eq same

theorem Json.object_determined (escapes : Escapes escape) {members : List (String × Json)}
    (determined : ∀ member ∈ members, member.2.Determined escape) :
    (object members).Determined escape := by
  intro second left right _ _ same
  cases second with
  | object others =>
      have rest : members = others ∧ left = right := by
        rcases members with _ | ⟨⟨key, value⟩, rest⟩
        · rcases others with _ | ⟨⟨otherKey, other⟩, others⟩
          · exact ⟨rfl, by simpa [render] using same⟩
          · simp [render, quote] at same
        · rcases others with _ | ⟨⟨otherKey, other⟩, others⟩
          · simp [render, quote] at same
          · obtain ⟨headDetermined, restDetermined⟩ := List.forall_mem_cons.mp determined
            simp only [render, List.cons_append, List.append_assoc, List.nil_append,
              List.cons_inj_right] at same
            obtain ⟨rfl, text⟩ := quote_splits escapes trivial trivial trivial trivial same
            rw [List.cons_inj_right] at text
            obtain ⟨rfl, tail⟩ := headDetermined (endsNumber_renderMembers rest left)
              (endsNumber_renderMembers others right) text
            obtain ⟨rfl, ends⟩ := renderMembers_splits escapes restDetermined tail
            exact ⟨rfl, ends⟩
      exact ⟨congrArg object rest.1, rest.2⟩
  | bool value => cases value <;> cases form_eq same
  | null => cases form_eq same
  | number value => cases form_eq same
  | string value => cases form_eq same
  | array items => cases form_eq same

theorem Json.null_determined : null.Determined escape := by
  intro second left right _ _ same
  cases second with
  | null => exact ⟨rfl, List.append_cancel_left same⟩
  | bool value => cases value <;> cases form_eq same
  | number value => cases form_eq same
  | string value => cases form_eq same
  | array items => cases form_eq same
  | object members => cases form_eq same

theorem Json.bool_determined (value : Bool) : (bool value).Determined escape := by
  intro second left right _ _ same
  cases second with
  | bool other =>
      cases value with
      | true =>
          cases other with
          | true => exact ⟨rfl, List.append_cancel_left same⟩
          | false => cases form_eq same
      | false =>
          cases other with
          | true => cases form_eq same
          | false => exact ⟨rfl, List.append_cancel_left same⟩
  | null => cases value <;> cases form_eq same
  | number other => cases value <;> cases form_eq same
  | string other => cases value <;> cases form_eq same
  | array items => cases value <;> cases form_eq same
  | object members => cases value <;> cases form_eq same

theorem Json.number_determined (value : Nat) : (number value).Determined escape := by
  intro second left right leftEnds rightEnds same
  cases second with
  | number other =>
      obtain ⟨rfl, ends⟩ := toDigits_splits trivial trivial leftEnds rightEnds same
      exact ⟨rfl, ends⟩
  | null => cases form_eq same
  | bool other => cases other <;> cases form_eq same
  | string other => cases form_eq same
  | array items => cases form_eq same
  | object members => cases form_eq same

theorem Json.string_determined (escapes : Escapes escape) (value : String) :
    (string value).Determined escape := by
  intro second left right _ _ same
  cases second with
  | string other =>
      obtain ⟨rfl, ends⟩ := quote_splits escapes trivial trivial trivial trivial same
      exact ⟨rfl, ends⟩
  | null => cases form_eq same
  | bool other => cases other <;> cases form_eq same
  | number other => cases form_eq same
  | array items => cases form_eq same
  | object members => cases form_eq same

/-- Every value is determined by its text. -/
theorem Json.determined (escapes : Escapes escape) :
    ∀ value : Json, value.Determined escape
  | .null => null_determined
  | .bool value => bool_determined value
  | .number value => number_determined value
  | .string value => string_determined escapes value
  | .array items => array_determined fun item _listed => item.determined escapes
  | .object members => object_determined escapes fun member _listed => member.2.determined escapes
decreasing_by
  · have smaller := List.sizeOf_lt_of_mem _listed
    simp only [array.sizeOf_spec]
    omega
  · have smaller := List.sizeOf_lt_of_mem _listed
    obtain ⟨key, value⟩ := member
    simp only [Prod.mk.sizeOf_spec] at smaller
    simp only [object.sizeOf_spec]
    omega

theorem Json.render_injective (escapes : Escapes escape) :
    Function.Injective (Json.render escape) := by
  intro first second same
  have ends : EndsNumber [] := fun _ nothing => by cases nothing
  apply (first.determined escapes ends ends _).1
  rw [same]

end

end Encoding
