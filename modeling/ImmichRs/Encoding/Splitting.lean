import Mathlib.Algebra.Group.Nat.Defs
import Mathlib.Data.List.Basic
import Mathlib.Logic.Function.Basic

/-!
# Encodings which can be split

An encoding splits when a stream that starts with an encoded value has only one value to start with,
provided that a stream of the right form follows.  Splitting encodings are closed under change of
values, juxtaposition and repetition; repeated values need no count as long as the start of one more
value can be told from what follows the last one.
-/

namespace Encoding

variable {α β γ : Type}

/-- Any two valid values with what may follow them are determined by the whole stream. -/
def Splits (valid : α → Prop) (follows : List γ → Prop) (encode : α → List γ) : Prop :=
  ∀ ⦃first second : α⦄ ⦃left right : List γ⦄, valid first → valid second → follows left →
    follows right → encode first ++ left = encode second ++ right → first = second ∧ left = right

/-- Nothing is asked of what follows. -/
def Anything (_ : List γ) : Prop := True

variable {valid : α → Prop} {follows : List γ → Prop} {encode : α → List γ}

namespace Splits

/-- A splitting encoding is injective on valid values. -/
theorem injOn (splits : Splits valid follows encode) (ends : follows []) {first second : α}
    (firstValid : valid first) (secondValid : valid second)
    (same : encode first = encode second) : first = second := by
  apply (splits firstValid secondValid ends ends _).1
  rw [same]

theorem mono (splits : Splits valid follows encode) {fewer : α → Prop} {less : List γ → Prop}
    (values : ∀ value, fewer value → valid value) (streams : ∀ stream, less stream → follows stream) :
    Splits fewer less encode := by
  intro first second left right firstValid secondValid leftFollows rightFollows same
  exact splits (values first firstValid) (values second secondValid) (streams left leftFollows)
    (streams right rightFollows) same

/-- A view which determines its value may be encoded instead of it. -/
theorem comp (splits : Splits valid follows encode) (view : β → α) {admitted : β → Prop}
    (views : ∀ value, admitted value → valid (view value))
    (determines : ∀ ⦃first second⦄, admitted first → admitted second → view first = view second →
      first = second) : Splits admitted follows (encode ∘ view) := by
  intro first second left right firstValid secondValid leftFollows rightFollows same
  obtain ⟨seen, rest⟩ := splits (views first firstValid) (views second secondValid) leftFollows
    rightFollows same
  exact ⟨determines firstValid secondValid seen, rest⟩

/-- Two values side by side, where the second may follow the first. -/
theorem seq (splits : Splits valid follows encode) {admitted : β → Prop} {ending : List γ → Prop}
    {next : β → List γ} (rest : Splits admitted ending next)
    (continues : ∀ value stream, admitted value → ending stream → follows (next value ++ stream)) :
    Splits (fun pair : α × β => valid pair.1 ∧ admitted pair.2) ending
      (fun pair => encode pair.1 ++ next pair.2) := by
  rintro ⟨first, firstNext⟩ ⟨second, secondNext⟩ left right ⟨firstValid, firstAdmitted⟩
    ⟨secondValid, secondAdmitted⟩ leftEnds rightEnds same
  dsimp only at same
  rw [List.append_assoc, List.append_assoc] at same
  obtain ⟨rfl, tail⟩ := splits firstValid secondValid
    (continues firstNext left firstAdmitted leftEnds)
    (continues secondNext right secondAdmitted rightEnds) same
  obtain ⟨rfl, ends⟩ := rest firstAdmitted secondAdmitted leftEnds rightEnds tail
  exact ⟨rfl, ends⟩

/-- Values without a count, when what follows the last one does not start like one more. -/
theorem flatMap (splits : Splits valid follows encode) (starts : List γ → Prop)
    (opens : ∀ value stream, valid value → starts (encode value ++ stream))
    (continues : ∀ stream, starts stream → follows stream) :
    Splits (fun values : List α => ∀ value ∈ values, valid value)
      (fun stream => follows stream ∧ ¬ starts stream) (fun values => values.flatMap encode) := by
  intro values
  induction values with
  | nil =>
      intro others left right _ othersValid leftEnds _ same
      dsimp only at same
      cases others with
      | nil => exact ⟨rfl, same⟩
      | cons other others =>
          rw [List.flatMap_nil, List.nil_append, List.flatMap_cons, List.append_assoc] at same
          have started := opens other (others.flatMap encode ++ right) (othersValid other
            List.mem_cons_self)
          rw [← same] at started
          exact absurd started leftEnds.2
  | cons value values induction =>
      intro others left right valuesValid othersValid leftEnds rightEnds same
      dsimp only at same
      obtain ⟨valueValid, valuesValid⟩ := List.forall_mem_cons.mp valuesValid
      have following : ∀ (rest : List α) (stream : List γ), (∀ item ∈ rest, valid item) →
          follows stream → follows (rest.flatMap encode ++ stream) := by
        intro rest stream restValid ends
        cases rest with
        | nil => exact ends
        | cons item rest =>
            rw [List.flatMap_cons, List.append_assoc]
            exact continues _ (opens item _ (restValid item List.mem_cons_self))
      cases others with
      | nil =>
          rw [List.flatMap_nil, List.nil_append, List.flatMap_cons, List.append_assoc] at same
          have started := opens value (values.flatMap encode ++ left) valueValid
          rw [same] at started
          exact absurd started rightEnds.2
      | cons other others =>
          obtain ⟨otherValid, restValid⟩ := List.forall_mem_cons.mp othersValid
          rw [List.flatMap_cons, List.flatMap_cons, List.append_assoc, List.append_assoc] at same
          obtain ⟨rfl, tail⟩ := splits valueValid otherValid
            (following values left valuesValid leftEnds.1)
            (following others right restValid rightEnds.1) same
          obtain ⟨rfl, ends⟩ := induction valuesValid restValid leftEnds rightEnds tail
          exact ⟨rfl, ends⟩

/-- A part of known size before the length it announces: the part and its content split. -/
theorem counted {count : Nat → List γ} {width bound : Nat}
    (wide : ∀ size, (count size).length = width)
    (exact : ∀ ⦃first second⦄, first < bound → second < bound → count first = count second →
      first = second) :
    Splits (fun content : List γ => content.length < bound) Anything
      (fun content => count content.length ++ content) := by
  intro first second left right firstShort secondShort _ _ same
  rw [List.append_assoc, List.append_assoc] at same
  have lengths : (count first.length).length = (count second.length).length := by rw [wide, wide]
  obtain ⟨counts, tail⟩ := List.append_inj same lengths
  exact List.append_inj tail (exact firstShort secondShort counts)

/-- Encodings of one length. -/
theorem ofLength {width : Nat} (wide : ∀ value, valid value → (encode value).length = width)
    (exact : ∀ ⦃first second⦄, valid first → valid second → encode first = encode second →
      first = second) : Splits valid Anything encode := by
  intro first second left right firstValid secondValid _ _ same
  have lengths : (encode first).length = (encode second).length := by
    rw [wide first firstValid, wide second secondValid]
  obtain ⟨parts, rest⟩ := List.append_inj same lengths
  exact ⟨exact firstValid secondValid parts, rest⟩

/-- A part which ends at the first mark. -/
theorem terminated (mark : γ) :
    Splits (fun front : List γ => mark ∉ front) Anything (fun front => front ++ [mark]) := by
  intro front
  induction front with
  | nil =>
      intro other left right _ unmarked _ _ same
      cases other with
      | nil => exact ⟨rfl, (List.cons.inj same).2⟩
      | cons item other => exact absurd ((List.cons.inj same).1 ▸ List.mem_cons_self) unmarked
  | cons first front induction =>
      intro other left right unmarked otherUnmarked _ _ same
      cases other with
      | nil => exact absurd ((List.cons.inj same).1 ▸ List.mem_cons_self) unmarked
      | cons item other =>
          obtain ⟨rfl, rest⟩ := List.cons.inj same
          rw [List.mem_cons, not_or] at unmarked otherUnmarked
          obtain ⟨rfl, tails⟩ := induction unmarked.2 otherUnmarked.2 trivial trivial rest
          exact ⟨rfl, tails⟩

end Splits

/-! ## Numbers of fixed width -/

/-- The digits of a number in base 256, the least significant one first. -/
def littleEndian (width value : Nat) : List UInt8 :=
  (List.range width).map fun position => UInt8.ofNat (value / 256 ^ position)

theorem length_littleEndian (width value : Nat) : (littleEndian width value).length = width := by
  rw [littleEndian, List.length_map, List.length_range]

theorem littleEndian_succ (width value : Nat) :
    littleEndian (width + 1) value = UInt8.ofNat value :: littleEndian width (value / 256) := by
  simp only [littleEndian, List.range_succ_eq_map, List.map_cons, List.map_map, Nat.pow_zero,
    Nat.div_one]
  congr 1
  apply List.map_congr_left
  intro position _
  rw [Function.comp_apply, Nat.pow_succ', Nat.div_div_eq_div_mul]

/-- A number below the bound of its width is read back from its digits. -/
theorem littleEndian_injOn {width first second : Nat} (firstFits : first < 256 ^ width)
    (secondFits : second < 256 ^ width)
    (same : littleEndian width first = littleEndian width second) : first = second := by
  induction width generalizing first second with
  | zero =>
      rw [Nat.pow_zero] at firstFits secondFits
      omega
  | succ width induction =>
      rw [littleEndian_succ, littleEndian_succ, List.cons.injEq] at same
      rw [Nat.pow_succ] at firstFits secondFits
      have low : first % 256 = second % 256 := by
        have digits := congrArg UInt8.toNat same.1
        simpa using digits
      have high : first / 256 = second / 256 := by
        apply induction _ _ same.2
        · exact Nat.div_lt_of_lt_mul (by omega)
        · exact Nat.div_lt_of_lt_mul (by omega)
      omega

end Encoding
