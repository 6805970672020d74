import Mathlib.Data.String.Basic
import Mathlib.Data.List.Basic

/-!
# Text primitives and early returns

The source's `str` operations, on Lean strings.  Lengths are UTF-8 byte lengths, the order is the
code-point order (which is the byte order of UTF-8), and control characters are the Unicode
category `Cc`.  `reject` is the source's `if condition { return Err(..) }`.
-/

namespace ImmichRs

/-- `if condition { return Err(error); }`. -/
def reject {ε : Type} (condition : Bool) (error : ε) : Except ε Unit :=
  if condition then .error error else .ok ()

@[simp] theorem reject_eq_ok {ε : Type} (condition : Bool) (error : ε) :
    reject condition error = .ok () ↔ condition = false := by
  cases condition <;> simp [reject]

@[simp] theorem reject_bind_eq_ok {ε α : Type} (condition : Bool) (error : ε)
    (next : Unit → Except ε α) (value : α) :
    (reject condition error >>= next) = .ok value ↔ condition = false ∧ next () = .ok value := by
  cases condition <;> simp [reject, bind, Except.bind]

theorem bind_eq_ok {ε α β : Type} (first : Except ε α) (next : α → Except ε β) (value : β) :
    (first >>= next) = .ok value ↔ ∃ middle, first = .ok middle ∧ next middle = .ok value := by
  cases first <;> simp [bind, Except.bind]

theorem mapError_eq_ok {ε ε' α : Type} {result : Except ε α} {convert : ε → ε'} {value : α} :
    result.mapError convert = .ok value ↔ result = .ok value := by
  cases result <;> simp [Except.mapError]

/-- A fallible map which succeeds has succeeded on every item. -/
theorem forall₂_of_mapM {ε α β : Type} {next : α → Except ε β} {items : List α} {values : List β}
    (returned : items.mapM next = .ok values) :
    List.Forall₂ (fun item value => next item = .ok value) items values := by
  induction items generalizing values with
  | nil =>
      obtain rfl := Except.ok.inj returned
      exact .nil
  | cons item rest induction =>
      rw [List.mapM_cons, bind_eq_ok] at returned
      obtain ⟨value, head, returned⟩ := returned
      rw [bind_eq_ok] at returned
      obtain ⟨tail, rest, last⟩ := returned
      obtain rfl := Except.ok.inj last
      exact .cons head (induction rest)

theorem forall₂_exists_right {α β : Type} {related : α → β → Prop} {first : List α}
    {second : List β} (aligned : List.Forall₂ related first second) {item : α}
    (member : item ∈ first) : ∃ other ∈ second, related item other := by
  induction aligned with
  | nil => cases member
  | cons head _ induction =>
      rcases List.mem_cons.mp member with rfl | member
      · exact ⟨_, List.mem_cons_self, head⟩
      · obtain ⟨other, otherMember, holds⟩ := induction member
        exact ⟨other, List.mem_cons_of_mem _ otherMember, holds⟩

/-- What every step of a fallible loop keeps holds at its end. -/
theorem foldlM_invariant {ε α σ : Type} {step : σ → α → Except ε σ} (invariant : σ → Prop)
    (keeps : ∀ {state item next}, invariant state → step state item = .ok next → invariant next)
    {items : List α} {state final : σ} (holds : invariant state)
    (returned : items.foldlM step state = .ok final) : invariant final := by
  induction items generalizing state with
  | nil =>
      obtain rfl := Except.ok.inj returned
      exact holds
  | cons item rest induction =>
      rw [List.foldlM_cons, bind_eq_ok] at returned
      obtain ⟨next, stepped, returned⟩ := returned
      exact induction (keeps holds stepped) returned

/-- A loop follows another one whose steps it can match. -/
theorem foldlM_simulation {ε α β σ τ : Type} {step : σ → α → Except ε σ}
    {follow : τ → β → Except ε τ} (change : α → β) (relation : σ → τ → Prop)
    (steps : ∀ {first second item next}, relation first second → step first item = .ok next →
      ∃ other, follow second (change item) = .ok other ∧ relation next other)
    {items : List α} {first final : σ} {second : τ} (related : relation first second)
    (returned : items.foldlM step first = .ok final) :
    ∃ other, (items.map change).foldlM follow second = .ok other ∧ relation final other := by
  induction items generalizing first second with
  | nil =>
      obtain rfl := Except.ok.inj returned
      exact ⟨second, rfl, related⟩
  | cons item rest induction =>
      rw [List.foldlM_cons, bind_eq_ok] at returned
      obtain ⟨next, stepped, returned⟩ := returned
      obtain ⟨following, followed, related⟩ := steps related stepped
      obtain ⟨other, looped, ends⟩ := induction related returned
      refine ⟨other, ?_, ends⟩
      rw [List.map_cons, List.foldlM_cons, bind_eq_ok]
      exact ⟨following, followed, looped⟩

/-- `str::len`: the number of UTF-8 bytes. -/
def byteLen (value : String) : Nat := value.utf8ByteSize

/-- `str::as_bytes`. -/
def utf8Bytes (value : String) : List UInt8 := value.toByteArray.data.toList

/-- `char::is_control`. -/
def isControl (character : Char) : Bool :=
  character.val < 0x20 || (0x7f ≤ character.val && character.val ≤ 0x9f)

/-- `char::is_whitespace`. -/
def isWhitespace (character : Char) : Bool :=
  let point := character.toNat
  (9 ≤ point && point ≤ 13) || point == 0x20 || point == 0x85 || point == 0xa0 ||
    point == 0x1680 || (0x2000 ≤ point && point ≤ 0x200a) || point == 0x2028 || point == 0x2029 ||
    point == 0x202f || point == 0x205f || point == 0x3000

/-- `str::trim`. -/
def trim (value : String) : String :=
  String.ofList
    (((value.toList.dropWhile isWhitespace).reverse.dropWhile isWhitespace).reverse)

/-- `u8::is_ascii_digit`, on a character. -/
def isAsciiDigit (character : Char) : Bool :=
  '0' ≤ character && character ≤ '9'

/-- `u8::is_ascii_hexdigit`, on a character. -/
def isAsciiHexdigit (character : Char) : Bool :=
  isAsciiDigit character || ('a' ≤ character && character ≤ 'f') ||
    ('A' ≤ character && character ≤ 'F')

/-- `str::contains` for one character. -/
def containsChar (value : String) (character : Char) : Bool :=
  value.toList.contains character

/-- `value.chars().any(predicate)`. -/
def anyChar (value : String) (predicate : Char → Bool) : Bool :=
  value.toList.any predicate

/-- The characters before and after the last separator. -/
def rsplitOnceChars (separator : Char) : List Char → Option (List Char × List Char)
  | [] => none
  | character :: rest =>
      match rsplitOnceChars separator rest with
      | some (left, right) => some (character :: left, right)
      | none => if character = separator then some ([], rest) else none

/-- `str::rsplit_once` for one character. -/
def rsplitOnce (value : String) (separator : Char) : Option (String × String) :=
  (rsplitOnceChars separator value.toList).map fun parts =>
    (String.ofList parts.1, String.ofList parts.2)

/-- The part of a portable path after its last slash. -/
def filename (path : String) : String :=
  match rsplitOnce path '/' with
  | some (_, name) => name
  | none => path

/-- The part of a portable path before its last slash, or the empty path. -/
def parent (path : String) : String :=
  match rsplitOnce path '/' with
  | some (directory, _) => directory
  | none => ""

/-- `is_sha256`: 64 hexadecimal digits of either case. -/
def isSha256 (value : String) : Bool :=
  byteLen value == 64 && value.toList.all isAsciiHexdigit

/-- `is_lower_sha256`: 64 lower-case hexadecimal digits. -/
def isLowerSha256 (value : String) : Bool :=
  byteLen value == 64 &&
    value.toList.all fun character =>
      isAsciiDigit character || ('a' ≤ character && character ≤ 'f')

theorem not_mem_of_rsplitOnceChars_none {separator : Char} {chars : List Char}
    (unsplit : rsplitOnceChars separator chars = none) : separator ∉ chars := by
  induction chars with
  | nil => simp
  | cons character rest induction =>
      cases inner : rsplitOnceChars separator rest with
      | some parts => simp [rsplitOnceChars, inner] at unsplit
      | none =>
          simp only [rsplitOnceChars, inner, ite_eq_right_iff, reduceCtorEq, imp_false] at unsplit
          simp only [List.mem_cons, not_or]
          exact ⟨fun equal => unsplit equal.symm, induction inner⟩

theorem not_mem_of_rsplitOnceChars_some {separator : Char} {chars left right : List Char}
    (split : rsplitOnceChars separator chars = some (left, right)) : separator ∉ right := by
  induction chars generalizing left with
  | nil => simp [rsplitOnceChars] at split
  | cons character rest induction =>
      cases inner : rsplitOnceChars separator rest with
      | some parts =>
          simp only [rsplitOnceChars, inner, Option.some.injEq, Prod.mk.injEq] at split
          obtain ⟨_, rfl⟩ := split
          exact induction inner
      | none =>
          simp only [rsplitOnceChars, inner, Option.ite_none_right_eq_some, Option.some.injEq,
            Prod.mk.injEq] at split
          obtain ⟨_, _, rfl⟩ := split
          exact not_mem_of_rsplitOnceChars_none inner

theorem rsplitOnceChars_of_not_mem {separator : Char} {chars : List Char}
    (free : separator ∉ chars) : rsplitOnceChars separator chars = none := by
  induction chars with
  | nil => rfl
  | cons character rest induction =>
      obtain ⟨different, free⟩ := List.ne_and_not_mem_of_not_mem_cons free
      rw [rsplitOnceChars, induction free]
      exact if_neg (Ne.symm different)

/-- The last separator splits a text where nothing behind it contains another. -/
theorem rsplitOnceChars_eq_some_iff {separator : Char} {chars left right : List Char} :
    rsplitOnceChars separator chars = some (left, right) ↔
      chars = left ++ separator :: right ∧ separator ∉ right := by
  constructor
  · intro split
    refine ⟨?_, not_mem_of_rsplitOnceChars_some split⟩
    induction chars generalizing left with
    | nil => cases split
    | cons character rest induction =>
        rw [rsplitOnceChars] at split
        cases inner : rsplitOnceChars separator rest with
        | some parts =>
            rw [inner] at split
            cases split
            exact congrArg (character :: ·) (induction inner)
        | none =>
            rw [inner] at split
            obtain ⟨rfl, same⟩ := Option.ite_none_right_eq_some.mp split
            cases same
            rfl
  · rintro ⟨rfl, free⟩
    induction left with
    | nil =>
        rw [List.nil_append, rsplitOnceChars, rsplitOnceChars_of_not_mem free]
        exact if_pos rfl
    | cons character rest induction =>
        rw [List.cons_append, rsplitOnceChars, induction]

theorem rsplitOnce_eq_some_iff {value left right : String} {separator : Char} :
    rsplitOnce value separator = some (left, right) ↔
      value.toList = left.toList ++ separator :: right.toList ∧ separator ∉ right.toList := by
  rw [rsplitOnce, Option.map_eq_some_iff]
  constructor
  · rintro ⟨parts, split, same⟩
    cases same
    rw [String.toList_ofList, String.toList_ofList]
    exact rsplitOnceChars_eq_some_iff.mp split
  · intro split
    refine ⟨_, rsplitOnceChars_eq_some_iff.mpr split, ?_⟩
    rw [String.ofList_toList, String.ofList_toList]

theorem rsplitOnce_eq_none_iff {value : String} {separator : Char} :
    rsplitOnce value separator = none ↔ separator ∉ value.toList := by
  rw [rsplitOnce, Option.map_eq_none_iff]
  exact ⟨not_mem_of_rsplitOnceChars_none, rsplitOnceChars_of_not_mem⟩

/-- Text without a separator behind others leaves the last separator where it is. -/
theorem rsplitOnceChars_append {separator : Char} {suffix : List Char}
    (free : separator ∉ suffix) (chars : List Char) :
    rsplitOnceChars separator (chars ++ suffix) =
      (rsplitOnceChars separator chars).map fun parts => (parts.1, parts.2 ++ suffix) := by
  induction chars with
  | nil =>
      induction suffix with
      | nil => rfl
      | cons character rest induction =>
          obtain ⟨different, free⟩ := List.ne_and_not_mem_of_not_mem_cons free
          have unsplit : rsplitOnceChars separator rest = none := induction free
          simp only [List.nil_append, rsplitOnceChars, unsplit, Option.map_none]
          exact if_neg (Ne.symm different)
  | cons character rest induction =>
      rw [List.cons_append, rsplitOnceChars, induction, rsplitOnceChars]
      cases rsplitOnceChars separator rest with
      | some parts => rfl
      | none =>
          dsimp only [Option.map_none]
          split <;> rfl

/-- Text without a slash behind a path leaves its directory as it is. -/
theorem parent_append {suffix : String} (free : '/' ∉ suffix.toList) (path : String) :
    parent (path ++ suffix) = parent path := by
  rw [parent, parent, rsplitOnce, rsplitOnce, String.toList_append, rsplitOnceChars_append free]
  cases rsplitOnceChars '/' path.toList with
  | none => rfl
  | some parts => rfl

/-- A file name never contains a slash. -/
theorem slash_not_mem_filename (path : String) : '/' ∉ (filename path).toList := by
  unfold filename rsplitOnce
  cases split : rsplitOnceChars '/' path.toList with
  | none => simpa using not_mem_of_rsplitOnceChars_none split
  | some parts => simpa using not_mem_of_rsplitOnceChars_some split

/-- A relative path is determined by its directory and its file name. -/
theorem eq_of_parent_filename {first second : String}
    (firstRelative : first.toList.head? ≠ some '/') (secondRelative : second.toList.head? ≠ some '/')
    (directories : parent first = parent second) (names : filename first = filename second) :
    first = second := by
  have absolute : ∀ {path directory name : String}, rsplitOnce path '/' = some (directory, name) →
      directory = "" → path.toList.head? = some '/' := by
    rintro path directory name split rfl
    rw [(rsplitOnce_eq_some_iff.mp split).1]
    rfl
  unfold parent at directories
  unfold filename at names
  cases left : rsplitOnce first '/' with
  | none =>
      cases right : rsplitOnce second '/' with
      | none =>
          rw [left, right] at names
          exact names
      | some parts =>
          rw [left, right] at directories
          exact absurd (absolute right directories.symm) secondRelative
  | some parts =>
      cases right : rsplitOnce second '/' with
      | none =>
          rw [left, right] at directories
          exact absurd (absolute left directories) firstRelative
      | some others =>
          rw [left, right] at directories names
          apply String.toList_injective
          rw [(rsplitOnce_eq_some_iff.mp left).1, (rsplitOnce_eq_some_iff.mp right).1]
          dsimp only at directories names
          rw [directories, names]

/-- Lists of one length are ordered by themselves, whatever follows them. -/
theorem append_lt_append_of_length {first second : List Char} (same : first.length = second.length)
    (less : first < second) (left right : List Char) : first ++ left < second ++ right := by
  induction first generalizing second with
  | nil =>
      cases second with
      | nil => exact absurd less (lt_irrefl _)
      | cons character rest => cases same
  | cons character rest induction =>
      cases second with
      | nil => cases same
      | cons other tail =>
          rw [List.cons_append, List.cons_append, List.cons_lt_cons_iff]
          rcases List.cons_lt_cons_iff.mp less with smaller | ⟨rfl, smaller⟩
          · exact .inl smaller
          · exact .inr ⟨rfl, induction (Nat.succ.inj same) smaller⟩

/-- A digest made of one repeated hexadecimal digit. -/
def digestOf (digit : Char) : String := String.ofList (List.replicate 64 digit)

theorem byteLen_append (first second : String) :
    byteLen (first ++ second) = byteLen first + byteLen second :=
  String.utf8ByteSize_append

theorem byteLen_ofList_cons (character : Char) (rest : List Char) :
    byteLen (String.ofList (character :: rest)) =
      character.utf8Size + byteLen (String.ofList rest) := by
  have single : byteLen (String.ofList [character]) = character.utf8Size := by simp [byteLen]
  rw [← List.singleton_append, String.ofList_append, byteLen_append, single]

theorem byteLen_ofList_append (front rest : List Char) :
    byteLen (String.ofList (front ++ rest)) =
      byteLen (String.ofList front) + byteLen (String.ofList rest) := by
  rw [String.ofList_append, byteLen_append]

theorem byteLen_replicate (count : Nat) (character : Char) :
    byteLen (String.ofList (List.replicate count character)) = count * character.utf8Size := by
  induction count with
  | zero => simp [byteLen]
  | succ count induction =>
      rw [List.replicate_succ, byteLen_ofList_cons, induction, Nat.succ_mul, Nat.add_comm]

theorem byteLen_ofList_of_ascii {digits : List Char}
    (ascii : ∀ digit ∈ digits, digit.utf8Size = 1) :
    byteLen (String.ofList digits) = digits.length := by
  induction digits with
  | nil => simp [byteLen]
  | cons digit rest induction =>
      have tail := induction fun other member => ascii other (List.mem_cons_of_mem _ member)
      rw [byteLen_ofList_cons, tail, ascii digit List.mem_cons_self, List.length_cons, Nat.add_comm]

theorem length_utf8Bytes (value : String) : (utf8Bytes value).length = byteLen value := by
  rw [utf8Bytes, byteLen, Array.length_toList]
  rfl

theorem utf8Bytes_injective : Function.Injective utf8Bytes := by
  intro first second same
  have arrays : first.toByteArray.data = second.toByteArray.data := Array.toList_inj.mp same
  exact String.toByteArray_inj.mp (ByteArray.ext arrays)

theorem utf8Bytes_ofList (characters : List Char) :
    utf8Bytes (String.ofList characters) = characters.flatMap String.utf8EncodeChar := by
  rw [utf8Bytes, String.toByteArray_ofList, List.utf8Encode, List.toList_data_toByteArray]

/-- The first byte of a wide character is not one of ASCII. -/
theorem head_utf8EncodeChar (character : Char) :
    ∃ byte rest, String.utf8EncodeChar character = byte :: rest ∧
      (byte.toNat < 128 → character.utf8Size = 1) := by
  rw [String.utf8EncodeChar.eq_def]
  simp only
  split
  · rename_i narrow
    refine ⟨_, _, rfl, fun _ => Char.utf8Size_eq_one_iff.mpr (UInt32.le_iff_toNat_le.mpr narrow)⟩
  · split
    · refine ⟨_, _, rfl, fun small => ?_⟩
      simp only [UInt8.toNat_ofNat'] at small
      omega
    · split
      · refine ⟨_, _, rfl, fun small => ?_⟩
        simp only [UInt8.toNat_ofNat'] at small
        omega
      · refine ⟨_, _, rfl, fun small => ?_⟩
        simp only [UInt8.toNat_ofNat'] at small
        omega

theorem eq_of_ascii_byte {first second : Char} (firstNarrow : first.utf8Size = 1)
    (secondNarrow : second.utf8Size = 1) (same : first.val.toUInt8 = second.val.toUInt8) :
    first = second := by
  have firstSmall := UInt32.le_iff_toNat_le.mp (Char.utf8Size_eq_one_iff.mp firstNarrow)
  have secondSmall := UInt32.le_iff_toNat_le.mp (Char.utf8Size_eq_one_iff.mp secondNarrow)
  have numbers := congrArg UInt8.toNat same
  rw [UInt32.toNat_toUInt8, UInt32.toNat_toUInt8] at numbers
  apply Char.ext
  apply UInt32.toNat_inj.mp
  simp only [UInt32.reduceToNat] at firstSmall secondSmall
  omega

/-- ASCII text starts another text exactly when its bytes start the bytes of the other. -/
theorem isPrefix_bytes_iff {front text : List Char} (ascii : ∀ item ∈ front, item.utf8Size = 1) :
    front.flatMap String.utf8EncodeChar <+: text.flatMap String.utf8EncodeChar ↔
      front <+: text := by
  induction front generalizing text with
  | nil => simp
  | cons first front induction =>
      have narrow := ascii first List.mem_cons_self
      have tail := fun other member => ascii other (List.mem_cons_of_mem first member)
      cases text with
      | nil => simp [String.utf8EncodeChar_eq_singleton narrow]
      | cons character text =>
          rw [List.flatMap_cons, List.flatMap_cons, String.utf8EncodeChar_eq_singleton narrow,
            List.cons_prefix_cons]
          constructor
          · intro starts
            obtain ⟨byte, rest, encoded, ofNarrow⟩ := head_utf8EncodeChar character
            rw [encoded, List.cons_append, List.cons_append, List.nil_append,
              List.cons_prefix_cons] at starts
            have small : first.val.toUInt8.toNat < 128 := by
              have bound := UInt32.le_iff_toNat_le.mp (Char.utf8Size_eq_one_iff.mp narrow)
              simp only [UInt32.reduceToNat] at bound
              rw [UInt32.toNat_toUInt8]
              omega
            rw [starts.1] at small
            have narrowToo := ofNarrow small
            rw [String.utf8EncodeChar_eq_singleton narrowToo, List.cons.injEq] at encoded
            obtain ⟨rfl, rfl⟩ := encoded
            exact ⟨eq_of_ascii_byte narrow narrowToo starts.1, (induction tail).mp starts.2⟩
          · rintro ⟨rfl, starts⟩
            rw [String.utf8EncodeChar_eq_singleton narrow, List.prefix_append_right_inj]
            exact (induction tail).mpr starts

theorem isSha256_digestOf {digit : Char} (hex : isAsciiHexdigit digit = true)
    (ascii : digit.utf8Size = 1) : isSha256 (digestOf digit) = true := by
  have length : byteLen (digestOf digit) = 64 := by rw [digestOf, byteLen_replicate, ascii]
  have digits : (digestOf digit).toList.all isAsciiHexdigit = true := by
    rw [digestOf, String.toList_ofList, List.all_replicate]
    simp [hex]
  rw [isSha256, length, digits]
  rfl

@[simp] theorem digestOf_inj {first second : Char} :
    digestOf first = digestOf second ↔ first = second := by
  unfold digestOf
  rw [String.ofList_inj, List.replicate_right_inj (by decide)]

end ImmichRs
