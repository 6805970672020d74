import ImmichRs.Core.Timestamps
import ImmichRs.Sources.Picasa

/-!
# Dates in names

Which names `filename_timestamp` recognizes: those which begin with the digits of a moment, and those
which write some of its numbers with a sign.
-/

namespace ImmichRs

open Calendar

/-! ## Spellings -/

/-- Two characters for a number, the second with a sign. -/
def spellings (number : Nat) : List (List Char) :=
  twoDigits number :: if number < 10 then [['+', digit number]] else []

/-- Four characters for a year, with a sign in all but the first. -/
def yearSpellings (year : Nat) : List (List Char) :=
  (twoDigits (year / 100) ++ twoDigits year) ::
    ((if year < 1000 then ['+' :: digit (year / 100) :: twoDigits year] else []) ++
      if year = 0 then ['-' :: digit 0 :: twoDigits 0] else [])

/-- Fifteen characters which write the numbers of a moment, with or without signs. -/
def Spells (moment : Moment) (text : List Char) : Prop :=
  0 ≤ moment.date.year ∧ ∃ year ∈ yearSpellings moment.date.year.toNat,
    ∃ month ∈ spellings moment.date.month, ∃ day ∈ spellings moment.date.day,
    ∃ hour ∈ spellings (moment.second / 3600), ∃ minute ∈ spellings (moment.second / 60 % 60),
    ∃ second ∈ spellings (moment.second % 60),
      text = year ++ month ++ day ++ '-' :: (hour ++ minute ++ second)

/-- Eight digits of a date, a hyphen and six digits of a time of day. -/
def digitsOf (moment : Moment) : List Char :=
  twoDigits (moment.date.year.toNat / 100) ++ twoDigits moment.date.year.toNat ++
    twoDigits moment.date.month ++ twoDigits moment.date.day ++ '-' ::
      (twoDigits (moment.second / 3600) ++ twoDigits (moment.second / 60 % 60) ++
        twoDigits (moment.second % 60))

theorem Spells.digits {moment : Moment} (positive : 0 ≤ moment.date.year) :
    Spells moment (digitsOf moment) :=
  ⟨positive, _, List.mem_cons_self, _, List.mem_cons_self, _, List.mem_cons_self, _,
    List.mem_cons_self, _, List.mem_cons_self, _, List.mem_cons_self, rfl⟩

theorem digit_ne_plus (number : Nat) : '+' ≠ digit number := by
  have small : number % 10 < 10 := Nat.mod_lt _ (by decide)
  rw [digit]
  generalize number % 10 = value at small
  interval_cases value <;> decide

theorem plus_notMem_digitsOf (moment : Moment) : '+' ∉ digitsOf moment := by
  simp [digitsOf, twoDigits, digit_ne_plus]

theorem length_digitsOf (moment : Moment) : (digitsOf moment).length = 15 := rfl

theorem spelling_eq {number : Nat} {text : List Char} (member : text ∈ spellings number)
    (unsigned : '+' ∉ text) : text = twoDigits number := by
  rw [spellings, List.mem_cons, List.mem_ite_nil_right, List.mem_singleton] at member
  rcases member with same | ⟨_, rfl⟩
  · exact same
  · exact absurd List.mem_cons_self unsigned

theorem yearSpelling_eq {year : Nat} {text : List Char} (member : text ∈ yearSpellings year)
    (plus : '+' ∉ text) (minus : text.head? ≠ some '-') :
    text = twoDigits (year / 100) ++ twoDigits year := by
  rw [yearSpellings, List.mem_cons, List.mem_append, List.mem_ite_nil_right,
    List.mem_ite_nil_right, List.mem_singleton, List.mem_singleton] at member
  rcases member with same | ⟨_, rfl⟩ | ⟨_, rfl⟩
  · exact same
  · exact absurd List.mem_cons_self plus
  · exact absurd rfl minus

/-- A spelling without a plus sign, and without a minus sign at its start, is made of digits. -/
theorem Spells.eq_digitsOf {moment : Moment} {text : List Char} (spells : Spells moment text)
    (plus : '+' ∉ text) (minus : text.head? ≠ some '-') : text = digitsOf moment := by
  obtain ⟨_, year, yearSpelled, month, monthSpelled, day, daySpelled, hour, hourSpelled, minute,
    minuteSpelled, second, secondSpelled, rfl⟩ := spells
  simp only [List.mem_append, List.mem_cons, not_or] at plus
  obtain ⟨⟨⟨yearPlus, monthPlus⟩, dayPlus⟩, _, ⟨hourPlus, minutePlus⟩, secondPlus⟩ := plus
  have yearMinus : year.head? ≠ some '-' := by
    intro sign
    apply minus
    rw [List.append_assoc, List.append_assoc, List.head?_append, sign, Option.some_or]
  rw [yearSpelling_eq yearSpelled yearPlus yearMinus, spelling_eq monthSpelled monthPlus,
    spelling_eq daySpelled dayPlus, spelling_eq hourSpelled hourPlus,
    spelling_eq minuteSpelled minutePlus, spelling_eq secondSpelled secondPlus, digitsOf]

theorem length_spelling {number : Nat} {text : List Char} (member : text ∈ spellings number) :
    text.length = 2 := by
  rw [spellings, List.mem_cons] at member
  rcases member with rfl | member
  · rfl
  · rw [List.mem_ite_nil_right, List.mem_singleton] at member
    rw [member.2]
    rfl

theorem length_yearSpelling {year : Nat} {text : List Char} (member : text ∈ yearSpellings year) :
    text.length = 4 := by
  rw [yearSpellings, List.mem_cons, List.mem_append, List.mem_ite_nil_right,
    List.mem_ite_nil_right, List.mem_singleton, List.mem_singleton] at member
  rcases member with rfl | ⟨_, rfl⟩ | ⟨_, rfl⟩ <;> rfl

/-! ## Numbers in bytes -/

/-- The bytes of a text. -/
def encode (text : List Char) : List UInt8 := text.flatMap String.utf8EncodeChar

/-- The byte of the last decimal digit of a number. -/
def digitByte (number : Nat) : UInt8 := UInt8.ofNat (48 + number % 10)

theorem encode_cons (character : Char) (text : List Char) :
    encode (character :: text) = String.utf8EncodeChar character ++ encode text := rfl

@[simp] theorem encode_nil : encode [] = [] := rfl

theorem encode_append (front rest : List Char) :
    encode (front ++ rest) = encode front ++ encode rest := List.flatMap_append

@[simp] theorem digitOf_digitByte (number : Nat) :
    digitOf (digitByte number) = some (number % 10) := by
  have byte : (digitByte number).toNat = 48 + number % 10 := by
    rw [digitByte, UInt8.toNat_ofNat']
    omega
  rw [digitOf, byte, if_pos]
  · exact congrArg some (Nat.add_sub_cancel_left ..)
  · simp only [Bool.and_eq_true, decide_eq_true_eq]
    omega

theorem digitOf_eq_some {byte : UInt8} {value : Nat} (found : digitOf byte = some value) :
    value < 10 ∧ byte = digitByte value := by
  rw [digitOf, Option.ite_none_right_eq_some, Option.some.injEq] at found
  simp only [Bool.and_eq_true, decide_eq_true_eq] at found
  obtain ⟨⟨least, greatest⟩, rfl⟩ := found
  refine ⟨by omega, UInt8.toNat_inj.mp ?_⟩
  rw [digitByte, UInt8.toNat_ofNat']
  omega

@[simp] theorem encode_digit_cons (number : Nat) (text : List Char) :
    encode (digit number :: text) = digitByte number :: encode text := by
  have small : number % 10 < 10 := Nat.mod_lt _ (by decide)
  rw [encode_cons, digit, digitByte]
  generalize number % 10 = value at small
  interval_cases value <;> rfl

@[simp] theorem encode_plus_cons (text : List Char) : encode ('+' :: text) = 43 :: encode text := rfl

@[simp] theorem encode_minus_cons (text : List Char) : encode ('-' :: text) = 45 :: encode text :=
  rfl

/-- So many decimal digits of a number. -/
def digitBytes : Nat → Nat → List UInt8
  | 0, _ => []
  | count + 1, number => digitBytes count (number / 10) ++ [digitByte number]

/-- The digits of a number are read back as it. -/
theorem foldlM_digitBytes (count number : Nat) :
    (digitBytes count number).foldlM (fun value byte => (digitOf byte).map (value * 10 + ·)) 0 =
      some (number % 10 ^ count) := by
  induction count generalizing number with
  | zero => simp [digitBytes, Nat.mod_one]
  | succ count induction =>
      have value : number / 10 % 10 ^ count * 10 + number % 10 = number % 10 ^ (count + 1) := by
        rw [Nat.pow_succ', Nat.mod_mul]
        omega
      rw [digitBytes, List.foldlM_append, induction]
      simp [value]

/-- Bytes which are read as a number are its digits. -/
theorem eq_digitBytes {bytes : List UInt8} {number : Nat}
    (read : bytes.foldlM (fun value byte => (digitOf byte).map (value * 10 + ·)) 0 =
      some number) :
    number < 10 ^ bytes.length ∧ bytes = digitBytes bytes.length number := by
  induction bytes using List.reverseRecOn generalizing number with
  | nil =>
      obtain rfl := Option.some.inj read
      exact ⟨by decide, rfl⟩
  | append_singleton front last induction =>
      rw [List.foldlM_append, Option.bind_eq_bind, Option.bind_eq_some_iff] at read
      obtain ⟨value, before, read⟩ := read
      simp only [List.foldlM_cons, List.foldlM_nil, bind_pure, Option.map_eq_some_iff] at read
      obtain ⟨ones, found, rfl⟩ := read
      obtain ⟨small, rfl⟩ := digitOf_eq_some found
      obtain ⟨frontSmall, same⟩ := induction before
      have tens : (value * 10 + ones) / 10 = value := by omega
      have unit : digitByte (value * 10 + ones) = digitByte ones := by
        rw [digitByte, digitByte, Nat.mul_add_mod']
      rw [List.length_append, List.length_singleton, digitBytes, tens, unit, ← same, Nat.pow_succ]
      exact ⟨by omega, rfl⟩

theorem parseDigits_digitBytes (count number : Nat) :
    parseDigits (digitBytes (count + 1) number) = some (number % 10 ^ (count + 1)) := by
  rw [parseDigits, if_neg, foldlM_digitBytes]
  simp [digitBytes]

theorem eq_digitBytes_of_parseDigits {bytes : List UInt8} {number : Nat}
    (parsed : parseDigits bytes = some number) :
    number < 10 ^ bytes.length ∧ bytes = digitBytes bytes.length number := by
  rw [parseDigits] at parsed
  split at parsed
  · cases parsed
  · exact eq_digitBytes parsed

theorem encode_twoDigits (number : Nat) : encode (twoDigits number) = digitBytes 2 number := by
  simp [twoDigits, digitBytes]

theorem encode_fourDigits (number : Nat) :
    encode (twoDigits (number / 100) ++ twoDigits number) = digitBytes 4 number := by
  simp [twoDigits, digitBytes, Nat.div_div_eq_div_mul]

theorem encode_threeDigits (number : Nat) :
    encode (digit (number / 100) :: twoDigits number) = digitBytes 3 number := by
  simp [twoDigits, digitBytes, Nat.div_div_eq_div_mul]

/-! ## Signs -/

theorem digitByte_ne_sign (number : Nat) : digitByte number ≠ 43 ∧ digitByte number ≠ 45 := by
  have small : number % 10 < 10 := Nat.mod_lt _ (by decide)
  rw [digitByte]
  generalize number % 10 = value at small
  interval_cases value <;> decide

/-- Digits have no sign at their start. -/
theorem exists_digitBytes_cons (count number : Nat) :
    ∃ first rest, digitBytes (count + 1) number = first :: rest ∧ first ≠ 43 ∧ first ≠ 45 := by
  induction count generalizing number with
  | zero => exact ⟨_, _, rfl, digitByte_ne_sign number⟩
  | succ count induction =>
      obtain ⟨first, rest, same, unsigned⟩ := induction (number / 10)
      refine ⟨first, rest ++ [digitByte number], ?_, unsigned⟩
      rw [digitBytes, same, List.cons_append]

theorem parseU8_of_unsigned {byte : UInt8} {rest : List UInt8} (unsigned : byte ≠ 43) :
    parseU8 (byte :: rest) = parseDigits (byte :: rest) := by
  rw [parseU8.eq_def]
  split
  · simp_all
  · rfl

theorem parseI32_plus (digits : List UInt8) :
    parseI32 (43 :: digits) = (parseDigits digits).map Nat.cast := by
  rw [parseI32]
  cases parseDigits digits <;> rfl

theorem parseI32_minus (digits : List UInt8) :
    parseI32 (45 :: digits) =
      Option.map (fun number : Nat => -(number : Int)) (parseDigits digits) := by
  rw [parseI32]
  cases parseDigits digits <;> rfl

theorem parseI32_of_unsigned {byte : UInt8} {rest : List UInt8} (plus : byte ≠ 43)
    (minus : byte ≠ 45) :
    parseI32 (byte :: rest) = (parseDigits (byte :: rest)).map Nat.cast := by
  rw [parseI32.eq_def]
  split
  · simp_all
  · simp_all
  · cases parseDigits (byte :: rest) <;> rfl

theorem parseU8_digitBytes (count number : Nat) :
    parseU8 (digitBytes (count + 1) number) = some (number % 10 ^ (count + 1)) := by
  rw [← parseDigits_digitBytes]
  obtain ⟨first, rest, same, plus, _⟩ := exists_digitBytes_cons count number
  rw [same, parseU8_of_unsigned plus]

theorem parseI32_digitBytes (count number : Nat) :
    parseI32 (digitBytes (count + 1) number) = some ((number % 10 ^ (count + 1) : Nat) : Int) := by
  have read := parseDigits_digitBytes count number
  obtain ⟨first, rest, same, plus, minus⟩ := exists_digitBytes_cons count number
  rw [same] at read ⊢
  rw [parseI32_of_unsigned plus minus, read, Option.map_some]

theorem parseU8_encode {number : Nat} (small : number < 100) {text : List Char}
    (member : text ∈ spellings number) : parseU8 (encode text) = some number := by
  rw [spellings, List.mem_cons] at member
  rcases member with rfl | member
  · rw [encode_twoDigits, parseU8_digitBytes]
    exact congrArg some (Nat.mod_eq_of_lt small)
  · rw [List.mem_ite_nil_right, List.mem_singleton] at member
    obtain ⟨single, rfl⟩ := member
    have read := parseDigits_digitBytes 0 number
    rw [encode_plus_cons, encode_digit_cons, encode_nil]
    exact read.trans (congrArg some (Nat.mod_eq_of_lt single))

/-- Two bytes which are read as a number spell it. -/
theorem exists_spelling {bytes : List UInt8} {number : Nat} (two : bytes.length = 2)
    (parsed : parseU8 bytes = some number) : ∃ text ∈ spellings number, encode text = bytes := by
  obtain ⟨first, second, rfl⟩ := List.length_eq_two.mp two
  by_cases sign : first = 43
  · subst sign
    obtain ⟨single, same⟩ := eq_digitBytes_of_parseDigits parsed
    have short : number < 10 := single
    refine ⟨['+', digit number], ?_, ?_⟩
    · rw [spellings, if_pos short]
      exact List.mem_cons_of_mem _ List.mem_cons_self
    · rw [encode_plus_cons, encode_digit_cons, encode_nil, same]
      rfl
  · rw [parseU8_of_unsigned sign] at parsed
    obtain ⟨_, same⟩ := eq_digitBytes_of_parseDigits parsed
    refine ⟨twoDigits number, List.mem_cons_self, ?_⟩
    rw [encode_twoDigits, same]
    rfl

theorem parseI32_encode {year : Nat} (small : year < 10000) {text : List Char}
    (member : text ∈ yearSpellings year) : parseI32 (encode text) = some (year : Int) := by
  rw [yearSpellings, List.mem_cons, List.mem_append, List.mem_ite_nil_right,
    List.mem_ite_nil_right, List.mem_singleton, List.mem_singleton] at member
  rcases member with rfl | ⟨short, rfl⟩ | ⟨rfl, rfl⟩
  · rw [encode_fourDigits, parseI32_digitBytes]
    exact congrArg (fun value : Nat => some (value : Int)) (Nat.mod_eq_of_lt small)
  · rw [encode_plus_cons, encode_threeDigits, parseI32_plus, parseDigits_digitBytes]
    exact congrArg (fun value : Nat => some (value : Int)) (Nat.mod_eq_of_lt short)
  · rfl

/-- Four bytes which are read as a year which is not negative spell it. -/
theorem exists_yearSpelling {bytes : List UInt8} {year : Int} (four : bytes.length = 4)
    (parsed : parseI32 bytes = some year) (positive : 0 ≤ year) :
    ∃ text ∈ yearSpellings year.toNat, encode text = bytes := by
  obtain ⟨first, rest, rfl⟩ := List.exists_cons_of_length_eq_add_one four
  rw [List.length_cons, Nat.add_right_cancel_iff] at four
  rw [yearSpellings]
  simp only [List.mem_cons, List.mem_append, List.mem_ite_nil_right, List.not_mem_nil, or_false]
  by_cases plus : first = 43
  · subst plus
    rw [parseI32_plus] at parsed
    obtain ⟨number, digits, rfl⟩ := Option.map_eq_some_iff.mp parsed
    obtain ⟨short, same⟩ := eq_digitBytes_of_parseDigits digits
    rw [four] at short same
    refine ⟨'+' :: digit (number / 100) :: twoDigits number, .inr (.inl ⟨short, rfl⟩), ?_⟩
    rw [encode_plus_cons, encode_threeDigits, ← same]
  · by_cases minus : first = 45
    · subst minus
      rw [parseI32_minus] at parsed
      obtain ⟨number, digits, rfl⟩ := Option.map_eq_some_iff.mp parsed
      obtain ⟨_, same⟩ := eq_digitBytes_of_parseDigits digits
      obtain rfl : number = 0 := by omega
      rw [four] at same
      exact ⟨_, .inr (.inr ⟨rfl, rfl⟩), congrArg (45 :: ·) same.symm⟩
    · rw [parseI32_of_unsigned plus minus] at parsed
      obtain ⟨number, digits, rfl⟩ := Option.map_eq_some_iff.mp parsed
      obtain ⟨_, same⟩ := eq_digitBytes_of_parseDigits digits
      rw [List.length_cons, four] at same
      refine ⟨_, .inl rfl, ?_⟩
      rw [encode_fourDigits, same]
      rfl

/-! ## Names -/

theorem utf8Size_digit (number : Nat) : (digit number).utf8Size = 1 := by
  have small : number % 10 < 10 := Nat.mod_lt _ (by decide)
  rw [digit]
  generalize number % 10 = value at small
  interval_cases value <;> rfl

theorem utf8Size_plus : '+'.utf8Size = 1 := rfl

theorem utf8Size_minus : '-'.utf8Size = 1 := rfl

theorem narrow_spelling {number : Nat} {text : List Char} (member : text ∈ spellings number) :
    ∀ character ∈ text, character.utf8Size = 1 := by
  rw [spellings, List.mem_cons, List.mem_ite_nil_right, List.mem_singleton] at member
  rcases member with rfl | ⟨_, rfl⟩
  · simp [twoDigits, utf8Size_digit]
  · simp [utf8Size_digit, utf8Size_plus]

theorem narrow_yearSpelling {year : Nat} {text : List Char} (member : text ∈ yearSpellings year) :
    ∀ character ∈ text, character.utf8Size = 1 := by
  rw [yearSpellings, List.mem_cons, List.mem_append, List.mem_ite_nil_right,
    List.mem_ite_nil_right, List.mem_singleton, List.mem_singleton] at member
  rcases member with rfl | ⟨_, rfl⟩ | ⟨_, rfl⟩
  · simp [twoDigits, utf8Size_digit]
  · simp [twoDigits, utf8Size_digit, utf8Size_plus]
  · simp [twoDigits, utf8Size_digit, utf8Size_minus]

/-- Spellings are made of ASCII. -/
theorem Spells.narrow {moment : Moment} {text : List Char} (spells : Spells moment text) :
    ∀ character ∈ text, character.utf8Size = 1 := by
  obtain ⟨_, year, yearSpelled, month, monthSpelled, day, daySpelled, hour, hourSpelled, minute,
    minuteSpelled, second, secondSpelled, rfl⟩ := spells
  intro character member
  simp only [List.mem_append, List.mem_cons] at member
  rcases member with ((within | within) | within) | rfl | (within | within) | within
  · exact narrow_yearSpelling yearSpelled character within
  · exact narrow_spelling monthSpelled character within
  · exact narrow_spelling daySpelled character within
  · rfl
  · exact narrow_spelling hourSpelled character within
  · exact narrow_spelling minuteSpelled character within
  · exact narrow_spelling secondSpelled character within

theorem Spells.length {moment : Moment} {text : List Char} (spells : Spells moment text) :
    text.length = 15 := by
  obtain ⟨_, year, yearSpelled, month, monthSpelled, day, daySpelled, hour, hourSpelled, minute,
    minuteSpelled, second, secondSpelled, rfl⟩ := spells
  simp only [List.length_append, List.length_cons, length_yearSpelling yearSpelled,
    length_spelling monthSpelled, length_spelling daySpelled, length_spelling hourSpelled,
    length_spelling minuteSpelled, length_spelling secondSpelled]

theorem length_encode {text : List Char} (narrow : ∀ character ∈ text, character.utf8Size = 1) :
    (encode text).length = text.length := by
  rw [encode, ← utf8Bytes_ofList, length_utf8Bytes, byteLen_ofList_of_ascii narrow]

theorem utf8Bytes_eq_encode (name : String) : utf8Bytes name = encode name.toList := by
  rw [encode, ← utf8Bytes_ofList, String.ofList_toList]

theorem byteRange_add (bytes : List UInt8) (start first second : Nat) :
    byteRange bytes start (first + second) =
      byteRange bytes start first ++ byteRange bytes (start + first) second := by
  rw [byteRange, byteRange, byteRange, List.take_add, List.drop_drop]

theorem length_byteRange {bytes : List UInt8} {start count : Nat}
    (within : start + count ≤ bytes.length) : (byteRange bytes start count).length = count := by
  rw [byteRange, List.length_take, List.length_drop]
  omega

theorem byteRange_middle (front rest : List UInt8) {field : List UInt8} {start count : Nat}
    (before : front.length = start) (length : field.length = count) :
    byteRange (front ++ (field ++ rest)) start count = field := by
  rw [byteRange, ← before, ← length, List.drop_left, List.take_left]

/-- The six fields of fifteen bytes, with a hyphen in their middle. -/
theorem take_fields {bytes : List UInt8} (hyphen : bytes[8]? = some 45) :
    bytes.take 15 = byteRange bytes 0 4 ++ byteRange bytes 4 2 ++ byteRange bytes 6 2 ++
      45 :: (byteRange bytes 9 2 ++ byteRange bytes 11 2 ++ byteRange bytes 13 2) := by
  have middle : byteRange bytes 8 1 = [45] := by
    obtain ⟨within, byte⟩ := List.getElem?_eq_some_iff.mp hyphen
    rw [byteRange, List.drop_eq_getElem_cons within, byte]
    rfl
  calc
    bytes.take 15 = byteRange bytes 0 15 := rfl
    _ = byteRange bytes 0 4 ++ (byteRange bytes 4 2 ++ (byteRange bytes 6 2 ++
        (byteRange bytes 8 1 ++ (byteRange bytes 9 2 ++ (byteRange bytes 11 2 ++
          byteRange bytes 13 2))))) := by
      rw [← byteRange_add bytes 11 2 2, ← byteRange_add bytes 9 2 4, ← byteRange_add bytes 8 1 6,
        ← byteRange_add bytes 6 2 7, ← byteRange_add bytes 4 2 9, ← byteRange_add bytes 0 4 11]
    _ = _ := by rw [middle]; simp only [List.append_assoc, List.singleton_append]

/-- Bytes which begin with six fields and a hyphen in their middle. -/
structure Fields (bytes year month day hour minute second : List UInt8) : Prop where
  long : 15 ≤ bytes.length
  hyphen : bytes[8]? = some 45
  year : byteRange bytes 0 4 = year
  month : byteRange bytes 4 2 = month
  day : byteRange bytes 6 2 = day
  hour : byteRange bytes 9 2 = hour
  minute : byteRange bytes 11 2 = minute
  second : byteRange bytes 13 2 = second

theorem Fields.of_append {year month day hour minute second : List UInt8} (rest : List UInt8)
    (four : year.length = 4) (months : month.length = 2) (days : day.length = 2)
    (hours : hour.length = 2) (minutes : minute.length = 2) (seconds : second.length = 2) :
    Fields (year ++ month ++ day ++ 45 :: (hour ++ minute ++ second) ++ rest) year month day hour
      minute second := by
  have front : (year ++ month ++ day).length = 8 := by
    simp only [List.length_append, four, months, days]
  constructor
  · simp only [List.length_append, List.length_cons, four, months, days, hours, minutes, seconds]
    omega
  · rw [List.append_assoc, List.cons_append, List.getElem?_append_right (by omega), front]
    rfl
  · simpa using byteRange_middle [] (month ++ (day ++ (45 :: (hour ++ (minute ++ (second ++ rest))))))
      rfl four
  · simpa using byteRange_middle year (day ++ (45 :: (hour ++ (minute ++ (second ++ rest))))) four
      months
  · have before : (year ++ month).length = 6 := by simp [four, months]
    simpa using byteRange_middle (year ++ month) (45 :: (hour ++ (minute ++ (second ++ rest))))
      before days
  · have before : (year ++ month ++ day ++ [45]).length = 9 := by simp [four, months, days]
    simpa using byteRange_middle (year ++ month ++ day ++ [45]) (minute ++ (second ++ rest)) before
      hours
  · have before : (year ++ month ++ day ++ [45] ++ hour).length = 11 := by
      simp [four, months, days, hours]
    simpa using byteRange_middle (year ++ month ++ day ++ [45] ++ hour) (second ++ rest) before
      minutes
  · have before : (year ++ month ++ day ++ [45] ++ hour ++ minute).length = 13 := by
      simp [four, months, days, hours, minutes]
    simpa using byteRange_middle (year ++ month ++ day ++ [45] ++ hour ++ minute) rest before
      seconds

section

variable {platform : SourcePlatform} {moment : platform.OffsetDateTime → Moment}

/-- `Date::from_calendar_date`, `Time::from_hms` and `assume_utc` give the moment of their
numbers. -/
def SourcePlatform.KeepsCalendar (platform : SourcePlatform)
    (moment : platform.OffsetDateTime → Moment) : Prop :=
  ∀ year month day hour minute second,
    (platform.fromCalendar year month day hour minute second).map moment =
      Moment.ofNumbers year month day hour minute second

/-- A recognized name begins with a spelling of the moment which is written. -/
theorem spells_of_filenameTimestamp (keeps : platform.KeepsTime moment)
    (calendar : platform.KeepsCalendar moment) {name text : String}
    (recognized : filenameTimestamp platform name = some text) :
    ∃ (utc : Moment) (front : List Char), utc.IsUtcSecond ∧ Spells utc front ∧
      front <+: name.toList ∧ utc.render = some text := by
  rw [filenameTimestamp] at recognized
  split at recognized
  · cases recognized
  · rename_i shape
    simp only [Bool.or_eq_true, decide_eq_true_eq, bne_iff_ne, ne_eq, not_or, Nat.not_lt,
      not_not] at shape
    obtain ⟨long, hyphen⟩ := shape
    simp only [Option.bind_eq_bind, Option.bind_eq_some_iff] at recognized
    obtain ⟨year, yearRead, month, monthRead, day, dayRead, hour, hourRead, minute, minuteRead,
      second, secondRead, instant, found, formatted⟩ := recognized
    have built := calendar year month day hour minute second
    rw [found, Option.map_some] at built
    obtain ⟨utc, shows⟩ := Moment.ofNumbers_eq_some built.symm
    rw [keeps.format instant utc] at formatted
    have positive : 0 ≤ (moment instant).date.year := by
      by_contra negative
      rw [(Moment.render_eq_none_iff utc.offset).mpr (Int.not_le.mp negative)] at formatted
      cases formatted
    obtain ⟨rfl, rfl, rfl, rfl, rfl, rfl⟩ := shows
    obtain ⟨yearText, yearSpelled, yearBytes⟩ :=
      exists_yearSpelling (length_byteRange (by omega)) yearRead positive
    obtain ⟨monthText, monthSpelled, monthBytes⟩ :=
      exists_spelling (length_byteRange (by omega)) monthRead
    obtain ⟨dayText, daySpelled, dayBytes⟩ :=
      exists_spelling (length_byteRange (by omega)) dayRead
    obtain ⟨hourText, hourSpelled, hourBytes⟩ :=
      exists_spelling (length_byteRange (by omega)) hourRead
    obtain ⟨minuteText, minuteSpelled, minuteBytes⟩ :=
      exists_spelling (length_byteRange (by omega)) minuteRead
    obtain ⟨secondText, secondSpelled, secondBytes⟩ :=
      exists_spelling (length_byteRange (by omega)) secondRead
    have spells : Spells (moment instant) (yearText ++ monthText ++ dayText ++
        '-' :: (hourText ++ minuteText ++ secondText)) :=
      ⟨positive, yearText, yearSpelled, monthText, monthSpelled, dayText, daySpelled, hourText,
        hourSpelled, minuteText, minuteSpelled, secondText, secondSpelled, rfl⟩
    refine ⟨moment instant, _, utc, spells, ?_, formatted⟩
    rw [← isPrefix_bytes_iff spells.narrow]
    have bytes := take_fields hyphen
    rw [← yearBytes, ← monthBytes, ← dayBytes, ← hourBytes, ← minuteBytes, ← secondBytes] at bytes
    have encoded : encode (yearText ++ monthText ++ dayText ++
        '-' :: (hourText ++ minuteText ++ secondText)) = (utf8Bytes name).take 15 := by
      rw [bytes, encode_append, encode_append, encode_append, encode_minus_cons, encode_append,
        encode_append]
    change encode _ <+: encode name.toList
    rw [encoded, ← utf8Bytes_eq_encode]
    exact List.take_prefix 15 _

/-- A name which begins with a spelling of a moment is recognized. -/
theorem filenameTimestamp_of_spells (keeps : platform.KeepsTime moment)
    (calendar : platform.KeepsCalendar moment) {name text : String} {utc : Moment}
    {front : List Char} (second : utc.IsUtcSecond) (spells : Spells utc front)
    (starts : front <+: name.toList) (rendered : utc.render = some text) :
    filenameTimestamp platform name = some text := by
  have built := calendar utc.date.year utc.date.month utc.date.day (utc.second / 3600)
    (utc.second / 60 % 60) (utc.second % 60)
  rw [Moment.ofNumbers_of_shown second, Option.map_eq_some_iff] at built
  obtain ⟨instant, found, same⟩ := built
  have formatted := keeps.format instant (same ▸ second)
  rw [same, rendered] at formatted
  obtain ⟨⟨_, yearAtMost⟩, ⟨_, monthAtMost⟩, _, dayInMonth⟩ := utc.date.valid
  have dayAtMost := daysInMonth_le utc.date.year utc.date.month
  have inDay := utc.valid.1
  obtain ⟨rest, bytes⟩ := (isPrefix_bytes_iff spells.narrow).mpr starts
  obtain ⟨positive, yearText, yearSpelled, monthText, monthSpelled, dayText, daySpelled, hourText,
    hourSpelled, minuteText, minuteSpelled, secondText, secondSpelled, rfl⟩ := spells
  change encode _ ++ rest = encode name.toList at bytes
  rw [← utf8Bytes_eq_encode, encode_append, encode_append, encode_append, encode_minus_cons,
    encode_append, encode_append] at bytes
  have yearRead : parseI32 (encode yearText) = some utc.date.year := by
    rw [parseI32_encode (by omega) yearSpelled, Int.toNat_of_nonneg positive]
  have monthRead := parseU8_encode (by omega) monthSpelled
  have dayRead := parseU8_encode (by omega) daySpelled
  have hourRead := parseU8_encode (by omega) hourSpelled
  have minuteRead := parseU8_encode (by omega) minuteSpelled
  have secondRead := parseU8_encode (by omega) secondSpelled
  have fields := Fields.of_append rest
    ((length_encode (narrow_yearSpelling yearSpelled)).trans (length_yearSpelling yearSpelled))
    ((length_encode (narrow_spelling monthSpelled)).trans (length_spelling monthSpelled))
    ((length_encode (narrow_spelling daySpelled)).trans (length_spelling daySpelled))
    ((length_encode (narrow_spelling hourSpelled)).trans (length_spelling hourSpelled))
    ((length_encode (narrow_spelling minuteSpelled)).trans (length_spelling minuteSpelled))
    ((length_encode (narrow_spelling secondSpelled)).trans (length_spelling secondSpelled))
  rw [bytes] at fields
  rw [filenameTimestamp, if_neg]
  · rw [fields.year, fields.month, fields.day, fields.hour, fields.minute, fields.second, yearRead,
      monthRead, dayRead, hourRead, minuteRead, secondRead]
    exact (congrArg (Option.bind · platform.formatRfc3339) found).trans formatted
  · simp [fields.hyphen, Nat.not_lt.mpr fields.long]

/-! ## Recognized names -/

/-- The names which begin with the digits of a moment are recognized, as it, and no other name is;
what is written is valid metadata. -/
structure RecognizesDigits (platform : SourcePlatform) (name : String) : Prop where
  digits : ∀ text, filenameTimestamp platform name = some text ↔
    ∃ utc : Moment, utc.IsUtcSecond ∧ digitsOf utc <+: name.toList ∧ utc.render = some text
  valid : ∀ text, filenameTimestamp platform name = some text →
    NormalizedMetadata.isValid platform.toPlatform
      { NormalizedMetadata.empty with takenAtUtc := some text } = true

/-- A name is recognized as documented exactly when no spelling at its start has a sign. -/
theorem filenameTimestamp_digits_iff (keeps : platform.KeepsTime moment)
    (calendar : platform.KeepsCalendar moment) (name : String) :
    RecognizesDigits platform name ↔
      ∀ (utc : Moment) (front : List Char), utc.IsUtcSecond → Spells utc front →
        front <+: name.toList → front = digitsOf utc := by
  constructor
  · intro recognizes utc front second spells starts
    cases rendered : utc.render with
    | none =>
        rw [Moment.render_eq_none_iff second.offset] at rendered
        exact absurd spells.1 (Int.not_le.mpr rendered)
    | some text =>
        have recognized := filenameTimestamp_of_spells keeps calendar second spells starts rendered
        obtain ⟨other, otherSecond, digits, same⟩ := (recognizes.digits text).mp recognized
        have first := Moment.parse_render second rendered
        rw [Moment.parse_render otherSecond same, Option.some.injEq] at first
        subst first
        have length : front.length = (digitsOf other).length :=
          spells.length.trans (length_digitsOf other).symm
        exact (List.prefix_of_prefix_length_le starts digits length.le).eq_of_length length
  · intro unsigned
    refine ⟨fun text => ⟨fun recognized => ?_, ?_⟩, fun text recognized => ?_⟩
    · obtain ⟨utc, front, second, spells, starts, rendered⟩ :=
        spells_of_filenameTimestamp keeps calendar recognized
      rw [unsigned utc front second spells starts] at starts
      exact ⟨utc, second, starts, rendered⟩
    · rintro ⟨utc, second, starts, rendered⟩
      have positive : 0 ≤ utc.date.year := by
        by_contra negative
        rw [(Moment.render_eq_none_iff second.offset).mpr (Int.not_le.mp negative)] at rendered
        cases rendered
      exact filenameTimestamp_of_spells keeps calendar second (.digits positive) starts rendered
    · obtain ⟨utc, front, second, _, _, rendered⟩ :=
        spells_of_filenameTimestamp keeps calendar recognized
      exact keeps.isValid second rendered

end

/-- The reference sources with moments as their instants. -/
def SourcePlatform.calendar : SourcePlatform :=
  { SourcePlatform.reference with
    toPlatform := SourcePlatform.reference.toPlatform.withMoments
    fromUnixTimestamp := Moment.ofSeconds
    fromCalendar := Moment.ofNumbers }

theorem SourcePlatform.calendar_keepsCalendar : SourcePlatform.calendar.KeepsCalendar id :=
  fun _ _ _ _ _ _ => Option.map_id_apply

/-- A name of digits is recognized as documented. -/
theorem sampleName_recognized :
    RecognizesDigits SourcePlatform.calendar "20260102-030405.jpg" := by
  apply (filenameTimestamp_digits_iff (Platform.withMoments_keepsTime _)
    SourcePlatform.calendar_keepsCalendar _).mpr
  intro utc front _ spells starts
  have characters := List.prefix_iff_eq_take.mp starts
  rw [spells.length] at characters
  subst characters
  exact spells.eq_digitsOf (by decide) (by decide)

/-- A name with signs for leading zeros is recognized as well. -/
theorem sampleName_signed :
    ¬ RecognizesDigits SourcePlatform.calendar "2026+1+2-+3+4+5.jpg" := by
  intro recognizes
  have recognized : filenameTimestamp SourcePlatform.calendar "2026+1+2-+3+4+5.jpg" =
      some "2026-01-02T03:04:05Z" := by decide
  obtain ⟨utc, _, digits, _⟩ := (recognizes.digits _).mp recognized
  have characters := List.prefix_iff_eq_take.mp digits
  apply plus_notMem_digitsOf utc
  rw [characters, length_digitsOf]
  decide

end ImmichRs
