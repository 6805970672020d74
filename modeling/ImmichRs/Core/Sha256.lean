import ImmichRs.Core.Metadata
import Mathlib.Tactic.IntervalCases

/-!
# A reference digest

SHA-256 on lists of bytes, with 32-bit words as natural numbers below `2 ^ 32`.  The model is
generic in the digest; this one evaluates plans and checkpoints on concrete inputs.
-/

namespace ImmichRs

namespace Sha256

/-- Addition of 32-bit words. -/
def add (left right : Nat) : Nat := (left + right) % 2 ^ 32

/-- Right rotation of a 32-bit word. -/
def rotr (value shift : Nat) : Nat := (value >>> shift) ||| ((value <<< (32 - shift)) % 2 ^ 32)

/-- The round constants. -/
def constants : List Nat :=
  [0x428a2f98, 0x71374491, 0xb5c0fbcf, 0xe9b5dba5, 0x3956c25b, 0x59f111f1, 0x923f82a4, 0xab1c5ed5,
    0xd807aa98, 0x12835b01, 0x243185be, 0x550c7dc3, 0x72be5d74, 0x80deb1fe, 0x9bdc06a7, 0xc19bf174,
    0xe49b69c1, 0xefbe4786, 0x0fc19dc6, 0x240ca1cc, 0x2de92c6f, 0x4a7484aa, 0x5cb0a9dc, 0x76f988da,
    0x983e5152, 0xa831c66d, 0xb00327c8, 0xbf597fc7, 0xc6e00bf3, 0xd5a79147, 0x06ca6351, 0x14292967,
    0x27b70a85, 0x2e1b2138, 0x4d2c6dfc, 0x53380d13, 0x650a7354, 0x766a0abb, 0x81c2c92e, 0x92722c85,
    0xa2bfe8a1, 0xa81a664b, 0xc24b8b70, 0xc76c51a3, 0xd192e819, 0xd6990624, 0xf40e3585, 0x106aa070,
    0x19a4c116, 0x1e376c08, 0x2748774c, 0x34b0bcb5, 0x391c0cb3, 0x4ed8aa4a, 0x5b9cca4f, 0x682e6ff3,
    0x748f82ee, 0x78a5636f, 0x84c87814, 0x8cc70208, 0x90befffa, 0xa4506ceb, 0xbef9a3f7, 0xc67178f2]

/-- The eight chaining words. -/
structure State where
  a : Nat
  b : Nat
  c : Nat
  d : Nat
  e : Nat
  f : Nat
  g : Nat
  h : Nat

/-- The initial chaining words. -/
def initial : State :=
  ⟨0x6a09e667, 0xbb67ae85, 0x3c6ef372, 0xa54ff53a, 0x510e527f, 0x9b05688c, 0x1f83d9ab, 0x5be0cd19⟩

/-- One round with its constant and schedule word. -/
def round (state : State) (constant word : Nat) : State :=
  let sum1 := rotr state.e 6 ^^^ rotr state.e 11 ^^^ rotr state.e 25
  let choice := (state.e &&& state.f) ^^^ ((2 ^ 32 - 1 - state.e) &&& state.g)
  let first := add (add (add state.h sum1) (add choice constant)) word
  let sum0 := rotr state.a 2 ^^^ rotr state.a 13 ^^^ rotr state.a 22
  let majority := (state.a &&& state.b) ^^^ (state.a &&& state.c) ^^^ (state.b &&& state.c)
  ⟨add first (add sum0 majority), state.a, state.b, state.c, add state.d first, state.e, state.f,
    state.g⟩

/-- The schedule word which follows a window of sixteen words. -/
def nextWord (window : List Nat) : Nat :=
  let w15 := window.getD 1 0
  let w2 := window.getD 14 0
  let sigma0 := rotr w15 7 ^^^ rotr w15 18 ^^^ (w15 >>> 3)
  let sigma1 := rotr w2 17 ^^^ rotr w2 19 ^^^ (w2 >>> 10)
  add (add (window.getD 0 0) sigma0) (add (window.getD 9 0) sigma1)

/-- Run the rounds over the constants with a sliding window of schedule words. -/
def rounds : List Nat → List Nat → State → State
  | [], _, state => state
  | constant :: rest, window, state =>
      rounds rest (window.tail ++ [nextWord window]) (round state constant (window.headD 0))

/-- Absorb one block of sixteen words. -/
def compress (state : State) (block : List Nat) : State :=
  let mixed := rounds constants block state
  ⟨add state.a mixed.a, add state.b mixed.b, add state.c mixed.c, add state.d mixed.d,
    add state.e mixed.e, add state.f mixed.f, add state.g mixed.g, add state.h mixed.h⟩

/-- Four big-endian bytes as one word, repeatedly. -/
def words : List UInt8 → List Nat
  | a :: b :: c :: d :: rest =>
      (a.toNat * 2 ^ 24 + b.toNat * 2 ^ 16 + c.toNat * 2 ^ 8 + d.toNat) :: words rest
  | _ => []

/-- A message with its one bit, zero padding and 64-bit length. -/
def padded (message : List UInt8) : List UInt8 :=
  let bits := message.length * 8
  message ++ [0x80] ++ List.replicate ((119 - message.length % 64) % 64) 0 ++
    [56, 48, 40, 32, 24, 16, 8, 0].map fun shift => UInt8.ofNat (bits / 2 ^ shift)

/-- Absorb consecutive blocks. -/
def absorb : Nat → List Nat → State → State
  | 0, _, state => state
  | blocks + 1, message, state =>
      absorb blocks (message.drop 16) (compress state (message.take 16))

/-- A hexadecimal digit in lower case. -/
def hexDigit (value : Nat) : Char :=
  ['0', '1', '2', '3', '4', '5', '6', '7', '8', '9', 'a', 'b', 'c', 'd', 'e', 'f'].getD value '0'

/-- The hexadecimal digits of a word. -/
def hexWord (word : Nat) : List Char :=
  [28, 24, 20, 16, 12, 8, 4, 0].map fun shift => hexDigit (word / 2 ^ shift % 16)

theorem hexDigit_lower (value : Nat) :
    (isAsciiDigit (hexDigit value) ||
      ('a' ≤ hexDigit value && hexDigit value ≤ 'f')) = true ∧ (hexDigit value).utf8Size = 1 := by
  by_cases small : value < 16
  · interval_cases value <;> decide
  · have large : hexDigit value = '0' := by
      rw [hexDigit, List.getD_eq_getElem?_getD, List.getElem?_eq_none (by simpa using small)]
      rfl
    rw [large]
    decide

end Sha256

/-- The digits of a digest. -/
def sha256Digits (message : List UInt8) : List Char :=
  let padded := Sha256.padded message
  let final := Sha256.absorb (padded.length / 64) (Sha256.words padded) Sha256.initial
  [final.a, final.b, final.c, final.d, final.e, final.f, final.g, final.h].flatMap Sha256.hexWord

/-- Lower-case hexadecimal SHA-256 of a message. -/
def sha256Hex (message : List UInt8) : String := String.ofList (sha256Digits message)

theorem exists_of_mem_sha256Digits {message : List UInt8} {digit : Char}
    (member : digit ∈ sha256Digits message) : ∃ value, digit = Sha256.hexDigit value := by
  obtain ⟨word, _, listed⟩ := List.mem_flatMap.mp member
  obtain ⟨shift, _, equal⟩ := List.mem_map.mp listed
  exact ⟨_, equal.symm⟩

/-- Every digest has the form which the validators ask for. -/
theorem isLowerSha256_sha256Hex (message : List UInt8) :
    isLowerSha256 (sha256Hex message) = true := by
  have length : byteLen (sha256Hex message) = 64 := by
    rw [sha256Hex, byteLen_ofList_of_ascii]
    · rfl
    · intro digit member
      obtain ⟨value, rfl⟩ := exists_of_mem_sha256Digits member
      exact (Sha256.hexDigit_lower value).2
  rw [isLowerSha256, length, Bool.and_eq_true]
  refine ⟨rfl, List.all_eq_true.mpr fun digit member => ?_⟩
  rw [sha256Hex, String.toList_ofList] at member
  obtain ⟨value, rfl⟩ := exists_of_mem_sha256Digits member
  exact (Sha256.hexDigit_lower value).1

example : sha256Hex (utf8Bytes "abc") =
    "ba7816bf8f01cfea414140de5dae2223b00361a396177a9cb410ff61f20015ad" := by
  decide +kernel

theorem isSha256_of_isLowerSha256 {value : String} (lower : isLowerSha256 value = true) :
    isSha256 value = true := by
  simp only [isLowerSha256, isSha256, isAsciiHexdigit, Bool.and_eq_true, List.all_eq_true] at lower ⊢
  refine ⟨lower.1, fun digit member => ?_⟩
  rw [lower.2 digit member, Bool.true_or]

/-- The platform restricted to integral decimals and to the Unix epoch. -/
def Platform.reference : Platform where
  F64 := Int
  parseF64 := String.toInt?
  isFinite _ := true
  isZero number := number == 0
  withinRange minimum maximum number := decide (minimum ≤ number) && decide (number ≤ maximum)
  displayF64 number := toString number
  OffsetDateTime := Unit
  parseRfc3339 value := if value == "1970-01-01T00:00:00Z" then some () else none
  formatRfc3339 _ := some "1970-01-01T00:00:00Z"
  unixTimestampNanos _ := 0
  sha256 := sha256Hex

end ImmichRs
