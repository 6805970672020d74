import ImmichRs.Core.Sha256

/-!
# A reference SHA-1

SHA-1 in base 64, the checksum by which the server knows a file.
-/

namespace ImmichRs

namespace Sha1

/-- Left rotation of a 32-bit word. -/
def rotl (value shift : Nat) : Nat := Sha256.rotr value (32 - shift)

/-- The five chaining words. -/
structure State where
  a : Nat
  b : Nat
  c : Nat
  d : Nat
  e : Nat

/-- The initial chaining words. -/
def initial : State := ⟨0x67452301, 0xefcdab89, 0x98badcfe, 0x10325476, 0xc3d2e1f0⟩

/-- The round function and constant of a quarter of the rounds. -/
def mix (quarter : Nat) (state : State) : Nat × Nat :=
  match quarter with
  | 0 => ((state.b &&& state.c) ||| ((2 ^ 32 - 1 - state.b) &&& state.d), 0x5a827999)
  | 1 => (state.b ^^^ state.c ^^^ state.d, 0x6ed9eba1)
  | 2 => ((state.b &&& state.c) ||| (state.b &&& state.d) ||| (state.c &&& state.d), 0x8f1bbcdc)
  | _ => (state.b ^^^ state.c ^^^ state.d, 0xca62c1d6)

/-- One round with its schedule word. -/
def round (state : State) (quarter word : Nat) : State :=
  let (value, constant) := mix quarter state
  ⟨Sha256.add (Sha256.add (rotl state.a 5) value)
      (Sha256.add (Sha256.add state.e constant) word),
    state.a, rotl state.b 30, state.c, state.d⟩

/-- The schedule word which follows a window of sixteen words. -/
def nextWord (window : List Nat) : Nat :=
  rotl (window.getD 13 0 ^^^ window.getD 8 0 ^^^ window.getD 2 0 ^^^ window.getD 0 0) 1

/-- Run the rounds with a sliding window of schedule words. -/
def rounds : List Nat → List Nat → State → State
  | [], _, state => state
  | index :: rest, window, state =>
      rounds rest (window.tail ++ [nextWord window])
        (round state (index / 20) (window.headD 0))

/-- Absorb one block of sixteen words. -/
def compress (state : State) (block : List Nat) : State :=
  let mixed := rounds (List.range 80) block state
  ⟨Sha256.add state.a mixed.a, Sha256.add state.b mixed.b, Sha256.add state.c mixed.c,
    Sha256.add state.d mixed.d, Sha256.add state.e mixed.e⟩

/-- Absorb consecutive blocks. -/
def absorb : Nat → List Nat → State → State
  | 0, _, state => state
  | blocks + 1, message, state =>
      absorb blocks (message.drop 16) (compress state (message.take 16))

/-- The chaining words after a message. -/
def final (message : List UInt8) : State :=
  let padded := Sha256.padded message
  absorb (padded.length / 64) (Sha256.words padded) initial

/-- SHA-1 of a message in lower-case hexadecimal. -/
def hex (message : List UInt8) : String :=
  let state := final message
  String.ofList
    ([state.a, state.b, state.c, state.d, state.e].flatMap Sha256.hexWord)

/-- One digit of base 64. -/
def base64Digit (value : Nat) : Char :=
  if value < 26 then Char.ofNat ('A'.toNat + value)
  else if value < 52 then Char.ofNat ('a'.toNat + (value - 26))
  else if value < 62 then Char.ofNat ('0'.toNat + (value - 52))
  else if value = 62 then '+'
  else '/'

/-- The digits of three bytes. -/
def base64Group (value : Nat) : List Char :=
  [18, 12, 6, 0].map fun shift => base64Digit (value / 2 ^ shift % 64)

/-- The 160 bits of a digest as one number. -/
def value (state : State) : Nat :=
  [state.a, state.b, state.c, state.d, state.e].foldl (fun number word => number * 2 ^ 32 + word) 0

/-- SHA-1 of a message in base 64: eighteen bytes in groups of three, then two bytes and a pad. -/
def base64 (message : List UInt8) : String :=
  let padded := Sha256.padded message
  let digest := value (absorb (padded.length / 64) (Sha256.words padded) initial) * 2 ^ 8
  String.ofList
    (([144, 120, 96, 72, 48, 24].flatMap fun shift =>
        base64Group (digest / 2 ^ shift % 2 ^ 24)) ++
      (base64Group (digest % 2 ^ 24)).take 3 ++ ['='])

example : base64 (utf8Bytes "abc") = "qZk+NkcGgWq6PiVxeFDCbJzQ2J0=" := by
  decide +kernel

end Sha1

end ImmichRs
