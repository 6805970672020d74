import Mathlib.Data.List.TakeWhile
import ImmichRs.Core.Archive
import ImmichRs.Sources.ApplePhotos

/-!
# Endpoints

An endpoint is an origin without credentials, path, query or fragment, over HTTPS or on the loopback
host.  Addresses are parsed as the standard library does it; the parser of URLs is a parameter, with
what its standard says of the scheme.
-/

namespace ImmichRs

/-! ## Addresses -/

/-- `IpAddr`, with the bits of an address. -/
inductive IpAddr
  | v4 (bits : BitVec 32)
  | v6 (bits : BitVec 128)
  deriving DecidableEq, Repr

/-- `char::to_digit`. -/
def toDigit (radix : Nat) (character : Char) : Option Nat :=
  let value :=
    if isAsciiDigit character then character.toNat - '0'.toNat
    else if 'a' ≤ character && character ≤ 'z' then character.toNat - 'a'.toNat + 10
    else if 'A' ≤ character && character ≤ 'Z' then character.toNat - 'A'.toNat + 10
    else radix
  if value < radix then some value else none

/-- `read_number`: the number of the longest run of digits, which has to fit its type. -/
def readNumber (radix maxDigits bound : Nat) (allowZeroPrefix : Bool) (input : List Char) :
    Option (Nat × List Char) :=
  let digits := input.takeWhile fun character => (toDigit radix character).isSome
  let value := (digits.filterMap (toDigit radix)).foldl (fun value digit => value * radix + digit) 0
  if digits.isEmpty || decide (maxDigits < digits.length) ||
      (!allowZeroPrefix && digits.head? == some '0' && decide (1 < digits.length)) ||
      decide (bound ≤ value) then
    none
  else
    some (value, input.drop digits.length)

/-- `read_given_char`. -/
def readGivenChar (expected : Char) : List Char → Option (List Char)
  | [] => none
  | character :: rest => if character = expected then some rest else none

/-- The separator of `read_separator`: none stands before the first item. -/
def readSeparator (separator : Char) (isFirst : Bool) (input : List Char) : Option (List Char) :=
  if isFirst then some input else readGivenChar separator input

/-- `read_ipv4_addr`: an octet has no leading zero. -/
def readIpv4Addr (input : List Char) : Option (BitVec 32 × List Char) := do
  let octet := readNumber 10 3 256 false
  let (one, rest) ← octet input
  let (two, rest) ← readGivenChar '.' rest >>= octet
  let (three, rest) ← readGivenChar '.' rest >>= octet
  let (four, rest) ← readGivenChar '.' rest >>= octet
  return (BitVec.ofNat 32 (((one * 256 + two) * 256 + three) * 256 + four), rest)

/-- `read_groups`: the groups, whether an IPv4 address stands for the last two, and the rest. -/
def readGroups (isFirst : Bool) : Nat → List Char → List Nat × Bool × List Char
  | 0, input => ([], false, input)
  | left + 1, input =>
      let embedded :=
        if 1 ≤ left then readSeparator ':' isFirst input >>= readIpv4Addr else none
      match embedded with
      | some (address, rest) => ([address.toNat / 65536, address.toNat % 65536], true, rest)
      | none =>
          match readSeparator ':' isFirst input >>= readNumber 16 4 65536 true with
          | some (group, rest) =>
              let (groups, ipv4, rest) := readGroups false left rest
              (group :: groups, ipv4, rest)
          | none => ([], false, input)

/-- The bits of eight groups. -/
def groupBits (groups : List Nat) : BitVec 128 :=
  BitVec.ofNat 128 (groups.foldl (fun value group => value * 65536 + group) 0)

/-- `read_ipv6_addr`: one pair of colons stands for at least one group of zeros. -/
def readIpv6Addr (input : List Char) : Option (BitVec 128 × List Char) :=
  match readGroups true 8 input with
  | (head, headIpv4, rest) =>
      if head.length = 8 then
        some (groupBits head, rest)
      else if headIpv4 then
        none
      else do
        let rest ← readGivenChar ':' rest >>= readGivenChar ':'
        let (tail, _, rest) := readGroups true (8 - (head.length + 1)) rest
        let zeros := List.replicate (8 - head.length - tail.length) 0
        return (groupBits (head ++ zeros ++ tail), rest)

/-- `str::parse::<IpAddr>`. -/
def IpAddr.parse (text : String) : Option IpAddr :=
  let read := (readIpv4Addr text.toList).map (Prod.map IpAddr.v4 id) <|>
    (readIpv6Addr text.toList).map (Prod.map IpAddr.v6 id)
  read.bind fun parsed => if parsed.2.isEmpty then some parsed.1 else none

example : IpAddr.parse "fd42::1.2.3.4" =
    some (.v6 0xfd420000000000000000000001020304#128) := by decide +kernel

/-- `IpAddr::is_loopback`. -/
def IpAddr.isLoopback : IpAddr → Bool
  | .v4 bits => bits.toNat / 2 ^ 24 == 127
  | .v6 bits => bits == 1#128

/-! ## URLs -/

/-- `url::Host`. -/
inductive Host
  | domain (name : String)
  | address (address : IpAddr)
  deriving DecidableEq, Repr

/-- What is read of a `url::Url`. -/
structure Url where
  scheme : String
  username : String
  password : Option String
  host : Option Host
  path : String
  query : Option String
  fragment : Option String
  deriving DecidableEq, Repr

/-- The input of the parser of URLs: without the control characters and blanks around it, and without
tabs and ends of lines anywhere. -/
def urlInput (text : String) : List Char :=
  let isBlank := fun character : Char => decide (character ≤ ' ')
  (((text.toList.dropWhile isBlank).reverse.dropWhile isBlank).reverse).filter fun character =>
    !(character == '\t' || character == '\n' || character == '\r')

/-- What the standard says of the scheme of a URL: it is the text before a colon, in lower case. -/
def ShowsScheme (parseUrl : String → Option Url) : Prop :=
  ∀ text url, parseUrl text = some url → ∃ scheme rest,
    urlInput text = scheme ++ ':' :: rest ∧ url.scheme.toList = scheme.map Char.toLower

/-! ## Endpoints -/

/-- Reason an Immich origin was rejected. -/
inductive EndpointError
  | invalidOrigin | unsupportedScheme | insecureRemoteOrigin
  deriving DecidableEq, Repr

/-- Validated Immich origin without credentials or path state. -/
structure ImmichEndpoint where
  origin : Url
  loopback : Bool
  deriving DecidableEq, Repr

/-- `is_loopback_host`. -/
def isLoopbackHost : Host → Bool
  | .domain name =>
      eqIgnoreAsciiCase name "localhost" ||
        (stripSuffix (String.ofList (name.toList.map Char.toLower)) ".localhost").any fun front =>
          !front.isEmpty
  | .address address => address.isLoopback

/-- `ImmichEndpoint::parse`. -/
def ImmichEndpoint.parse (parseUrl : String → Option Url) (value : String) :
    Except EndpointError ImmichEndpoint :=
  match parseUrl value with
  | none => .error .invalidOrigin
  | some origin => do
      reject (!origin.username.isEmpty || origin.password.isSome || origin.query.isSome ||
        origin.fragment.isSome || !(origin.path == "" || origin.path == "/")) .invalidOrigin
      let loopback := origin.host.any isLoopbackHost
      reject (origin.scheme == "http" && !loopback) .insecureRemoteOrigin
      reject (!(origin.scheme == "https" || origin.scheme == "http")) .unsupportedScheme
      return { origin := { origin with path := "/" }, loopback }

/-- An endpoint comes from a URL of one of two schemes. -/
theorem ImmichEndpoint.scheme_of_parse {parseUrl : String → Option Url} {value : String}
    {endpoint : ImmichEndpoint} (parsed : ImmichEndpoint.parse parseUrl value = .ok endpoint) :
    ∃ url, parseUrl value = some url ∧ (url.scheme = "https" ∨ url.scheme = "http") := by
  rw [ImmichEndpoint.parse] at parsed
  cases read : parseUrl value with
  | none =>
      rw [read] at parsed
      cases parsed
  | some url =>
      rw [read] at parsed
      simp only [bind_eq_ok] at parsed
      obtain ⟨_, _, _, _, _, scheme, _⟩ := parsed
      rw [reject_eq_ok] at scheme
      rw [Bool.not_eq_false', Bool.or_eq_true, beq_iff_eq, beq_iff_eq] at scheme
      exact ⟨url, rfl, scheme⟩

/-! ## The text before the colon -/

/-- A letter which is one of some scheme in lower case. -/
theorem letter_of_toLower {character : Char} (lower : 'a' ≤ character.toLower)
    (last : character.toLower ≤ 'z') : 'A' ≤ character ∧ character ≤ 'z' := by
  delta Char.toLower at lower last
  split at lower
  · rename_i upper
    exact ⟨upper.1, upper.2.trans (by decide)⟩
  · rename_i upper
    rw [dif_neg upper] at last
    exact ⟨le_trans (by decide) lower, last⟩

/-- The input is a part of the text in which some blanks are left out. -/
theorem urlInput_eq (text : String) : ∃ lead middle trail, text.toList = lead ++ middle ++ trail ∧
    (∀ character ∈ lead, character ≤ ' ') ∧
    urlInput text = middle.filter fun character =>
      !(character == '\t' || character == '\n' || character == '\r') := by
  let isBlank := fun character : Char => decide (character ≤ ' ')
  let dropped := text.toList.dropWhile isBlank
  let trail := (dropped.reverse.takeWhile isBlank).reverse
  let middle := (dropped.reverse.dropWhile isBlank).reverse
  have parts : dropped = middle ++ trail := by
    have reversed := congrArg List.reverse
      (List.takeWhile_append_dropWhile (p := isBlank) (l := dropped.reverse))
    rw [List.reverse_append, List.reverse_reverse] at reversed
    exact reversed.symm
  refine ⟨text.toList.takeWhile isBlank, middle, trail, ?_, ?_, rfl⟩
  · rw [List.append_assoc, ← parts]
    exact List.takeWhile_append_dropWhile.symm
  · intro character member
    have low : isBlank character = true := List.mem_takeWhile_imp member
    exact of_decide_eq_true low

/-- Up to the first colon, a text which is input with a scheme is the scheme apart from controls and
blanks. -/
theorem exists_front_of_urlInput {text : String} {scheme rest : List Char}
    (input : urlInput text = scheme ++ ':' :: rest)
    (letters : ∀ character ∈ scheme, 'A' ≤ character ∧ character ≤ 'z') :
    ∃ front behind, text.toList = front ++ ':' :: behind ∧
      front.filter (fun character => decide (' ' < character)) = scheme ∧
      ∀ character ∈ front, character ≤ 'z' ∧ character ≠ ':' := by
  obtain ⟨lead, middle, trail, split, blank, filtered⟩ := urlInput_eq text
  rw [filtered, List.filter_eq_append_iff] at input
  obtain ⟨named, colon, rfl, kept, colonKept⟩ := input
  obtain ⟨skipped, behind, rfl, removed, _, _⟩ := List.filter_eq_cons_iff.mp colonKept
  have small : ∀ character : Char, (!(character == '\t' || character == '\n' || character == '\r')) =
      false → character ≤ ' ' := by
    intro character isSkipped
    simp only [Bool.not_eq_false', Bool.or_eq_true, beq_iff_eq] at isSkipped
    rcases isSkipped with (rfl | rfl) | rfl <;> decide
  have skippedBlank : ∀ character ∈ skipped, character ≤ ' ' := by
    intro character member
    apply small
    simpa using removed character member
  have namedParts : ∀ character ∈ named, character ≤ ' ' ∨ character ∈ scheme := by
    intro character member
    cases keeps : !(character == '\t' || character == '\n' || character == '\r') with
    | false => exact Or.inl (small character keeps)
    | true =>
        right
        rw [← kept]
        exact List.mem_filter.mpr ⟨member, keeps⟩
  refine ⟨lead ++ named ++ skipped, behind ++ trail, ?_, ?_, ?_⟩
  · rw [split]
    simp
  · have blanks : ∀ characters : List Char, (∀ character ∈ characters, character ≤ ' ') →
        characters.filter (fun character => decide (' ' < character)) = [] := by
      intro characters low
      apply List.filter_eq_nil_iff.mpr
      intro character member
      simpa using low character member
    rw [List.filter_append, List.filter_append, blanks lead blank, blanks skipped skippedBlank,
      List.nil_append, List.append_nil, ← kept]
    apply List.filter_congr
    intro character member
    cases keeps : !(character == '\t' || character == '\n' || character == '\r') with
    | false => simpa using small character keeps
    | true =>
        have letter := letters character (kept ▸ List.mem_filter.mpr ⟨member, keeps⟩)
        exact decide_eq_true (lt_of_lt_of_le (by decide) letter.1)
  · intro character member
    have cases : character ≤ ' ' ∨ character ∈ scheme := by
      rw [List.mem_append, List.mem_append] at member
      rcases member with (member | member) | member
      · exact Or.inl (blank character member)
      · exact namedParts character member
      · exact Or.inl (skippedBlank character member)
    rcases cases with low | member
    · exact ⟨low.trans (by decide), fun same => absurd (same ▸ low) (by decide)⟩
    · obtain ⟨lower, upper⟩ := letters character member
      exact ⟨upper, fun same => absurd (same ▸ lower) (by decide)⟩

end ImmichRs
