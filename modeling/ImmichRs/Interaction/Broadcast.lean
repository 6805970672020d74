import Mathlib.Data.List.DropRight

/-!
# Broadcast channels

A sender which keeps the last values in a ring, receivers which follow it, and logs of numbered
values with at most one final value.  A subscriber which replays kept values and then follows the
channel misses and repeats nothing.
-/

namespace Interaction

variable {α : Type}

/-! ## Numbered logs -/

/-- The values carry the numbers from one on. -/
def Numbered (number : α → Nat) (values : List α) : Prop :=
  values.map number = List.range' 1 values.length

/-- Only the last value may be final. -/
def EndsOnce (final : α → Bool) (values : List α) : Prop :=
  ∀ value ∈ values.dropLast, final value = false

section

variable {number : α → Nat} {final : α → Bool} {values : List α} {value : α}

theorem Numbered.concat (numbered : Numbered number values)
    (next : number value = values.length + 1) : Numbered number (values ++ [value]) := by
  rw [Numbered, List.map_append, numbered, List.length_append, List.length_singleton,
    List.range'_concat, List.map_singleton, next, Nat.one_mul, Nat.add_comm]

theorem Numbered.get (numbered : Numbered number values) {place : Nat}
    (at_ : values[place]? = some value) : number value = place + 1 := by
  have mapped : (values.map number)[place]? = some (number value) := by
    rw [List.getElem?_map, at_, Option.map_some]
  rw [numbered] at mapped
  have inside := (List.getElem?_eq_some_iff.mp at_).1
  rw [List.getElem?_range' inside, Option.some.injEq] at mapped
  omega

/-- The numbers of a segment of the log. -/
theorem Numbered.map_drop (numbered : Numbered number values) (first : Nat) :
    (values.drop first).map number = List.range' (first + 1) (values.drop first).length := by
  rw [List.map_drop, numbered, List.drop_range', List.length_drop, Nat.mul_one, Nat.add_comm 1]

theorem Numbered.map_of_prefix (numbered : Numbered number values) {first : Nat}
    {segment : List α} (inside : segment <+: values.drop first) :
    segment.map number = List.range' (first + 1) segment.length := by
  obtain ⟨rest, split⟩ := inside
  have mapped := numbered.map_drop first
  rw [← split, List.map_append, List.length_append, ← List.range'_append_1] at mapped
  exact (List.append_inj mapped (by rw [List.length_map, List.length_range'])).1

/-- The kept values above a cursor are those after it. -/
theorem Numbered.filter_drop (numbered : Numbered number values) {first cursor : Nat}
    (kept : first ≤ cursor) :
    (values.drop first).filter (fun value => decide (cursor < number value)) =
      values.drop cursor := by
  have split : values.drop first =
      (values.drop first).take (cursor - first) ++ values.drop cursor := by
    have rest := List.drop_drop (i := cursor - first) (j := first) (l := values)
    rw [Nat.add_sub_cancel' kept] at rest
    rw [← rest, List.take_append_drop]
  have below : ∀ value ∈ (values.drop first).take (cursor - first), ¬ cursor < number value := by
    intro value member
    obtain ⟨place, at_⟩ := List.mem_iff_getElem?.mp member
    rw [List.getElem?_take] at at_
    split_ifs at at_ with early
    rw [List.getElem?_drop] at at_
    have same := numbered.get at_
    omega
  have above : ∀ value ∈ values.drop cursor, cursor < number value := by
    intro value member
    obtain ⟨place, at_⟩ := List.mem_iff_getElem?.mp member
    rw [List.getElem?_drop] at at_
    have same := numbered.get at_
    omega
  rw [split, List.filter_append, List.filter_eq_nil_iff.mpr, List.nil_append,
    List.filter_eq_self.mpr]
  · exact fun value member => decide_eq_true (above value member)
  · exact fun value member => by simpa using below value member

theorem EndsOnce.concat (once : EndsOnce final values)
    (open_ : ∀ last ∈ values.getLast?, final last = false) (value : α) :
    EndsOnce final (values ++ [value]) := by
  intro earlier member
  rw [List.dropLast_concat] at member
  rcases List.eq_nil_or_concat values with rfl | ⟨before, last, rfl⟩
  · cases member
  · rw [List.concat_eq_append] at *
    rcases List.mem_append.mp member with inside | atEnd
    · exact once earlier (by rwa [List.dropLast_concat])
    · rw [List.mem_singleton.mp atEnd]
      exact open_ last (List.getLast?_concat ..)

/-- A final value is the last one. -/
theorem EndsOnce.last (once : EndsOnce final values) {place : Nat}
    (at_ : values[place]? = some value) (ended : final value = true) :
    place + 1 = values.length ∧ values.getLast? = some value := by
  have inside := (List.getElem?_eq_some_iff.mp at_).1
  by_cases early : place + 1 < values.length
  · have member : value ∈ values.dropLast := by
      apply List.mem_of_getElem? (i := place)
      rw [List.getElem?_dropLast, if_pos (by omega), at_]
    rw [once value member] at ended
    cases ended
  · have same : place + 1 = values.length := by omega
    refine ⟨same, ?_⟩
    rw [List.getLast?_eq_getElem?, ← same, Nat.add_sub_cancel, at_]

end

/-! ## Windows -/

/-- A buffer of at most `limit` values, to which one is added: it holds the last ones again. -/
theorem rtake_concat {limit : Nat} (positive : 0 < limit) (values : List α) (value : α) :
    (if (values.rtake limit).length = limit then (values.rtake limit).tail
      else values.rtake limit) ++ [value] = (values ++ [value]).rtake limit := by
  obtain ⟨rest, rfl⟩ := Nat.exists_eq_succ_of_ne_zero positive.ne'
  rw [List.rtake_concat_succ]
  congr 1
  rw [List.rtake, List.rtake, List.length_drop, List.tail_drop]
  split_ifs with full
  · congr 1
    omega
  · have short : values.length - rest.succ = values.length - rest := by omega
    rw [short]

/-! ## Receivers -/

/-- What a receiver finds in its channel. -/
inductive Received (α : Type)
  | item (value : α)
  /-- The next value has left the ring. -/
  | lagged
  /-- Everything was received, and the sender is gone. -/
  | closed
  deriving DecidableEq

/-- What a receiver finds at its position, unless it must wait; the ring keeps `ring` values. -/
def receive (ring : Nat) (sent : List α) (isOpen : Bool) (position : Nat) :
    Option (Received α) :=
  if ring < sent.length - position then
    some .lagged
  else
    match sent[position]? with
    | some value => some (.item value)
    | none => if isOpen then none else some .closed

theorem receive_cases {ring position : Nat} {sent : List α} {isOpen : Bool}
    {found : Received α} (received : receive ring sent isOpen position = some found) :
    found = .lagged ∧ ring < sent.length - position ∨
      (∃ value, found = .item value ∧ sent[position]? = some value) ∨
      found = .closed ∧ sent.length ≤ position ∧ isOpen = false := by
  unfold receive at received
  by_cases behind : ring < sent.length - position
  · rw [if_pos behind] at received
    exact .inl ⟨(Option.some.inj received).symm, behind⟩
  · rw [if_neg behind] at received
    cases at_ : sent[position]? with
    | some value =>
        rw [at_] at received
        exact .inr (.inl ⟨value, (Option.some.inj received).symm, rfl⟩)
    | none =>
        rw [at_] at received
        dsimp only at received
        split_ifs at received with open_
        rw [Bool.not_eq_true] at open_
        exact .inr (.inr
          ⟨(Option.some.inj received).symm, List.getElem?_eq_none_iff.mp at_, open_⟩)

/-- A receiver waits exactly when it has received everything and the sender is there. -/
theorem receive_eq_none {ring position : Nat} {sent : List α} {isOpen : Bool} :
    receive ring sent isOpen position = none ↔ sent.length ≤ position ∧ isOpen = true := by
  unfold receive
  by_cases behind : ring < sent.length - position
  · rw [if_pos behind]
    constructor
    · intro waits
      cases waits
    · intro received
      omega
  · rw [if_neg behind]
    cases at_ : sent[position]? with
    | some value =>
        have inside := (List.getElem?_eq_some_iff.mp at_).1
        constructor
        · intro waits
          cases waits
        · intro received
          omega
    | none =>
        have received := List.getElem?_eq_none_iff.mp at_
        cases isOpen <;> simp [received]

/-! ## Subscribers -/

/-- What was delivered and what is still to be replayed make up what was sent from `first` on, up to
the position of the receiver. -/
structure Follower (sent : List α) (first : Nat) (delivered replay : List α) (position : Nat) :
    Prop where
  joined : delivered ++ replay = (sent.take position).drop first
  begun : first ≤ position
  bounded : position ≤ sent.length

section

variable {sent delivered replay : List α} {first position : Nat} {value : α}

/-- A subscriber starts with all kept values from `first` on. -/
theorem follower_start (begun : first ≤ sent.length) :
    Follower sent first [] (sent.drop first) sent.length :=
  ⟨by rw [List.take_length, List.nil_append], begun, Nat.le_refl _⟩

theorem Follower.send (follower : Follower sent first delivered replay position) (later : List α) :
    Follower (sent ++ later) first delivered replay position := by
  refine ⟨?_, follower.begun, ?_⟩
  · rw [List.take_append_of_le_length follower.bounded, follower.joined]
  · rw [List.length_append]
    exact follower.bounded.trans (Nat.le_add_right _ _)

theorem Follower.replayed (follower : Follower sent first delivered (value :: replay) position) :
    Follower sent first (delivered ++ [value]) replay position :=
  ⟨by rw [← follower.joined, List.append_assoc, List.singleton_append], follower.begun,
    follower.bounded⟩

theorem Follower.receive (follower : Follower sent first delivered [] position)
    (at_ : sent[position]? = some value) :
    Follower sent first (delivered ++ [value]) [] (position + 1) := by
  have inside := (List.getElem?_eq_some_iff.mp at_).1
  refine ⟨?_, follower.begun.trans (Nat.le_succ _), inside⟩
  have length : (sent.take position).length = position := List.length_take_of_le follower.bounded
  have joined := follower.joined
  rw [List.append_nil] at joined
  rw [List.append_nil, List.take_add_one, at_, Option.toList_some,
    List.drop_append_of_le_length (length.symm ▸ follower.begun), joined]

theorem Follower.isPrefix (follower : Follower sent first delivered replay position) :
    delivered <+: sent.drop first := by
  have taken : delivered ++ replay <+: sent.drop first := by
    rw [follower.joined, List.drop_take]
    exact List.take_prefix _ _
  exact (List.prefix_append _ _).trans taken

/-- A subscriber which has caught up has delivered everything. -/
theorem Follower.complete (follower : Follower sent first delivered [] sent.length) :
    delivered = sent.drop first := by
  have joined := follower.joined
  rwa [List.append_nil, List.take_length] at joined

end

end Interaction
