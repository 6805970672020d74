import ImmichRs.Executor.ImportApply
import ImmichRs.Interaction.History

/-!
# What an import run does

A run works on one effect after the other.  Each effect sends requests for its own key, spends at
most one mutation beyond the retries which the budget granted to it, and ends with at most one row.
`Scoped` collects what is known about the events of any part of a run, finished or not.
-/

namespace ImmichRs

open Interaction
open Std (ExtTreeMap ExtTreeSet)

/-! ## Events -/

/-- The effect on whose behalf a request is sent. -/
def requested (platform : Platform) : Event Answer → Option EffectKey
  | ⟨.duplicateCheck operationId _, _⟩ => some (.asset operationId)
  | ⟨.upload request, _⟩ => some (.asset request.operationId)
  | ⟨.updateAssetMetadata operationId _ _, _⟩ => some (.metadata operationId)
  | ⟨.findOwnedAlbums name, _⟩ | ⟨.createAlbum name, _⟩ =>
      some (.album (albumIdentity platform name))
  | ⟨.addAlbumAssets identity _ _, _⟩ => some (.membership identity)
  | _ => none

/-- The row which an event tries to append. -/
def attempted : Event Answer → Option ImportEvent
  | ⟨.appendEffect row, _⟩ => some row
  | _ => none

/-- Whether an event is a mutating request. -/
def mutates : Event Answer → Bool
  | ⟨.upload _, _⟩ | ⟨.updateAssetMetadata _ _ _, _⟩ | ⟨.createAlbum _, _⟩
  | ⟨.addAlbumAssets _ _ _, _⟩ => true
  | _ => false

/-- Whether an event is a granted claim on the retry budget. -/
def granted : Event Answer → Bool
  | ⟨.claim, answer⟩ => answer
  | _ => false

/-- Whether an event creates an album of the given name. -/
def createsAlbum (name : String) : Event Answer → Bool
  | ⟨.createAlbum created, _⟩ => created == name
  | _ => false

/-- The rows which a list of events tries to append. -/
def attemptedRows (events : List (Event Answer)) : List ImportEvent := events.filterMap attempted

/-- The effects which a list of events requests. -/
def requestedKeys (platform : Platform) (events : List (Event Answer)) : List EffectKey :=
  events.filterMap (requested platform)

/-- The number of mutating requests for one effect. -/
def mutationsFor (platform : Platform) (key : EffectKey) (events : List (Event Answer)) : Nat :=
  events.countP fun event => mutates event && requested platform event == some key

theorem attemptedRows_append (first second : List (Event Answer)) :
    attemptedRows (first ++ second) = attemptedRows first ++ attemptedRows second :=
  List.filterMap_append

theorem requestedKeys_append (platform : Platform) (first second : List (Event Answer)) :
    requestedKeys platform (first ++ second) =
      requestedKeys platform first ++ requestedKeys platform second :=
  List.filterMap_append

theorem mutationsFor_append (platform : Platform) (key : EffectKey)
    (first second : List (Event Answer)) :
    mutationsFor platform key (first ++ second) =
      mutationsFor platform key first + mutationsFor platform key second :=
  List.countP_append

theorem mutationsFor_le (platform : Platform) (key : EffectKey) (events : List (Event Answer)) :
    mutationsFor platform key events ≤ events.countP mutates := by
  refine List.countP_mono_left fun event _ both => ?_
  exact (Bool.and_eq_true_iff.mp both).1

/-- Effects which were not requested were not mutated. -/
theorem mutationsFor_eq_zero {platform : Platform} {key : EffectKey}
    {events : List (Event Answer)} (absent : key ∉ requestedKeys platform events) :
    mutationsFor platform key events = 0 := by
  refine List.countP_eq_zero.mpr fun event member both => absent ?_
  refine List.mem_filterMap.mpr ⟨event, member, ?_⟩
  exact eq_of_beq (Bool.and_eq_true_iff.mp both).2

/-! ## The order of requests and rows -/

/-- The last thing known about a name is that a lookup found no album. -/
def Ready (name : String) (events : List (Event Answer)) : Prop :=
  ∃ first last, events = first ++ ⟨.findOwnedAlbums name, .ok []⟩ :: last ∧
    ∀ event ∈ last, createsAlbum name event = false

theorem Ready.append {name : String} {first second : List (Event Answer)}
    (ready : Ready name first) (quiet : ∀ event ∈ second, createsAlbum name event = false) :
    Ready name (first ++ second) := by
  obtain ⟨front, last, rfl, none⟩ := ready
  refine ⟨front, last ++ second, by rw [List.append_assoc, List.cons_append], fun event member => ?_⟩
  rcases List.mem_append.mp member with member | member
  · exact none event member
  · exact quiet event member

theorem Ready.prepend {name : String} {events : List (Event Answer)} (ready : Ready name events)
    (first : List (Event Answer)) : Ready name (first ++ events) := by
  obtain ⟨front, last, rfl, quiet⟩ := ready
  exact ⟨first ++ front, last, by rw [List.append_assoc], quiet⟩

/-- What every event of a run is justified by: a create follows a lookup which found no album, a
membership request carries the members of its album, and a completed membership is recorded after
such a request succeeded. -/
structure Justified (members : String → List String → Prop) (before : List (Event Answer))
    (event : Event Answer) : Prop where
  create : ∀ name, createsAlbum name event = true → Ready name before
  member : ∀ identity albumId assetIds,
    event.1 = .addAlbumAssets identity albumId assetIds → members identity assetIds
  confirm : ∀ row identity, attempted event = some row →
    row.effectKey = membershipKey identity → row.outcome = .completed →
      ∃ albumId assetIds, ⟨.addAlbumAssets identity albumId assetIds, .ok ()⟩ ∈ before

theorem extendable_justified (members : String → List String → Prop) :
    Extendable (Justified members) := by
  intro first before event justified
  refine ⟨fun name creates => (justified.create name creates).prepend first, justified.member,
    fun row identity appends key outcome => ?_⟩
  obtain ⟨albumId, assetIds, member⟩ := justified.confirm row identity appends key outcome
  exact ⟨albumId, assetIds, List.mem_append_right first member⟩

theorem Justified.mono {members wider : String → List String → Prop}
    {before : List (Event Answer)} {event : Event Answer}
    (justified : Justified members before event)
    (more : ∀ identity assetIds, members identity assetIds → wider identity assetIds) :
    Justified wider before event :=
  { justified with
    member := fun identity albumId assetIds same =>
      more identity assetIds (justified.member identity albumId assetIds same) }

/-- Events which are neither creates nor memberships nor rows need no justification. -/
theorem justified_of_plain {members : String → List String → Prop}
    {before : List (Event Answer)} {event : Event Answer}
    (create : ∀ name, createsAlbum name event = false)
    (member : ∀ identity albumId assetIds, event.1 ≠ .addAlbumAssets identity albumId assetIds)
    (silent : attempted event = none) : Justified members before event where
  create name creates := by
    rw [create name] at creates
    cases creates
  member identity albumId assetIds same := absurd same (member identity albumId assetIds)
  confirm row identity appends := by
    rw [silent] at appends
    cases appends

/-! ## One effect -/

/-- The outcomes which are journalled for each kind of effect. -/
def EffectKey.outcomes : EffectKey → List ImportOutcome
  | .asset _ => [.created, .duplicate, .failed, .indeterminate]
  | .metadata _ | .membership _ => [.completed, .failed, .indeterminate]
  | .album _ => [.created, .reused, .failed, .indeterminate]

/-- A row which the journal accepts for an effect of its kind. -/
structure ImportEvent.RowOf (row : ImportEvent) (key : EffectKey) : Prop where
  key_eq : row.effectKey = key.render
  outcome : row.outcome ∈ key.outcomes
  valid : validateEffect row.effectKey row.outcome row.remoteId = .ok ()

section

variable (platform : Platform) (members : String → List String → Prop)

/-- Events which work on one effect and have not recorded it: at most `spent` mutating requests,
and at least `claims` granted retries. -/
structure Segment (key : EffectKey) (events : List (Event Answer)) (spent claims : Nat) :
    Prop where
  requests : ∀ other ∈ requestedKeys platform events, other = key
  silent : attemptedRows events = []
  mutations : events.countP mutates ≤ spent
  grants : claims ≤ events.countP granted
  justified : Throughout (Justified members) events

variable {platform members} {key : EffectKey}

theorem segment_nil : Segment platform members key [] 0 0 :=
  ⟨by simp [requestedKeys], rfl, le_rfl, Nat.zero_le _, throughout_nil _⟩

theorem Segment.append {first second : List (Event Answer)} {spent claims spent' claims' : Nat}
    (left : Segment platform members key first spent claims)
    (right : Segment platform members key second spent' claims') :
    Segment platform members key (first ++ second) (spent + spent') (claims + claims') where
  requests other member := by
    rw [requestedKeys_append, List.mem_append] at member
    exact member.elim (left.requests other) (right.requests other)
  silent := by rw [attemptedRows_append, left.silent, right.silent, List.append_nil]
  mutations := by
    rw [List.countP_append]
    exact Nat.add_le_add left.mutations right.mutations
  grants := by
    rw [List.countP_append]
    exact Nat.add_le_add left.grants right.grants
  justified := left.justified.append (extendable_justified members) right.justified

theorem Segment.mono {events : List (Event Answer)} {spent claims spent' claims' : Nat}
    (segment : Segment platform members key events spent claims) (more : spent ≤ spent')
    (fewer : claims' ≤ claims) : Segment platform members key events spent' claims' :=
  { segment with
    mutations := segment.mutations.trans more
    grants := fewer.trans segment.grants }

/-- One more event, judged by everything before it. -/
theorem Segment.concat {events : List (Event Answer)} {event : Event Answer}
    {spent claims : Nat} (segment : Segment platform members key events spent claims)
    (request : ∀ other, requested platform event = some other → other = key)
    (silent : attempted event = none) (justified : Justified members events event) :
    Segment platform members key (events ++ [event]) (spent + (mutates event).toNat)
      (claims + (granted event).toNat) where
  requests other member := by
    rw [requestedKeys_append, List.mem_append] at member
    refine member.elim (segment.requests other) fun last => ?_
    obtain ⟨_, single, found⟩ := List.mem_filterMap.mp last
    rw [List.mem_singleton.mp single] at found
    exact request other found
  silent := by
    rw [attemptedRows_append, segment.silent, attemptedRows, List.filterMap_cons, silent]
    rfl
  mutations := by
    rw [List.countP_append, List.countP_singleton]
    have := segment.mutations
    cases mutates event <;> simp <;> omega
  grants := by
    rw [List.countP_append, List.countP_singleton]
    have := segment.grants
    cases granted event <;> simp <;> omega
  justified := segment.justified.concat justified

/-- One request for the effect. -/
theorem segment_request {event : Event Answer} (request : requested platform event = some key)
    (silent : attempted event = none) (justified : Justified members [] event) :
    Segment platform members key [event] (mutates event).toNat (granted event).toNat := by
  have single := segment_nil.concat (fun other found => Option.some.inj (found.symm.trans request))
    silent justified
  simpa using single

end

/-- Calls which neither request an effect nor record one. -/
def Call.isPlain : Call → Bool
  | .duplicateCheck _ _ | .upload _ | .updateAssetMetadata _ _ _ | .findOwnedAlbums _
  | .createAlbum _ | .addAlbumAssets _ _ _ | .appendEffect _ => false
  | _ => true

theorem plain_event (platform : Platform) {event : Event Answer} (plain : event.1.isPlain = true) :
    requested platform event = none ∧ attempted event = none ∧ mutates event = false ∧
      ∀ (members : String → List String → Prop) (before : List (Event Answer)),
        Justified members before event := by
  obtain ⟨call, answer⟩ := event
  cases call <;> first
    | exact ⟨rfl, rfl, rfl, fun _ _ =>
        justified_of_plain (fun _ => rfl) (fun _ _ _ same => by cases same) rfl⟩
    | cases plain

section

variable {platform : Platform} {members : String → List String → Prop} {key : EffectKey}

theorem segment_plain {event : Event Answer} (plain : event.1.isPlain = true) :
    Segment platform members key [event] 0 (granted event).toNat := by
  obtain ⟨unrequested, silent, calm, justified⟩ := plain_event platform plain
  have nothing : Segment platform members key [] 0 0 := segment_nil
  have other : ∀ other, requested platform event = some other → other = key := by
    intro other found
    rw [unrequested] at found
    cases found
  simpa [calm] using nothing.concat other silent (justified members [])

/-- Events of one effect which end with at most one row. -/
structure Closed (platform : Platform) (members : String → List String → Prop) (key : EffectKey)
    (events : List (Event Answer)) (spent claims : Nat) : Prop where
  requests : ∀ other ∈ requestedKeys platform events, other = key
  rows : attemptedRows events = [] ∨ ∃ row, attemptedRows events = [row] ∧ row.RowOf key
  mutations : events.countP mutates ≤ spent
  grants : claims ≤ events.countP granted
  justified : Throughout (Justified members) events

theorem Segment.closed {events : List (Event Answer)} {spent claims : Nat}
    (segment : Segment platform members key events spent claims) :
    Closed platform members key events spent claims :=
  { segment with rows := .inl segment.silent }

theorem Closed.mono {events : List (Event Answer)} {spent claims spent' claims' : Nat}
    (closed : Closed platform members key events spent claims) (more : spent ≤ spent')
    (fewer : claims' ≤ claims) : Closed platform members key events spent' claims' :=
  { closed with
    mutations := closed.mutations.trans more
    grants := fewer.trans closed.grants }

/-- A row ends an effect. -/
theorem Segment.record {events : List (Event Answer)} {spent claims : Nat}
    (segment : Segment platform members key events spent claims) {row : ImportEvent}
    (rowOf : row.RowOf key) (answer : Answer (.appendEffect row))
    (justified : Justified members events ⟨.appendEffect row, answer⟩) :
    Closed platform members key (events ++ [⟨.appendEffect row, answer⟩]) spent claims where
  requests other member := by
    rw [requestedKeys_append, List.mem_append] at member
    refine member.elim (segment.requests other) fun last => ?_
    simp [requestedKeys, requested] at last
  rows := by
    refine .inr ⟨row, ?_, rowOf⟩
    rw [attemptedRows_append, segment.silent]
    rfl
  mutations := by
    rw [List.countP_append]
    exact segment.mutations
  grants := by
    rw [List.countP_append]
    exact segment.grants
  justified := segment.justified.concat justified

/-- Rows which do not complete a membership need no justification. -/
theorem justified_row {before : List (Event Answer)} {row : ImportEvent}
    (answer : Answer (.appendEffect row))
    (confirmed : ∀ identity, row.effectKey = membershipKey identity → row.outcome = .completed →
      ∃ albumId assetIds, ⟨.addAlbumAssets identity albumId assetIds, .ok ()⟩ ∈ before) :
    Justified members before ⟨.appendEffect row, answer⟩ where
  create name creates := by cases creates
  member identity albumId assetIds same := by cases same
  confirm other identity appends keyed outcome := by
    cases appends
    exact confirmed identity keyed outcome

end

end ImmichRs
