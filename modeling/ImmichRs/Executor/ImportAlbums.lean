import ImmichRs.Executor.ImportResume

/-!
# Albums on the server

A create follows a lookup which found no album of its name, with no other create in between.  So
runs of any plans over any journals never add a second album of one name, even when the responses
of creates are lost.
-/

namespace ImmichRs

open Interaction

/-- The owned albums of a server which no other client adds albums to.  A lookup returns exactly the
albums of its name.  A create is committed before its answer is observed, or never. -/
def serverEnvironment : Environment Answer (List RemoteAlbum)
  | albums, ⟨.findOwnedAlbums name, .ok found⟩, after =>
      found.Perm (albums.filter fun album => album.name == name) ∧ after = albums
  | albums, ⟨.createAlbum name, _⟩, after =>
      after = albums ∨ ∃ album : RemoteAlbum, album.name = name ∧ after = albums ++ [album]
  | albums, _, after => after = albums

/-- The number of albums with one name. -/
def albumsNamed (name : String) (albums : List RemoteAlbum) : Nat :=
  albums.countP fun album => album.name == name

section

variable (name : String) {past : List (Event Answer)} {event : Event Answer}
  {before after : List RemoteAlbum}

/-- Only a create of the name changes the number of its albums, by at most one. -/
theorem albumsNamed_step (step : serverEnvironment before event after) :
    albumsNamed name after = albumsNamed name before ∨
      createsAlbum name event = true ∧ albumsNamed name after = albumsNamed name before + 1 := by
  obtain ⟨call, answer⟩ := event
  cases call with
  | createAlbum created =>
      rcases step with rfl | ⟨album, named, rfl⟩
      · exact .inl rfl
      · by_cases same : created = name
        · refine .inr ⟨by simp [createsAlbum, same], ?_⟩
          simp [albumsNamed, named, same]
        · refine .inl ?_
          simp [albumsNamed, named, same]
  | findOwnedAlbums asked =>
      cases answer with
      | ok found => exact .inl (by rw [step.2])
      | error error => exact .inl (congrArg _ step)
  | _ => exact .inl (congrArg _ step)

variable {name}

/-- A name stays ready until it is created. -/
theorem ready_concat (ready : Ready name (past ++ [event])) :
    event = ⟨.findOwnedAlbums name, .ok []⟩ ∨ createsAlbum name event = false ∧ Ready name past := by
  obtain ⟨first, last, split, quiet⟩ := ready
  cases last using List.reverseRecOn with
  | nil =>
      obtain ⟨_, same⟩ := List.append_inj' split rfl
      exact .inl (List.singleton_inj.mp same)
  | append_singleton last final =>
      rw [← List.cons_append, ← List.append_assoc] at split
      obtain ⟨rfl, same⟩ := List.append_inj' split rfl
      obtain rfl := List.singleton_inj.mp same
      refine .inr ⟨quiet _ (by simp), first, last, rfl, fun other member => ?_⟩
      exact quiet other (List.mem_append_left _ member)

/-- A lookup which finds nothing shows that there is no album of the name. -/
theorem albumsNamed_of_found
    (step : serverEnvironment before ⟨.findOwnedAlbums name, .ok []⟩ after) :
    albumsNamed name after = 0 := by
  obtain ⟨same, rfl⟩ := step
  rw [albumsNamed, List.countP_eq_length_filter, ← same.length_eq]
  rfl

/-- One event keeps the bound, and a ready name has no album. -/
theorem albumsNamed_bounded {members : String → List String → Prop} {bound : Nat}
    (step : serverEnvironment before event after) (justified : Justified members past event)
    (bounded : albumsNamed name before ≤ max 1 bound)
    (absent : Ready name past → albumsNamed name before = 0) :
    albumsNamed name after ≤ max 1 bound ∧
      (Ready name (past ++ [event]) → albumsNamed name after = 0) := by
  rcases albumsNamed_step name step with same | ⟨creates, grown⟩
  · refine ⟨by omega, fun ready => ?_⟩
    rcases ready_concat ready with rfl | ⟨_, earlier⟩
    · exact albumsNamed_of_found step
    · rw [same]
      exact absent earlier
  · have none := absent (justified.create name creates)
    refine ⟨by omega, fun ready => ?_⟩
    rcases ready_concat ready with rfl | ⟨quiet, _⟩
    · exact albumsNamed_of_found step
    · rw [creates] at quiet
      cases quiet

end

/-- A run whose creates are justified keeps the bound of every name. -/
theorem execution_bounded {α : Type} {members : String → List String → Prop} {name : String}
    {bound : Nat} {program final : Executor α} {before after : List RemoteAlbum}
    (past : List (Event Answer)) {events : List (Event Answer)}
    (execution : Execution serverEnvironment program before events final after)
    (justified : Throughout (Justified members) (past ++ events))
    (bounded : albumsNamed name before ≤ max 1 bound)
    (absent : Ready name past → albumsNamed name before = 0) :
    albumsNamed name after ≤ max 1 bound := by
  induction execution generalizing past with
  | refl => exact bounded
  | head step _ induction =>
      obtain ⟨still, next⟩ :=
        albumsNamed_bounded step (justified past _ _ rfl) bounded absent
      refine induction _ ?_ still next
      rwa [List.append_assoc, List.singleton_append]

/-- Runs of any plans over any journals, one after the other, each cut off at any point. -/
inductive ImportRuns (platform : Platform) : List RemoteAlbum → List RemoteAlbum → Prop
  | refl (albums : List RemoteAlbum) : ImportRuns platform albums albums
  | run {before middle after : List RemoteAlbum} {events : List (Event Answer)} {plan : UploadPlan}
      {config : ImportConfig} {client : ClientBinding} {backupReferenceSha256 : Option String}
      {final : Executor (Except ExecutorError ImportApplyReport)} :
      Execution serverEnvironment
        (applyImportInner platform plan config client backupReferenceSha256).run before events final
        middle →
      ImportRuns platform middle after → ImportRuns platform before after

/-- No number of runs leaves more than one album of a name, unless there were more before. -/
theorem albums_converge {platform : Platform} {before after : List RemoteAlbum}
    (runs : ImportRuns platform before after) (name : String) :
    albumsNamed name after ≤ max 1 (albumsNamed name before) := by
  induction runs with
  | refl => exact Nat.le_max_right _ _
  | run execution _ induction =>
      obtain ⟨opening, first, second, rfl, run⟩ := applyImportInner_events execution
      obtain ⟨scope, _, members, part⟩ := run.scoped
      have unready : ¬Ready name [] := by
        rintro ⟨front, last, nothing, _⟩
        simp at nothing
      have bounded := execution_bounded [] execution part.justified
        (Nat.le_max_right 1 (albumsNamed name _)) fun ready => absurd ready unready
      omega

/-- The server over a run which creates the album. -/
theorem tripPlan_server :
    Execution.Path serverEnvironment [] (tripOpening ++ tripEffects) [⟨tripAlbumId, "Trip"⟩] := by
  repeat first
    | exact .nil _
    | refine .cons (show serverEnvironment _ _ _ from rfl) ?_
    | refine .cons (show serverEnvironment _ _ _ from ⟨.refl _, rfl⟩) ?_
    | refine .cons (show serverEnvironment _ _ _ from .inr ⟨⟨tripAlbumId, "Trip"⟩, rfl, rfl⟩) ?_

/-- The album of a first run is the only one. -/
theorem tripPlan_converges :
    ImportRuns .reference [] [⟨tripAlbumId, "Trip"⟩] ∧
      albumsNamed "Trip" [⟨tripAlbumId, "Trip"⟩] ≤ max 1 (albumsNamed "Trip" []) := by
  have runs : ImportRuns .reference [] [⟨tripAlbumId, "Trip"⟩] :=
    .run (tripPlan_returns.execution.retrace tripPlan_server) (.refl _)
  exact ⟨runs, albums_converge runs "Trip"⟩

end ImmichRs
