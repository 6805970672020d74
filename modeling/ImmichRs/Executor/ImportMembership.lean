import ImmichRs.Executor.ImportResume

/-!
# Album memberships

Albums are worked on only when every operation of the plan has a durable asset id, so a membership
request carries the whole album, with the assets of earlier runs.
-/

namespace ImmichRs

open Interaction
open Std (ExtTreeMap ExtTreeSet)

/-- The journal holds an asset of the operation: the run has read it, or stored it. -/
def DurableAsset (events : List (Event Answer)) (operationId assetId : String) : Prop :=
  (∃ rows state, (⟨.readEffects, .ok rows⟩ : Event Answer) ∈ events ∧
    importState rows = .ok state ∧ state.assetId operationId = some assetId) ∨
    StoredAsset events operationId assetId

/-- An event which belongs to an album: a request for it or for its membership, or a row of its
membership. -/
def ConcernsAlbum (platform : Platform) (event : Event Answer) : Prop :=
  (∃ identity, requested platform event = some (.album identity) ∨
      requested platform event = some (.membership identity)) ∨
    ∃ row identity, attempted event = some row ∧ row.effectKey = membershipKey identity

section

variable {platform : Platform} {plan : UploadPlan} {config : ImportConfig}

/-- Parts of a run which work on operations alone do not concern albums. -/
theorem Scoped.not_concernsAlbum {members : String → List String → Prop} {attempts : Nat}
    {scope : List EffectKey} {events : List (Event Answer)}
    (part : Scoped platform members attempts scope events)
    (operations : ∀ key ∈ scope, ∃ id, key = .asset id ∨ key = .metadata id)
    {event : Event Answer} (member : event ∈ events) : ¬ConcernsAlbum platform event := by
  rintro (⟨identity, request⟩ | ⟨row, identity, appends, named⟩)
  · rcases request with request | request
    all_goals
      obtain ⟨id, same | same⟩ :=
        operations _ (part.requests _ (List.mem_filterMap.mpr ⟨event, member, request⟩)) <;>
      cases same
  · have listed : row ∈ attemptedRows events := List.mem_filterMap.mpr ⟨event, member, appends⟩
    obtain ⟨key, inScope, render⟩ :=
      List.mem_map.mp (part.rows.subset (List.mem_map_of_mem listed))
    have same : key = .membership identity := EffectKey.render_injective (render.trans named)
    obtain ⟨id, other | other⟩ := operations key inScope <;> rw [other] at same <;> cases same

/-- The events which concern albums are in the last part of a run. -/
theorem RunEvents.position {opening first second before after : List (Event Answer)}
    {event : Event Answer} (run : RunEvents platform plan config opening first second)
    (split : opening ++ (first ++ second) = before ++ event :: after)
    (concerns : ConcernsAlbum platform event) :
    ∃ state assetIds front, Opened platform plan config opening state ∧
      Durable plan state first assetIds ∧ before = opening ++ (first ++ front) ∧
      Throughout (Justified (MemberIds platform plan assetIds)) (front ++ event :: after) := by
  have outside : event ∉ opening := fun member =>
    run.start.not_concernsAlbum (by simp) member concerns
  rcases run.effects with ⟨rfl, rfl⟩ | ⟨state, opened, effects⟩
  · rw [List.append_nil, List.append_nil] at split
    exact absurd (by rw [split]; simp) outside
  · obtain ⟨operations, _, part⟩ := effects.operations
    have elsewhere : event ∉ first := by
      refine fun member => part.not_concernsAlbum (fun key listed => ?_) member concerns
      obtain ⟨operation, _, inside⟩ := List.mem_flatMap.mp (List.mem_filter.mp listed).1
      exact ⟨operation.operationId, mem_operationKeys inside⟩
    rw [← List.append_assoc] at split
    rcases List.append_eq_append_iff.mp split with ⟨front, rfl, rest⟩ | ⟨middle, same, rest⟩
    · rcases effects.albums with nothing | ⟨assetIds, durable, albums⟩
      · rw [nothing] at rest
        simp at rest
      · refine ⟨state, assetIds, front, opened, durable, List.append_assoc _ _ _, ?_⟩
        rw [← rest]
        exact albums.justified
    · cases middle with
      | nil =>
          rcases effects.albums with nothing | ⟨assetIds, durable, albums⟩
          · rw [nothing] at rest
            cases rest
          · refine ⟨state, assetIds, [], opened, durable, ?_, ?_⟩
            · rw [List.append_nil] at same ⊢
              exact same.symm
            · have justified := albums.justified
              rw [List.nil_append] at rest
              rwa [← rest] at justified
      | cons head middle =>
          obtain ⟨rfl, _⟩ := List.cons.inj rest
          have member : event ∈ opening ++ first := by rw [same]; simp
          exact (List.mem_append.mp member).elim (absurd · outside) (absurd · elsewhere)

/-- Asset ids which are durable after the operations stay durable. -/
theorem Durable.asset {opening first : List (Event Answer)} {state : ImportState}
    {assetIds : ExtTreeMap String String} (durable : Durable plan state first assetIds)
    (opened : Opened platform plan config opening state) (front : List (Event Answer)) {operation : UploadOperation}
    (member : operation ∈ plan.operations) :
    ∃ assetId, assetIds[operation.operationId]? = some assetId ∧
      DurableAsset (opening ++ (first ++ front)) operation.operationId assetId := by
  obtain ⟨assetId, found, resumed | stored⟩ := durable operation member
  · obtain ⟨rows, read, collected⟩ := opened.journal
    exact ⟨assetId, found, .inl ⟨rows, state, List.mem_append_left _ read, collected, resumed⟩⟩
  · refine ⟨assetId, found, .inr (stored.mono fun event inside => ?_)⟩
    exact List.mem_append_right _ (List.mem_append_left _ inside)

/-- A membership request carries the asset of every operation which lists the album. -/
theorem MemberIds.mem {assetIds : ExtTreeMap String String} {name : String} {ids : List String}
    (distinct : AlbumsDistinct platform plan)
    (members : MemberIds platform plan assetIds (albumIdentity platform name) ids)
    {operation : UploadOperation} (member : operation ∈ plan.operations)
    (lists : name ∈ operation.albums) {assetId : String}
    (found : assetIds[operation.operationId]? = some assetId) : assetId ∈ ids := by
  obtain ⟨other, set, kept, same, rfl⟩ := members
  have contained : (albumMembers plan assetIds).contains other = true := by
    rw [ExtTreeMap.contains_eq_isSome_getElem?, kept]
    rfl
  obtain ⟨lister, listed, lists', _⟩ := (albumMembers_spec plan assetIds other).2.mp contained
  obtain rfl : other = name :=
    distinct other (mem_albumNames.mpr ⟨lister, listed, lists'⟩) name
      (mem_albumNames.mpr ⟨operation, member, lists⟩) same
  have inside := ((albumMembers_spec plan assetIds other).1 assetId).mpr
    ⟨operation, member, lists, found⟩
  rw [kept, Option.getD_some] at inside
  exact ExtTreeSet.mem_toList.mpr inside

end

/-- In every run, finished or cut off, no request for an album or its membership is sent before
every operation of the plan has a durable asset id, and a membership is recorded as completed only
after a request which succeeded and carried the asset of every operation which lists the album. -/
theorem memberships_complete {World : Type} {environment : Environment Answer World}
    {platform : Platform} {plan : UploadPlan} (distinct : AlbumsDistinct platform plan)
    {config : ImportConfig} {client : ClientBinding} {backupReferenceSha256 : Option String}
    {before after : World} {events : List (Event Answer)}
    {final : Executor (Except ExecutorError ImportApplyReport)}
    (execution : Execution environment
      (applyImportInner platform plan config client backupReferenceSha256).run before events final
      after) :
    (∀ earlier event later, events = earlier ++ event :: later →
      (∃ identity, requested platform event = some (.album identity) ∨
        requested platform event = some (.membership identity)) →
      ∀ operation ∈ plan.operations, ∃ assetId,
        DurableAsset earlier operation.operationId assetId) ∧
      ∀ earlier row answer later, events = earlier ++ ⟨.appendEffect row, answer⟩ :: later →
        row.outcome = .completed → ∀ name,
          row.effectKey = membershipKey (albumIdentity platform name) →
            ∃ albumId ids,
              (⟨.addAlbumAssets (albumIdentity platform name) albumId ids, .ok ()⟩ :
                Event Answer) ∈ earlier ∧
              ∀ operation ∈ plan.operations, name ∈ operation.albums →
                ∃ assetId ∈ ids, DurableAsset earlier operation.operationId assetId := by
  obtain ⟨opening, first, second, rfl, run⟩ := applyImportInner_events execution
  refine ⟨fun earlier event later split request operation member => ?_,
    fun earlier row answer later split completed name named => ?_⟩
  · obtain ⟨state, assetIds, front, opened, durable, rfl, _⟩ := run.position split (.inl request)
    obtain ⟨assetId, _, kept⟩ := durable.asset opened front member
    exact ⟨assetId, kept⟩
  · obtain ⟨state, assetIds, front, opened, durable, rfl, justified⟩ :=
      run.position split (.inr ⟨row, _, rfl, named⟩)
    obtain ⟨albumId, ids, sent⟩ :=
      (justified front _ later rfl).confirm row _ rfl named completed
    obtain ⟨early, late, rfl⟩ := List.append_of_mem sent
    have carried := (justified early _ (late ++ ⟨.appendEffect row, answer⟩ :: later)
      (List.append_assoc _ _ _)).member _ albumId ids rfl
    refine ⟨albumId, ids, List.mem_append_right _ (List.mem_append_right _ sent),
      fun operation member lists => ?_⟩
    obtain ⟨assetId, found, kept⟩ := durable.asset opened _ member
    exact ⟨assetId, carried.mem distinct member lists found, kept⟩

/-- The membership of a whole run of the album was requested with its image. -/
theorem tripPlan_membership :
    ∃ albumId ids, (⟨.addAlbumAssets tripIdentity albumId ids, .ok ()⟩ : Event Answer) ∈
        tripOpening ++ tripEffects.take 9 ∧
      ∃ assetId ∈ ids, DurableAsset (tripOpening ++ tripEffects.take 9)
        tripOperation.operationId assetId := by
  obtain ⟨_, confirmed⟩ := memberships_complete tripPlan_albums_distinct tripPlan_returns.execution
  obtain ⟨albumId, ids, sent, members⟩ := confirmed (tripOpening ++ tripEffects.take 9) _ _ [] rfl
    rfl "Trip" rfl
  exact ⟨albumId, ids, sent, members tripOperation List.mem_cons_self List.mem_cons_self⟩

end ImmichRs
