import ImmichRs.Client.ArchiveListing
import ImmichRs.Executor.ArchivePlan

/-!
# Archive planning

`planArchive` enumerates the selected visibilities one after the other, against what the limit
leaves, removes the assets which it met twice, and binds the rest into a manifest.
-/

namespace ImmichRs

open Interaction Collections
open Std (ExtTreeMap)

/-- `ApplicationError`, with the failures which reach a workflow over the read client. -/
inductive WorkflowError
  | client (error : ClientError)
  | executor (error : ExecutorError)
  | invalidRequest (message : String)
  | invariant (message : String)
  deriving DecidableEq, Repr

/-- Workflows over the read client which may panic. -/
abbrev Workflow (α : Type) : Type := ExceptT (Stop WorkflowError) (Program ReadAnswer) α

/-- The conversion of a client error by `?`. -/
def fromClient {α : Type} (program : ReadProgram α) : Workflow α :=
  ExceptT.mk (program.run.bind fun result =>
    .done (result.mapError fun error => .failed (.client error)))

/-- The part of a workflow which sends no request. -/
def settled {α : Type} (result : Except (Stop WorkflowError) α) : Workflow α :=
  ExceptT.mk (.done result)

/-- The visibilities of a selection. -/
def ArchiveSelection.visibilities : ArchiveSelection → List ArchiveVisibility
  | .timeline => [.timeline]
  | .archive => [.archive]
  | .hidden => [.hidden]
  | .all => [.timeline, .archive, .hidden]

/-- The loop of `plan_archive` over the visibilities. -/
def listVisibilities (platform : Platform) (client : ImmichReadClient)
    (negotiated : NegotiatedServer) (config : ArchivePlanningConfig) :
    List ArchiveVisibility → List RemoteArchiveAsset → Workflow (List RemoteArchiveAsset)
  | [], assets => return assets
  | visibility :: rest, assets => do
      let remaining := config.maxAssets - assets.length
      settled (reject (remaining == 0) (.failed (.invalidRequest "archive asset limit exceeded")))
      let selected ← fromClient <| client.listArchiveAssets platform negotiated
        { visibility
          includeTrashed := config.includeTrashed
          pageSize := config.pageSize
          maxAssets := remaining }
      listVisibilities platform client negotiated config rest (assets ++ selected)

/-- One turn of the loop which removes duplicates. -/
def insertUnique (unique : ExtTreeMap String RemoteArchiveAsset) (asset : RemoteArchiveAsset) :
    Except (Stop WorkflowError) (ExtTreeMap String RemoteArchiveAsset) := do
  reject (unique[asset.assetId]?.any fun previous => previous != asset)
    (.failed (.invariant "archive inventory facts changed"))
  return unique.insert asset.assetId asset

/-- `plan_archive`. -/
def planArchive (platform : Platform) (config : ArchivePlanningConfig)
    (client : ImmichReadClient) : Workflow ArchiveManifest := do
  let negotiated ← fromClient (client.probe platform)
  let assets ←
    listVisibilities platform client negotiated config config.selection.visibilities []
  let unique ← settled (assets.foldlM insertUnique ∅)
  settled <| (createArchiveManifest platform (unique.toList.map Prod.snd)
    negotiated.compatibility config).mapError (Stop.map .executor)

/-! ## Duplicates -/

variable {inventory : ArchiveInventory}

/-- The values of a map whose entries are given by a function are those of its distinct keys. -/
theorem values_perm {unique : ExtTreeMap String RemoteArchiveAsset}
    {facts : String → RemoteArchiveAsset} {identifiers : List String}
    (entries : ∀ identifier asset, unique[identifier]? = some asset ↔
      identifier ∈ identifiers ∧ asset = facts identifier) :
    (unique.toList.map Prod.snd).Perm (identifiers.dedup.map facts) := by
  have values : unique.toList.map Prod.snd = unique.keys.map facts := by
    rw [← ExtTreeMap.map_fst_toList_eq_keys, List.map_map]
    apply List.map_congr_left
    rintro ⟨identifier, asset⟩ member
    exact ((entries _ _).mp (ExtTreeMap.mem_toList_iff_getElem?_eq_some.mp member)).2
  rw [values]
  apply List.Perm.map
  rw [List.perm_ext_iff_of_nodup ExtTreeMap.nodup_keys (List.nodup_dedup _)]
  intro identifier
  rw [ExtTreeMap.mem_keys, List.mem_dedup]
  constructor
  · intro member
    obtain ⟨asset, found⟩ : ∃ asset, unique[identifier]? = some asset :=
      Option.isSome_iff_exists.mp (ExtTreeMap.isSome_getElem?_iff_mem.mpr member)
    exact ((entries _ _).mp found).1
  · intro member
    apply ExtTreeMap.isSome_getElem?_iff_mem.mp
    rw [(entries identifier _).mpr ⟨member, rfl⟩]
    rfl

/-- Facts which agree are never rejected, and each identifier has one entry. -/
theorem foldlM_insertUnique
    (identified : ∀ identifier, (inventory.facts identifier).assetId = identifier)
    (identifiers : List String) (unique : ExtTreeMap String RemoteArchiveAsset)
    (agree : ∀ identifier asset, unique[identifier]? = some asset →
      asset = inventory.facts identifier) :
    ∃ filled, (identifiers.map inventory.facts).foldlM insertUnique unique = .ok filled ∧
      ∀ identifier asset, filled[identifier]? = some asset ↔
        unique[identifier]? = some asset ∨
          identifier ∈ identifiers ∧ asset = inventory.facts identifier := by
  induction identifiers generalizing unique with
  | nil => exact ⟨unique, rfl, by simp⟩
  | cons head rest induction =>
      have same : (unique[head]?.any fun previous => previous != inventory.facts head) = false := by
        rw [Option.any_eq_false]
        intro previous found
        rw [agree head previous found]
        simp
      have inserted : insertUnique unique (inventory.facts head) =
          .ok (unique.insert head (inventory.facts head)) := by
        rw [insertUnique, identified, same]
        rfl
      have entries : ∀ identifier asset,
          (unique.insert head (inventory.facts head))[identifier]? = some asset ↔
            unique[identifier]? = some asset ∨
              identifier = head ∧ asset = inventory.facts identifier := by
        intro identifier asset
        by_cases equal : head = identifier
        · subst equal
          rw [ExtTreeMap.getElem?_insert_self, Option.some.injEq]
          constructor
          · exact fun found => .inr ⟨rfl, found.symm⟩
          · rintro (found | ⟨_, rfl⟩)
            · exact (agree _ _ found).symm
            · rfl
        · rw [getElem?_insert_of_ne equal]
          simp [Ne.symm equal]
      obtain ⟨filled, looped, filledEntries⟩ := induction
        (unique.insert head (inventory.facts head)) fun identifier asset found => by
          rcases (entries identifier asset).mp found with before | here
          · exact agree identifier asset before
          · exact here.2
      refine ⟨filled, ?_, fun identifier asset => ?_⟩
      · rw [List.map_cons, List.foldlM_cons, inserted]
        exact looped
      · rw [filledEntries, entries, List.mem_cons, or_and_right, or_assoc]

/-! ## Enumeration of the visibilities -/

variable {respond : (call : ReadCall) → ReadAnswer call}

theorem evaluate_fromClient_bind {α β : Type} (program : ReadProgram α)
    (next : α → Workflow β) :
    (fromClient program >>= next).run.evaluate respond =
      (program.run.evaluate respond).mapError (fun error => Stop.failed (.client error)) >>=
        fun value => (next value).run.evaluate respond := by
  rw [Program.evaluate_exceptT_bind]
  congr 1
  exact Program.evaluate_bind respond _ _

theorem evaluate_settled_bind {α β : Type} (result : Except (Stop WorkflowError) α)
    (next : α → Workflow β) :
    (settled result >>= next).run.evaluate respond =
      result >>= fun value => (next value).run.evaluate respond :=
  Program.evaluate_exceptT_bind respond _ _

/-- Each enumeration finds a place left, and takes no more than is left. -/
def Admits (limit : Nat) : Nat → List Nat → Prop
  | _, [] => True
  | used, count :: counts =>
      used < limit ∧ used + count ≤ limit ∧ Admits limit (used + count) counts

/-- The enumeration of some visibilities selects everything, or fails where one is not admitted. -/
theorem evaluate_listVisibilities {platform : Platform} {client : ImmichReadClient}
    {negotiated : NegotiatedServer} {config : ArchivePlanningConfig}
    (served : inventory.ServedBy respond config.pageSize config.includeTrashed)
    (bound : client.validateBinding platform negotiated = .ok ())
    (pageSize : 1 ≤ config.pageSize ∧ config.pageSize ≤ 1000)
    (visibilities : List ArchiveVisibility) (identifiers : List String) :
    let result := (listVisibilities platform client negotiated config visibilities
      (identifiers.map inventory.facts)).run.evaluate respond
    let counts := visibilities.map fun visibility => (inventory.selection visibility).length
    (Admits config.maxAssets identifiers.length counts →
      result = .ok ((identifiers ++ visibilities.flatMap inventory.selection).map
        inventory.facts)) ∧
      (¬ Admits config.maxAssets identifiers.length counts →
        ∃ error, result = .error (.failed error)) := by
  dsimp only
  induction visibilities generalizing identifiers with
  | nil =>
      refine ⟨fun _ => ?_, fun none => absurd trivial none⟩
      rw [List.flatMap_nil, List.append_nil]
      rfl
  | cons visibility rest induction =>
      rw [listVisibilities, List.length_map, evaluate_settled_bind]
      simp only [List.map_cons, Admits]
      by_cases full : config.maxAssets ≤ identifiers.length
      · have none : (config.maxAssets - identifiers.length == 0) = true := by
          rw [beq_iff_eq]
          omega
        rw [none]
        exact ⟨fun admitted => by omega, fun _ => ⟨_, rfl⟩⟩
      · have left : (config.maxAssets - identifiers.length == 0) = false := by
          rw [beq_eq_false_iff_ne]
          omega
        have valid : ArchiveListConfig.validate
            { visibility
              includeTrashed := config.includeTrashed
              pageSize := config.pageSize
              maxAssets := config.maxAssets - identifiers.length } = .ok () := by
          rw [ArchiveListConfig.validate, protocolCheck, reject_eq_ok]
          simp only [pageSize.1, pageSize.2, decide_true, Bool.and_self, Bool.true_and,
            Bool.not_eq_false', decide_eq_true_eq]
          omega
        have listed := evaluate_listArchiveAssets platform client negotiated served bound valid
        have pass : ∀ {β : Type} (next : Unit → Except (Stop WorkflowError) β),
            (reject false (Stop.failed (.invalidRequest "archive asset limit exceeded")) >>= next) =
              next () := fun _ => rfl
        rw [left, pass, evaluate_fromClient_bind, listed]
        dsimp only
        by_cases fits : (inventory.selection visibility).length ≤
            config.maxAssets - identifiers.length
        · have following := induction (identifiers ++ inventory.selection visibility)
          rw [List.length_append, List.map_append] at following
          rw [if_pos fits, List.flatMap_cons, ← List.append_assoc]
          constructor
          · exact fun admitted => following.1 admitted.2.2
          · refine fun refused => following.2 fun admitted => refused ⟨?_, ?_, admitted⟩
            · omega
            · omega
        · rw [if_neg fits]
          exact ⟨fun admitted => by omega, fun _ => ⟨_, rfl⟩⟩

/-! ## The result -/

/-- A probe of a supported server with a proper user returns a server of this origin. -/
theorem evaluate_probe {platform : Platform} {client : ImmichReadClient} {patch : Nat}
    {userId : String} (running : respond .isCancelled = false)
    (version : respond .version = .ok { major := 3, minor := 1, patch, prerelease := none })
    (user : respond .user = .ok userId)
    (proper : userId.isEmpty = false ∧ byteLen userId ≤ 4096) :
    (client.probe platform).run.evaluate respond = .ok
      { compatibility :=
          { version := { major := 3, minor := 1, patch }
            identitySha256 := identityDigest platform client.canonicalOrigin userId }
        originSha256 := client.originSha256 platform } := by
  have gotVersion : getVersion.run.evaluate respond =
      .ok { major := 3, minor := 1, patch, prerelease := none } := version
  have gotUser : getUser.run.evaluate respond = .ok userId := user
  have bounded : decide (4096 < byteLen userId) = false := by
    rw [decide_eq_false_iff_not]
    omega
  rw [ImmichReadClient.probe, evaluate_checkCancelled_bind running, Program.evaluate_exceptT_bind,
    gotVersion]
  show (checked _ >>= _).run.evaluate respond = _
  rw [evaluate_checked_bind]
  show (ImmichReadClient.checkCancelled >>= _).run.evaluate respond = _
  rw [evaluate_checkCancelled_bind running, Program.evaluate_exceptT_bind, gotUser]
  show (checked _ >>= _).run.evaluate respond = _
  rw [evaluate_checked_bind, proper.1, bounded]
  rfl

/-- The selected assets satisfy the rules of a manifest. -/
structure ArchiveInventory.Archivable (inventory : ArchiveInventory)
    (identifiers : List String) : Prop where
  uuid : ∀ identifier ∈ identifiers, canonicalUuidV4 identifier = true
  name : ∀ identifier ∈ identifiers,
    safeComponent (inventory.facts identifier).originalFileName = some true
  checksum : ∀ identifier ∈ identifiers,
    isSha1 (inventory.facts identifier).checksumSha1 = true
  total : totalBytes (identifiers.map fun identifier =>
    (inventory.facts identifier).byteLen) < 2 ^ 64

theorem archiveTarget_injective {first second firstName secondName : String}
    (firstUuid : canonicalUuidV4 first = true) (secondUuid : canonicalUuidV4 second = true)
    (same : archiveTarget first firstName = archiveTarget second secondName) : first = second := by
  have characters := congrArg String.toList same
  simp only [archiveTarget, String.toList_append, List.append_assoc] at characters
  have identifiers := List.append_cancel_left characters
  have lengths : first.toList.length = second.toList.length := by
    rw [length_of_uuidV4 firstUuid, length_of_uuidV4 secondUuid]
  exact String.toList_injective (List.append_inj identifiers lengths).1

/-- The manifest of distinct archivable assets is accepted. -/
theorem createArchiveManifest_of_archivable {platform : Platform} {server : ServerCompatibility}
    {config : ArchivePlanningConfig} {identifiers : List String}
    {remoteAssets : List RemoteArchiveAsset}
    (lower : ∀ bytes, isLowerSha256 (platform.sha256 bytes) = true)
    (identified : ∀ identifier, (inventory.facts identifier).assetId = identifier)
    (valid : config.validate = .ok ()) (identity : isLowerSha256 server.identitySha256 = true)
    (version : server.version.major = 3 ∧ server.version.minor = 1)
    (permuted : remoteAssets.Perm (identifiers.map inventory.facts))
    (distinct : identifiers.Nodup) (small : identifiers.length ≤ config.maxAssets)
    (archivable : inventory.Archivable identifiers) :
    ∃ manifest, createArchiveManifest platform remoteAssets server config = .ok manifest ∧
      manifest.assets.Perm (identifiers.map fun identifier =>
        archiveAsset (inventory.facts identifier)) := by
  have listed : (sortBy ArchiveAsset.targetPath (remoteAssets.map archiveAsset)).Perm
      (identifiers.map fun identifier => archiveAsset (inventory.facts identifier)) := by
    refine (perm_sortBy _ _).trans ((permuted.map archiveAsset).trans ?_)
    rw [List.map_map]
    exact List.Perm.refl _
  have origin : ∀ asset ∈ sortBy ArchiveAsset.targetPath (remoteAssets.map archiveAsset),
      ∃ identifier ∈ identifiers, asset = archiveAsset (inventory.facts identifier) := by
    intro asset member
    obtain ⟨identifier, present, rfl⟩ := List.mem_map.mp (listed.mem_iff.mp member)
    exact ⟨identifier, present, rfl⟩
  have total : totalBytes ((sortBy ArchiveAsset.targetPath (remoteAssets.map archiveAsset)).map
      ArchiveAsset.byteLen) =
        totalBytes (identifiers.map fun identifier => (inventory.facts identifier).byteLen) := by
    rw [totalBytes, totalBytes, ((listed.map ArchiveAsset.byteLen).map UInt64.toNat).sum_eq,
      List.map_map, List.map_map, List.map_map]
    rfl
  have identifiersOf : (identifiers.map fun identifier =>
      archiveAsset (inventory.facts identifier)).map ArchiveAsset.assetId = identifiers := by
    rw [List.map_map]
    exact (List.map_congr_left fun identifier _ => identified identifier).trans (List.map_id _)
  have targets : ((remoteAssets.map archiveAsset).map ArchiveAsset.targetPath).Nodup := by
    rw [((permuted.map archiveAsset).map ArchiveAsset.targetPath).nodup_iff, List.map_map,
      List.map_map]
    apply distinct.map_on
    intro first firstMember second secondMember same
    simp only [Function.comp_apply, archiveAsset, identified] at same
    exact archiveTarget_injective (archivable.uuid first firstMember)
      (archivable.uuid second secondMember) same
  refine ⟨_, createArchiveManifest_eq_ok.mpr ⟨valid, ?_, UInt64.ofNat (totalBytes
    (identifiers.map fun identifier => (inventory.facts identifier).byteLen)), rfl, ?_⟩, listed⟩
  · rw [permuted.length_eq, List.length_map]
    exact small
  · constructor
    · rfl
    · exact lower _
    · exact identity
    · exact version
    · intro asset member
      obtain ⟨identifier, present, rfl⟩ := origin asset member
      refine ⟨?_, archivable.name identifier present, archivable.checksum identifier present, rfl⟩
      show canonicalUuidV4 (inventory.facts identifier).assetId = true
      rw [identified]
      exact archivable.uuid identifier present
    · show ((sortBy _ _).map ArchiveAsset.assetId).Nodup
      rw [(listed.map ArchiveAsset.assetId).nodup_iff, identifiersOf]
      exact distinct
    · exact pairwise_map_sortBy targets
    · show remoteAssets.length = (sortBy _ _).length
      rw [(perm_sortBy _ _).length_eq, List.length_map]
    · show (UInt64.ofNat _).toNat = totalBytes ((sortBy _ _).map ArchiveAsset.byteLen)
      rw [total, UInt64.toNat_ofNat_of_lt' archivable.total]

/-- Planning everything against a served inventory is complete exactly when either the distinct
assets are above the limit, or the enumerations, which count an asset once for each visibility that
yields it, leave a place for the last one and stay within the limit. -/
theorem planArchive_complete_iff {platform : Platform} (client : ImmichReadClient)
    (config : ArchivePlanningConfig) {patch : Nat} {userId : String}
    (lower : ∀ bytes, isLowerSha256 (platform.sha256 bytes) = true)
    (selectsAll : config.selection = .all) (valid : config.validate = .ok ())
    (served : inventory.ServedBy respond config.pageSize config.includeTrashed)
    (version : respond .version = .ok { major := 3, minor := 1, patch, prerelease := none })
    (user : respond .user = .ok userId)
    (proper : userId.isEmpty = false ∧ byteLen userId ≤ 4096)
    (archivable : inventory.Archivable (inventory.selected ArchiveSelection.all.visibilities)) :
    let result := (planArchive platform config client).run.evaluate respond
    let selected := inventory.selected ArchiveSelection.all.visibilities
    let count := fun visibility => (inventory.selection visibility).length
    (((∃ manifest, result = .ok manifest) ↔ selected.length ≤ config.maxAssets) ∧
      ∀ manifest, result = .ok manifest →
        manifest.assets.Perm (selected.map fun identifier =>
          archiveAsset (inventory.facts identifier))) ↔
      (selected.length ≤ config.maxAssets →
        count .timeline + count .archive < config.maxAssets ∧
          count .timeline + count .archive + count .hidden ≤ config.maxAssets) := by
  intro result selected count
  have limits := valid
  rw [ArchivePlanningConfig.validate, reject_eq_ok] at limits
  simp only [within, Bool.not_eq_false', Bool.and_eq_true, decide_eq_true_eq] at limits
  obtain ⟨pageSize, positive⟩ := limits
  let negotiated : NegotiatedServer :=
    { compatibility :=
        { version := { major := 3, minor := 1, patch }
          identitySha256 := identityDigest platform client.canonicalOrigin userId }
      originSha256 := client.originSha256 platform }
  have bound : client.validateBinding platform negotiated = .ok () := by
    rw [ImmichReadClient.validateBinding, bne_self_eq_false]
    rfl
  have admitted : Admits config.maxAssets 0 [count .timeline, count .archive, count .hidden] ↔
      count .timeline + count .archive < config.maxAssets ∧
        count .timeline + count .archive + count .hidden ≤ config.maxAssets := by
    simp only [Admits, Nat.zero_add, and_true]
    omega
  have probed : result = (listVisibilities platform client negotiated config
      ArchiveSelection.all.visibilities []).run.evaluate respond >>= fun assets =>
        assets.foldlM insertUnique ∅ >>= fun unique =>
          (createArchiveManifest platform (unique.toList.map Prod.snd) negotiated.compatibility
            config).mapError (Stop.map .executor) := by
    show (planArchive platform config client).run.evaluate respond = _
    rw [planArchive, evaluate_fromClient_bind, evaluate_probe served.running version user proper,
      selectsAll]
    show (listVisibilities platform client negotiated config _ [] >>= _).run.evaluate respond = _
    rw [Program.evaluate_exceptT_bind]
    congr 1
    funext assets
    exact evaluate_settled_bind _ _
  obtain ⟨listed, refused⟩ := evaluate_listVisibilities served bound pageSize
    ArchiveSelection.all.visibilities []
  by_cases fits : Admits config.maxAssets 0 [count .timeline, count .archive, count .hidden]
  · have within : (inventory.selected ArchiveSelection.all.visibilities).length ≤
        config.maxAssets := by
      have bounded := inventory.length_selected_le ArchiveSelection.all.visibilities
      have enough : (inventory.selection .timeline).length +
          (inventory.selection .archive).length + (inventory.selection .hidden).length ≤
            config.maxAssets := (admitted.mp fits).2
      simp only [ArchiveSelection.visibilities, List.map_cons, List.map_nil, List.sum_cons,
        List.sum_nil] at bounded
      exact bounded.trans (by omega)
    obtain ⟨filled, looped, entries⟩ := foldlM_insertUnique served.identified
      (ArchiveSelection.all.visibilities.flatMap inventory.selection)
      ∅ fun identifier asset found => by simp at found
    have permuted : (filled.toList.map Prod.snd).Perm
        ((inventory.selected ArchiveSelection.all.visibilities).map inventory.facts) := by
      refine (values_perm fun identifier asset => ?_).trans
        ((inventory.perm_selected _).map inventory.facts)
      rw [entries]
      simp
    have identity : isLowerSha256 negotiated.compatibility.identitySha256 = true := lower _
    obtain ⟨manifest, created, assets⟩ := createArchiveManifest_of_archivable lower
      served.identified valid identity ⟨rfl, rfl⟩ permuted (List.nodup_dedup _) within archivable
    have enumerated : (listVisibilities platform client negotiated config
        ArchiveSelection.all.visibilities []).run.evaluate respond =
          .ok ((ArchiveSelection.all.visibilities.flatMap inventory.selection).map
            inventory.facts) := listed fits
    have returned : result = .ok manifest := by
      rw [probed, enumerated]
      show (List.foldlM insertUnique ∅ _ >>= _) = _
      rw [looped]
      show Except.mapError _ _ = _
      rw [created]
      rfl
    refine iff_of_true ⟨iff_of_true ⟨manifest, returned⟩ within, fun other same => ?_⟩
      fun _ => admitted.mp fits
    rw [returned] at same
    obtain rfl := Except.ok.inj same
    exact assets
  · obtain ⟨error, failed⟩ := refused fits
    have enumerated : (listVisibilities platform client negotiated config
        ArchiveSelection.all.visibilities []).run.evaluate respond =
          .error (.failed error) := failed
    have returned : result = .error (.failed error) := by
      rw [probed, enumerated]
      rfl
    have none : ¬ ∃ manifest, result = .ok manifest := by
      rintro ⟨manifest, same⟩
      rw [returned] at same
      cases same
    constructor
    · intro complete within
      exact absurd (complete.1.mpr within) none
    · intro condition
      refine ⟨iff_of_false none fun within => fits (admitted.mpr (condition within)), ?_⟩
      exact fun manifest same => absurd ⟨manifest, same⟩ none

/-! ## A live photo -/

/-- An identifier of the sample. -/
def sampleAssetId (digit : Char) : String := (sampleRemoteAsset digit "").assetId

/-- A timeline image which links a hidden video. -/
def sampleInventory : ArchiveInventory :=
  { listed := fun
      | .timeline => [sampleAssetId '1']
      | .archive => []
      | .hidden => [sampleAssetId '2']
    facts := fun identifier => { sampleRemoteAsset '1' "a.jpg" with assetId := identifier }
    linked := fun identifier =>
      if identifier = sampleAssetId '1' then some (sampleAssetId '2') else none }

/-- The answer about one asset of the sample. -/
def sampleItem (identifier : String) : ArchiveAssetResponse :=
  { id := identifier
    originalFileName := "a.jpg"
    checksum := "qZk+NkcGgWq6PiVxeFDCbJzQ2J0="
    type_ := .image
    exifInfo := some (some 3)
    livePhotoVideoId := sampleInventory.linked identifier }

/-- A server which lists each visibility of the sample on one page. -/
def samplePage (identifiers : List String) : ArchiveSearchAssets :=
  { items := identifiers.map sampleItem
    count := identifiers.length
    nextPage := none
    total := identifiers.length }

/-- The answers of the sample server. -/
def sampleRespond : (call : ReadCall) → ReadAnswer call
  | .isCancelled => false
  | .version => .ok { major := 3, minor := 1, patch := 0, prerelease := none }
  | .user => .ok "user"
  | .search request => .ok <| samplePage <|
      if request.visibility = "timeline" then sampleInventory.listed .timeline
      else if request.visibility = "hidden" then sampleInventory.listed .hidden
      else sampleInventory.listed .archive
  | .asset identifier => .ok (sampleItem identifier)

theorem sampleItem_describes :
    ∀ identifier ∈ [sampleAssetId '1', sampleAssetId '2'],
      sampleInventory.Describes (sampleItem identifier) identifier := by
  unfold ArchiveInventory.Describes
  decide +kernel

theorem sampleInventory_served (pageSize : Nat) (includeTrashed : Bool) :
    sampleInventory.ServedBy sampleRespond pageSize includeTrashed where
  running := rfl
  identified _ := rfl
  pages visibility := by
    have first := sampleItem_describes _ List.mem_cons_self
    have second := sampleItem_describes _ (List.mem_cons_of_mem _ List.mem_cons_self)
    cases visibility with
    | timeline => exact .last (.cons first .nil) rfl
    | archive => exact .last .nil rfl
    | hidden => exact .last (.cons second .nil) rfl
  videos visibility identifier listed video linked := by
    refine ⟨sampleItem video, rfl, sampleItem_describes video ?_⟩
    have linkedVideo : video = sampleAssetId '2' := by
      simp only [sampleInventory, Option.mem_def, Option.ite_none_right_eq_some,
        Option.some.injEq] at linked
      exact linked.2.symm
    rw [linkedVideo]
    exact List.mem_cons_of_mem _ List.mem_cons_self

theorem sampleInventory_selected :
    sampleInventory.selected ArchiveSelection.all.visibilities =
      [sampleAssetId '1', sampleAssetId '2'] := by
  decide +kernel

theorem sampleInventory_archivable :
    sampleInventory.Archivable (sampleInventory.selected ArchiveSelection.all.visibilities) := by
  rw [sampleInventory_selected]
  constructor
  · decide +kernel
  · decide +kernel
  · decide +kernel
  · decide +kernel

/-- Everything may be selected, up to a limit. -/
def sampleArchiveConfig (maxAssets : Nat) : ArchivePlanningConfig :=
  { ArchivePlanningConfig.default with selection := .all, maxAssets }

/-- With room for both assets twice, the plan of the sample is complete. -/
theorem samplePlanArchive_complete :
    let result := (planArchive .reference (sampleArchiveConfig 4)
      { canonicalOrigin := "http://localhost" }).run.evaluate sampleRespond
    (((∃ manifest, result = .ok manifest) ↔
        (sampleInventory.selected ArchiveSelection.all.visibilities).length ≤ 4) ∧
      ∀ manifest, result = .ok manifest →
        manifest.assets.Perm ((sampleInventory.selected ArchiveSelection.all.visibilities).map
          fun identifier => archiveAsset (sampleInventory.facts identifier))) :=
  (planArchive_complete_iff { canonicalOrigin := "http://localhost" } (sampleArchiveConfig 4)
    isLowerSha256_sha256Hex rfl rfl (sampleInventory_served _ _) rfl rfl
    ⟨rfl, by decide +kernel⟩ sampleInventory_archivable).mpr
    fun _ => by decide +kernel

/-- With a limit of two, the two distinct assets of the sample are refused: the timeline alone
uses up the limit, and the archive, which is empty, is then asked for with nothing left. -/
theorem samplePlanArchive_refused :
    sampleInventory.ServedBy sampleRespond (sampleArchiveConfig 2).pageSize false ∧
      sampleInventory.Archivable (sampleInventory.selected ArchiveSelection.all.visibilities) ∧
      (sampleInventory.selected ArchiveSelection.all.visibilities).length = 2 ∧
      (planArchive .reference (sampleArchiveConfig 2)
        { canonicalOrigin := "http://localhost" }).run.evaluate sampleRespond =
          .error (.failed (.invalidRequest "archive asset limit exceeded")) := by
  refine ⟨sampleInventory_served _ _, sampleInventory_archivable, ?_, ?_⟩
  · rw [sampleInventory_selected]
    rfl
  · decide +kernel

end ImmichRs
