import ImmichRs.Client.ArchiveListing
import ImmichRs.Client.Migration

/-!
# Enumerations against every server

Both page loops search, accept the answer and go on with what they have collected.  An accepted
page which is not the last adds an item, and no item exceeds the limit: so the limit bounds the
searches, whatever the server answers.
-/

namespace ImmichRs

open Interaction Collections

variable {α σ : Type}

/-! ## Searches -/

/-- A search, whatever its answer. -/
def isSearch : Event ReadAnswer → Bool
  | ⟨.search _, _⟩ => true
  | _ => false

/-- The number of searches in a run. -/
def searches (events : List (Event ReadAnswer)) : Nat := events.countP isSearch

/-- The page in a successful answer to a search. -/
def searchedPage : Event ReadAnswer → Option ArchiveSearchAssets
  | ⟨.search _, .ok page⟩ => some page
  | _ => none

/-- The pages of a run, in order. -/
def searchedPages (events : List (Event ReadAnswer)) : List ArchiveSearchAssets :=
  events.filterMap searchedPage

theorem searches_append (past events : List (Event ReadAnswer)) :
    searches (past ++ events) = searches past + searches events :=
  List.countP_append

theorem searchedPages_append (past events : List (Event ReadAnswer)) :
    searchedPages (past ++ events) = searchedPages past ++ searchedPages events :=
  List.filterMap_append

theorem traces_checkCancelled_bind (next : Unit → ReadProgram α)
    (post : List (Event ReadAnswer) → Except ClientError α → Prop) :
    (ImmichReadClient.checkCancelled >>= next).run.Traces post ↔
      post [⟨.isCancelled, true⟩] (.error (.new .cancelled)) ∧
        (next ()).run.Traces fun events outcome =>
          post (⟨.isCancelled, false⟩ :: events) outcome := by
  rw [Program.traces_exceptT_bind]
  constructor
  · intro traces
    exact ⟨traces true, traces false⟩
  · intro ⟨stopped, running⟩ cancelled
    cases cancelled with
    | true => exact stopped
    | false => exact running

theorem traces_checked_bind (result : Except ClientError σ) (next : σ → ReadProgram α)
    (post : List (Event ReadAnswer) → Except ClientError α → Prop) :
    (checked result >>= next).run.Traces post ↔
      match result with
      | .ok value => (next value).run.Traces post
      | .error error => post [] (.error error) := by
  rw [Program.traces_exceptT_bind]
  cases result <;> rfl

theorem traces_getAsset_bind (identifier : String) (next : ArchiveAssetResponse → ReadProgram α)
    (post : List (Event ReadAnswer) → Except ClientError α → Prop) :
    (getAsset identifier >>= next).run.Traces post ↔
      (∀ error, post [⟨.asset identifier, .error error⟩] (.error error)) ∧
        ∀ item, (next item).run.Traces fun events outcome =>
          post (⟨.asset identifier, .ok item⟩ :: events) outcome := by
  rw [Program.traces_exceptT_bind]
  constructor
  · intro traces
    exact ⟨fun error => traces (.error error), fun item => traces (.ok item)⟩
  · intro ⟨failed, fetched⟩ answer
    cases answer with
    | error error => exact failed error
    | ok item => exact fetched item

/-- One turn of a page loop. -/
def searchTurn (request : σ → ArchiveSearchRequest)
    (accept : σ → ArchiveSearchAssets → Except ClientError (σ ⊕ α)) (state : σ) :
    ReadProgram (σ ⊕ α) := do
  ImmichReadClient.checkCancelled
  let response ← postSearch (request state)
  checked (accept state response)

/-- An error returns no value. -/
theorem ok_of_error {ε β : Type} {error : ε} {post : β → Prop} (value : β)
    (failed : (Except.error error : Except ε β) = .ok value) : post value := by
  cases failed

/-- A turn searches at most once, and an accepted page is the only one. -/
theorem searchTurn_traces (request : σ → ArchiveSearchRequest)
    (accept : σ → ArchiveSearchAssets → Except ClientError (σ ⊕ α)) (state : σ) :
    (searchTurn request accept state).run.Traces fun events outcome =>
      searches events ≤ 1 ∧ ∀ value, outcome = .ok value →
        ∃ response, searchedPages events = [response] ∧ accept state response = .ok value := by
  rw [searchTurn, traces_checkCancelled_bind]
  refine ⟨⟨Nat.zero_le 1, ok_of_error⟩, ?_⟩
  rw [Program.traces_exceptT_bind]
  intro answer
  cases answer with
  | error error => exact ⟨le_rfl, ok_of_error⟩
  | ok response => exact ⟨le_rfl, fun value returned => ⟨response, rfl, returned⟩⟩

section

variable {request : σ → ArchiveSearchRequest}
  {accept : σ → ArchiveSearchAssets → Except ClientError (σ ⊕ α)} {size : σ → Nat} {limit : Nat}

/-- Where accepted pages add to a bounded size, enough fuel gives the unbounded loop. -/
theorem searchTurns_fuel {exhausted : ClientError}
    (grows : ∀ state response next, accept state response = .ok (.inl next) →
      size state < size next ∧ size next ≤ limit) {fuel more : Nat} {state : σ}
    (enough : limit < fuel) (larger : limit < more) :
    Program.turns (searchTurn request accept) exhausted fuel state =
      Program.turns (searchTurn request accept) exhausted more state := by
  apply @Program.turns_fuel _ _ _ _ _ _ _ fun state => limit - size state
  · intro state
    refine (searchTurn_traces request accept state).mono fun events outcome turned next continued => ?_
    obtain ⟨response, _, accepted⟩ := turned.2 _ continued
    obtain ⟨larger, bounded⟩ := grows state response next accepted
    omega
  · omega
  · omega

/-- What a page loop collects from every server: `collected` holds of the pages so far and the
state, and `complete` of all pages and the result. -/
theorem searchTurns_traces {exhausted : ClientError}
    (collected : List ArchiveSearchAssets → σ → Prop)
    (complete : List ArchiveSearchAssets → α → Prop)
    (continues : ∀ pages state response next, collected pages state →
      accept state response = .ok (.inl next) →
        collected (pages ++ [response]) next ∧ size state < size next ∧ size next ≤ limit)
    (ends : ∀ pages state response value, collected pages state →
      accept state response = .ok (.inr value) → complete (pages ++ [response]) value)
    {fuel : Nat} {state : σ} (enough : limit < fuel) (start : collected [] state) :
    (Program.turns (searchTurn request accept) exhausted fuel state).run.Traces
      fun events outcome => searches events ≤ limit + 1 ∧
        ∀ value, outcome = .ok value → complete (searchedPages events) value := by
  have loop := @Program.turns_traces _ _ _ _ _ (searchTurn request accept) exhausted
    (fun events outcome => searches events ≤ limit + 1 ∧
      ∀ value, outcome = .ok value → complete (searchedPages events) value)
    (fun state past => collected (searchedPages past) state ∧ searches past ≤ limit ∧
      searches past ≤ size state) (fun state => limit - size state)
  simpa only [List.nil_append] using loop (by
    intro state past ⟨held, bounded, few⟩
    refine (searchTurn_traces request accept state).mono fun events outcome turned => ?_
    obtain ⟨once, accepted⟩ := turned
    cases outcome with
    | error error =>
        refine ⟨?_, ok_of_error⟩
        rw [searches_append]
        omega
    | ok outcome =>
        obtain ⟨response, page, returned⟩ := accepted _ rfl
        cases outcome with
        | inl next =>
            obtain ⟨following, larger, fits⟩ := continues _ _ _ _ held returned
            rw [searchedPages_append, page, searches_append]
            exact ⟨⟨following, by omega, by omega⟩, by omega⟩
        | inr value =>
            refine ⟨?_, fun other same => ?_⟩
            · rw [searches_append]
              omega
            · cases same
              rw [searchedPages_append, page]
              exact ends _ _ _ _ held returned) fuel state [] (by omega)
    ⟨start, Nat.zero_le _, Nat.zero_le _⟩

end

/-! ## Accepted pages -/

theorem count_of_nextPage {response : ArchiveSearchAssets} {page next : Nat}
    (continued : nextPage response page = .ok (some next)) : response.count ≠ 0 := by
  intro empty
  rw [nextPage, empty] at continued
  split at continued
  · cases continued
  · rw [if_pos rfl] at continued
    cases continued

/-- The entries of some items in order. -/
def Converts (items : List ArchiveAssetResponse)
    (entries : List (RemoteArchiveAsset × Option String)) : Prop :=
  List.Forall₂ (fun item entry => convertAsset item = .ok entry) items entries

theorem foldlM_pushItem_ok {maxAssets : Nat} {items : List ArchiveAssetResponse}
    {collected result : List RemoteArchiveAsset × List String}
    (pushed : items.foldlM (pushItem maxAssets) collected = .ok result) :
    ∃ entries, Converts items entries ∧
      result = (collected.1 ++ entries.map Prod.fst, collected.2 ++ entries.filterMap Prod.snd) ∧
      (items ≠ [] → result.1.length ≤ maxAssets) := by
  induction items generalizing collected with
  | nil =>
      cases pushed
      refine ⟨[], .nil, ?_, fun filled => absurd rfl filled⟩
      rw [List.map_nil, List.filterMap_nil, List.append_nil, List.append_nil]
  | cons item rest induction =>
      rw [List.foldlM_cons, bind_eq_ok] at pushed
      obtain ⟨middle, first, later⟩ := pushed
      obtain ⟨entries, converted, returned, bounded⟩ := induction later
      rw [pushItem, reject_bind_eq_ok, bind_eq_ok, decide_eq_false_iff_not] at first
      obtain ⟨room, entry, head, same⟩ := first
      cases same
      refine ⟨entry :: entries, .cons head converted, ?_, fun _ => ?_⟩
      · rw [returned, List.map_cons, List.append_assoc, List.append_assoc, List.filterMap_cons]
        cases entry.2 <;> rfl
      · cases rest with
        | nil =>
            cases later
            rw [List.length_append, List.length_singleton]
            omega
        | cons second rest => exact bounded (List.cons_ne_nil second rest)

theorem acceptPage_ok {config : ArchiveListConfig} {state : ArchivePages}
    {response : ArchiveSearchAssets} {outcome : ArchivePages ⊕ ArchivePages}
    (accepted : acceptPage config state response = .ok outcome) :
    ∃ entries following, Converts response.items entries ∧
      (response.items ≠ [] → state.assets.length + entries.length ≤ config.maxAssets) ∧
      (following ≠ none → response.items ≠ []) ∧
      outcome = match following with
        | some page => .inl {
            assets := state.assets ++ entries.map Prod.fst
            relatedIds := state.relatedIds ++ entries.filterMap Prod.snd
            page }
        | none => .inr { state with
            assets := state.assets ++ entries.map Prod.fst
            relatedIds := state.relatedIds ++ entries.filterMap Prod.snd } := by
  rw [acceptPage, reject_bind_eq_ok, reject_bind_eq_ok, bind_eq_ok, bne_eq_false_iff_eq] at accepted
  simp only [bind_eq_ok] at accepted
  obtain ⟨_, counted, collected, pushed, following, next, same⟩ := accepted
  obtain ⟨entries, converted, rfl, bounded⟩ := foldlM_pushItem_ok pushed
  refine ⟨entries, following, converted, fun filled => ?_, fun continued empty => ?_, ?_⟩
  · have within := bounded filled
    rwa [List.length_append, List.length_map] at within
  · obtain ⟨page, rfl⟩ := Option.ne_none_iff_exists'.mp continued
    rw [empty] at counted
    exact count_of_nextPage next counted
  · cases following <;> cases same <;> rfl

theorem length_pos_of_converts {items : List ArchiveAssetResponse}
    {entries : List (RemoteArchiveAsset × Option String)} (converted : Converts items entries)
    (filled : items ≠ []) : 0 < entries.length := by
  rw [← converted.length_eq]
  exact List.length_pos_iff.mpr filled

theorem acceptPage_grows {config : ArchiveListConfig} {state next : ArchivePages}
    {response : ArchiveSearchAssets}
    (accepted : acceptPage config state response = .ok (.inl next)) :
    state.assets.length < next.assets.length ∧ next.assets.length ≤ config.maxAssets := by
  obtain ⟨entries, following, converted, bounded, filled, same⟩ := acceptPage_ok accepted
  cases following with
  | none => cases same
  | some page =>
      cases same
      have nonempty := filled (Option.some_ne_none page)
      have positive := length_pos_of_converts converted nonempty
      rw [List.length_append, List.length_map]
      exact ⟨by omega, bounded nonempty⟩

/-- What the page loop holds after some pages. -/
def ArchivePages.Holds (config : ArchiveListConfig) (pages : List ArchiveSearchAssets)
    (state : ArchivePages) : Prop :=
  ∃ entries, Converts (pages.flatMap ArchiveSearchAssets.items) entries ∧
    state.assets = entries.map Prod.fst ∧ state.relatedIds = entries.filterMap Prod.snd ∧
    state.assets.length ≤ config.maxAssets

/-- An accepted page extends what the loop holds. -/
theorem ArchivePages.Holds.accept {config : ArchiveListConfig} {pages : List ArchiveSearchAssets}
    {state : ArchivePages} (held : state.Holds config pages) {response : ArchiveSearchAssets}
    {added : List (RemoteArchiveAsset × Option String)} (converted : Converts response.items added)
    (bounded : response.items ≠ [] → state.assets.length + added.length ≤ config.maxAssets)
    (page : Nat) :
    ArchivePages.Holds config (pages ++ [response])
      { assets := state.assets ++ added.map Prod.fst
        relatedIds := state.relatedIds ++ added.filterMap Prod.snd
        page } := by
  obtain ⟨entries, earlier, assets, related, within⟩ := held
  refine ⟨entries ++ added, ?_, ?_, ?_, ?_⟩
  · rw [List.flatMap_append, List.flatMap_singleton]
    exact List.rel_append earlier converted
  · rw [List.map_append, ← assets]
  · rw [List.filterMap_append, ← related]
  · rw [List.length_append, List.length_map]
    by_cases filled : response.items = []
    · rw [← converted.length_eq, filled, List.length_nil, Nat.add_zero]
      exact within
    · exact bounded filled

theorem listPages_eq (config : ArchiveListConfig) (fuel : Nat) (state : ArchivePages) :
    listPages config fuel state = Program.turns
      (searchTurn (fun state => pageRequest config state.page) (acceptPage config))
      (.new .protocol) fuel state := by
  induction fuel generalizing state with
  | zero => rfl
  | succ fuel induction =>
      rw [listPages, Program.turns]
      apply congrArg (bind (listPage config state))
      funext outcome
      cases outcome with
      | inl next => exact induction next
      | inr value => rfl

/-- The state before the first page. -/
def ArchivePages.start : ArchivePages := { assets := [], relatedIds := [], page := 1 }

theorem listPages_traces (config : ArchiveListConfig) :
    (listPages config (config.maxAssets + 1) .start).run.Traces fun events outcome =>
      searches events ≤ config.maxAssets + 1 ∧
        ∀ pages, outcome = .ok pages → pages.Holds config (searchedPages events) := by
  rw [listPages_eq]
  apply @searchTurns_traces _ _ _ _ (fun state : ArchivePages => state.assets.length) _ _
    (fun pages (state : ArchivePages) => state.Holds config pages)
    (fun pages (state : ArchivePages) => state.Holds config pages)
  · intro pages state response next held accepted
    refine ⟨?_, acceptPage_grows accepted⟩
    obtain ⟨entries, following, converted, bounded, _, same⟩ := acceptPage_ok accepted
    cases following with
    | none => cases same
    | some page =>
        cases same
        exact held.accept converted bounded page
  · intro pages state response value held accepted
    obtain ⟨entries, following, converted, bounded, _, same⟩ := acceptPage_ok accepted
    cases following with
    | some page => cases same
    | none =>
        cases same
        exact held.accept converted bounded state.page
  · exact Nat.lt_succ_self _
  · exact ⟨[], .nil, rfl, rfl, Nat.zero_le _⟩

/-! ## Linked videos -/

theorem acceptRelated_ok {identifier : String} {item : ArchiveAssetResponse}
    {asset : RemoteArchiveAsset} (accepted : acceptRelated identifier item = .ok asset) :
    asset.assetId = identifier := by
  rw [acceptRelated, bind_eq_ok] at accepted
  obtain ⟨converted, _, rest⟩ := accepted
  rw [reject_bind_eq_ok, bne_eq_false_iff_eq] at rest
  obtain ⟨same, returned⟩ := rest
  cases returned
  exact same

/-- The loop over distinct identifiers sends no search and adds each which is not known. -/
theorem listRelated_traces (config : ArchiveListConfig) {identifiers : List String}
    (distinct : identifiers.Nodup) (assets : List RemoteArchiveAsset) :
    (listRelated config identifiers assets).run.Traces fun events outcome =>
      searches events = 0 ∧ searchedPages events = [] ∧ ∀ result, outcome = .ok result →
        ∃ related, result = assets ++ related ∧
          related.map RemoteArchiveAsset.assetId =
            (identifiers.filter fun identifier =>
              !assets.any fun asset => asset.assetId == identifier) ∧
          (assets.length ≤ config.maxAssets → result.length ≤ config.maxAssets) := by
  induction identifiers generalizing assets with
  | nil =>
      refine ⟨rfl, rfl, fun result returned => ?_⟩
      cases returned
      exact ⟨[], (List.append_nil _).symm, rfl, id⟩
  | cons identifier rest induction =>
      obtain ⟨absent, distinct⟩ := List.nodup_cons.mp distinct
      rw [listRelated]
      split
      · rename_i known
        refine (induction distinct assets).mono fun events outcome listed => ?_
        rw [List.filter_cons, known]
        exact listed
      · rename_i unknown
        rw [traces_checked_bind]
        by_cases full : config.maxAssets ≤ assets.length
        · rw [decide_eq_true full]
          exact ⟨rfl, rfl, ok_of_error⟩
        · rw [decide_eq_false full]
          show Program.Traces _ _
          rw [traces_checkCancelled_bind]
          refine ⟨⟨rfl, rfl, ok_of_error⟩, ?_⟩
          rw [traces_getAsset_bind]
          refine ⟨fun error => ⟨rfl, rfl, ok_of_error⟩, fun item => ?_⟩
          rw [traces_checked_bind]
          cases accepted : acceptRelated identifier item with
          | error error => exact ⟨rfl, rfl, ok_of_error⟩
          | ok asset =>
              have named := acceptRelated_ok accepted
              refine (induction distinct (assets ++ [asset])).mono
                fun events outcome listed => ⟨listed.1, listed.2.1, fun result returned => ?_⟩
              obtain ⟨related, same, names, within⟩ := listed.2.2 result returned
              refine ⟨asset :: related, ?_, ?_, fun _ => within ?_⟩
              · rw [same, List.append_assoc, List.singleton_append]
              · have others : (rest.filter fun other =>
                    !(assets ++ [asset]).any fun asset => asset.assetId == other) =
                      rest.filter fun other => !assets.any fun asset => asset.assetId == other := by
                  apply List.filter_congr
                  intro other member
                  have different : (asset.assetId == other) = false := by
                    rw [named, beq_eq_false_iff_ne]
                    exact fun same => absent (same ▸ member)
                  rw [List.any_append, List.any_cons, different]
                  simp
                rw [List.filter_cons, Bool.eq_false_iff.mpr unknown, ← others, ← names, ← named]
                rfl
              · rw [List.length_append, List.length_singleton]
                omega

/-- An enumeration is the assets of all pages in order, followed by each linked video which no page
lists. -/
def Enumerates (maxAssets : Nat) (pages : List ArchiveSearchAssets)
    (assets : List RemoteArchiveAsset) : Prop :=
  assets.length ≤ maxAssets ∧
    ∃ entries related, Converts (pages.flatMap ArchiveSearchAssets.items) entries ∧
      assets = entries.map Prod.fst ++ related ∧
      (related.map RemoteArchiveAsset.assetId).Nodup ∧
      ∀ video, video ∈ related.map RemoteArchiveAsset.assetId ↔
        video ∈ entries.filterMap Prod.snd ∧
          video ∉ entries.map fun entry => entry.1.assetId

theorem listArchiveAssets_traces (platform : Platform) (client : ImmichReadClient)
    (negotiated : NegotiatedServer) (config : ArchiveListConfig) :
    (client.listArchiveAssets platform negotiated config).run.Traces fun events outcome =>
      searches events ≤ config.maxAssets + 1 ∧ ∀ assets, outcome = .ok assets →
        Enumerates config.maxAssets (searchedPages events) assets := by
  rw [ImmichReadClient.listArchiveAssets, traces_checked_bind]
  cases client.validateBinding platform negotiated with
  | error error => exact ⟨Nat.zero_le _, ok_of_error⟩
  | ok bound =>
      show Program.Traces _ _
      rw [traces_checked_bind]
      cases config.validate with
      | error error => exact ⟨Nat.zero_le _, ok_of_error⟩
      | ok valid =>
          show Program.Traces _ _
          rw [Program.traces_exceptT_bind]
          refine (listPages_traces config).mono fun first outcome paged => ?_
          cases outcome with
          | error error => exact ⟨paged.1, ok_of_error⟩
          | ok state =>
              obtain ⟨entries, converted, listed, linked, within⟩ := paged.2 state rfl
              have distinct : (sortDedup state.relatedIds).Nodup :=
                (pairwise_sortDedup _).imp ne_of_lt
              refine (listRelated_traces config distinct state.assets).mono
                fun second outcome found => ?_
              obtain ⟨silent, pageless, returns⟩ := found
              rw [searches_append, silent, searchedPages_append, pageless, List.append_nil]
              refine ⟨paged.1, fun assets returned => ?_⟩
              obtain ⟨related, same, names, bounded⟩ := returns assets returned
              refine ⟨bounded within, entries, related, converted, listed ▸ same, ?_, ?_⟩
              · rw [names]
                exact distinct.filter _
              · intro video
                rw [names, List.mem_filter, mem_sortDedup, linked, listed, List.any_map]
                simp

/-! ## Albums -/

/-- The identifiers of all pages in order. -/
def EnumeratesAlbum (maxAlbumMemberships : Nat) (pages : List ArchiveSearchAssets)
    (assetIds : List String) : Prop :=
  assetIds.length ≤ maxAlbumMemberships ∧
    assetIds = (pages.flatMap ArchiveSearchAssets.items).map ArchiveAssetResponse.id

theorem foldlM_pushAlbumAsset_ok {maxAlbumMemberships : Nat} {items : List ArchiveAssetResponse}
    {assetIds result : List String}
    (pushed : items.foldlM (pushAlbumAsset maxAlbumMemberships) assetIds = .ok result) :
    result = assetIds ++ items.map ArchiveAssetResponse.id ∧
      (items ≠ [] → result.length ≤ maxAlbumMemberships) := by
  induction items generalizing assetIds with
  | nil =>
      cases pushed
      exact ⟨(List.append_nil _).symm, fun filled => absurd rfl filled⟩
  | cons item rest induction =>
      rw [List.foldlM_cons, bind_eq_ok] at pushed
      obtain ⟨middle, first, later⟩ := pushed
      obtain ⟨returned, bounded⟩ := induction later
      rw [pushAlbumAsset, reject_bind_eq_ok, Bool.or_eq_false_iff, decide_eq_false_iff_not] at first
      obtain ⟨⟨room, _⟩, same⟩ := first
      cases same
      refine ⟨?_, fun _ => ?_⟩
      · rw [returned, List.map_cons, List.append_assoc, List.singleton_append]
      · cases rest with
        | nil =>
            cases later
            rw [List.length_append, List.length_singleton]
            omega
        | cons second rest => exact bounded (List.cons_ne_nil second rest)

theorem acceptAlbumPage_ok {config : MigrationListConfig} {state : AlbumPages}
    {response : ArchiveSearchAssets} {outcome : AlbumPages ⊕ List String}
    (accepted : acceptAlbumPage config state response = .ok outcome) :
    ∃ following, (response.items ≠ [] →
        state.assetIds.length + response.items.length ≤ config.maxAlbumMemberships) ∧
      (following ≠ none → response.items ≠ []) ∧
      outcome = match following with
        | some page => .inl {
            assetIds := state.assetIds ++ response.items.map ArchiveAssetResponse.id, page }
        | none => .inr (state.assetIds ++ response.items.map ArchiveAssetResponse.id) := by
  rw [acceptAlbumPage, reject_bind_eq_ok, bind_eq_ok, bne_eq_false_iff_eq] at accepted
  simp only [bind_eq_ok] at accepted
  obtain ⟨counted, assetIds, pushed, following, next, same⟩ := accepted
  obtain ⟨rfl, bounded⟩ := foldlM_pushAlbumAsset_ok pushed
  refine ⟨following, fun filled => ?_, fun continued empty => ?_, ?_⟩
  · have within := bounded filled
    rwa [List.length_append, List.length_map] at within
  · obtain ⟨page, rfl⟩ := Option.ne_none_iff_exists'.mp continued
    rw [empty] at counted
    exact count_of_nextPage next counted
  · cases following <;> cases same <;> rfl

theorem acceptAlbumPage_grows {config : MigrationListConfig} {state next : AlbumPages}
    {response : ArchiveSearchAssets}
    (accepted : acceptAlbumPage config state response = .ok (.inl next)) :
    state.assetIds.length < next.assetIds.length ∧
      next.assetIds.length ≤ config.maxAlbumMemberships := by
  obtain ⟨following, bounded, filled, same⟩ := acceptAlbumPage_ok accepted
  cases following with
  | none => cases same
  | some page =>
      cases same
      have nonempty := filled (Option.some_ne_none page)
      have positive := List.length_pos_iff.mpr nonempty
      rw [List.length_append, List.length_map]
      exact ⟨by omega, bounded nonempty⟩

/-- An accepted page extends an enumeration. -/
theorem EnumeratesAlbum.accept {maxAlbumMemberships : Nat} {pages : List ArchiveSearchAssets}
    {assetIds : List String} (held : EnumeratesAlbum maxAlbumMemberships pages assetIds)
    {response : ArchiveSearchAssets}
    (bounded : response.items ≠ [] →
      assetIds.length + response.items.length ≤ maxAlbumMemberships) :
    EnumeratesAlbum maxAlbumMemberships (pages ++ [response])
      (assetIds ++ response.items.map ArchiveAssetResponse.id) := by
  constructor
  · rw [List.length_append, List.length_map]
    by_cases filled : response.items = []
    · rw [filled, List.length_nil, Nat.add_zero]
      exact held.1
    · exact bounded filled
  · rw [List.flatMap_append, List.flatMap_singleton, List.map_append, ← held.2]

theorem migrationAlbumAssets_traces (config : MigrationListConfig) (albumId : String) :
    (migrationAlbumAssets config albumId).run.Traces fun events outcome =>
      searches events ≤ config.maxAlbumMemberships + 1 ∧ ∀ assetIds, outcome = .ok assetIds →
        EnumeratesAlbum config.maxAlbumMemberships (searchedPages events) assetIds := by
  have loop : migrationAlbumAssets config albumId = Program.turns
      (searchTurn (fun state => albumPageRequest config albumId state.page)
        (acceptAlbumPage config)) (.new .protocol) (config.maxAlbumMemberships + 1)
      { assetIds := [], page := 1 } := rfl
  rw [loop]
  apply @searchTurns_traces _ _ _ _ (fun state : AlbumPages => state.assetIds.length) _ _
    (fun pages (state : AlbumPages) =>
      EnumeratesAlbum config.maxAlbumMemberships pages state.assetIds)
    (EnumeratesAlbum config.maxAlbumMemberships)
  · intro pages state response next held accepted
    refine ⟨?_, acceptAlbumPage_grows accepted⟩
    obtain ⟨following, bounded, _, same⟩ := acceptAlbumPage_ok accepted
    cases following with
    | none => cases same
    | some page =>
        cases same
        exact held.accept bounded
  · intro pages state response value held accepted
    obtain ⟨following, bounded, _, same⟩ := acceptAlbumPage_ok accepted
    cases following with
    | some page => cases same
    | none =>
        cases same
        exact held.accept bounded
  · exact Nat.lt_succ_self _
  · exact ⟨Nat.zero_le _, rfl⟩

end ImmichRs
