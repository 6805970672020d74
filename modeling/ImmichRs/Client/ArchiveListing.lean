import ImmichRs.Client.Archive
import Mathlib.Data.List.Forall2

/-!
# Complete listings

An unchanging server describes its assets by a function of their identifiers, and its pages list
each visibility completely.  Against such a server one enumeration returns the listed assets and the
linked ones which were not listed, exactly when they are not more than the limit.
-/

namespace ImmichRs

open Interaction Collections

/-- The assets of an unchanging server: what each visibility lists, the facts of an asset, and the
motion video which it links. -/
structure ArchiveInventory where
  listed : ArchiveVisibility → List String
  facts : String → RemoteArchiveAsset
  linked : String → Option String

namespace ArchiveInventory

variable (inventory : ArchiveInventory)

/-- An answer which describes the asset of an identifier. -/
def Describes (item : ArchiveAssetResponse) (identifier : String) : Prop :=
  convertAsset item = .ok (inventory.facts identifier, inventory.linked identifier)

/-- Pages from a number on which list some identifiers completely: each answer counts its own items,
states the total, and announces the next page exactly where items remain. -/
inductive Pages (answer : Nat → Except ClientError ArchiveSearchAssets) (total : Nat) :
    Nat → List String → Prop
  | last {page : Nat} {items : List ArchiveAssetResponse} {identifiers : List String} :
      List.Forall₂ inventory.Describes items identifiers →
      answer page = .ok { items, count := items.length, nextPage := none, total } →
      Pages answer total page identifiers
  | more {page : Nat} {items : List ArchiveAssetResponse} {front rest : List String}
      {text : String} :
      List.Forall₂ inventory.Describes items front → front ≠ [] → rest ≠ [] →
      parseU64 text = some (page + 1) →
      answer page = .ok { items, count := items.length, nextPage := some text, total } →
      Pages answer total (page + 1) rest → Pages answer total page (front ++ rest)

/-- The motion videos which the assets of a visibility link, without those it lists itself. -/
def unlistedVideos (visibility : ArchiveVisibility) : List String :=
  (sortDedup ((inventory.listed visibility).filterMap inventory.linked)).filter
    fun identifier => !(inventory.listed visibility).contains identifier

/-- What one enumeration of a visibility selects. -/
def selection (visibility : ArchiveVisibility) : List String :=
  inventory.listed visibility ++ inventory.unlistedVideos visibility

/-- The identifiers of the distinct assets which are listed or linked. -/
def selected (visibilities : List ArchiveVisibility) : List String :=
  (visibilities.flatMap fun visibility =>
    inventory.listed visibility ++
      (inventory.listed visibility).filterMap inventory.linked).dedup

theorem mem_selection {visibility : ArchiveVisibility} {identifier : String} :
    identifier ∈ inventory.selection visibility ↔ identifier ∈ inventory.listed visibility ++
      (inventory.listed visibility).filterMap inventory.linked := by
  rw [selection, unlistedVideos, List.mem_append, List.mem_filter, mem_sortDedup, List.mem_append,
    Bool.not_eq_true', ← Bool.not_eq_true, List.contains_iff_mem]
  by_cases listed : identifier ∈ inventory.listed visibility <;> simp [listed]

/-- The selections together are the distinct listed and linked assets. -/
theorem perm_selected (visibilities : List ArchiveVisibility) :
    (visibilities.flatMap inventory.selection).dedup.Perm (inventory.selected visibilities) := by
  rw [selected, List.perm_ext_iff_of_nodup (List.nodup_dedup _) (List.nodup_dedup _)]
  intro identifier
  simp only [List.mem_dedup, List.mem_flatMap, mem_selection]

theorem length_selected_le (visibilities : List ArchiveVisibility) :
    (inventory.selected visibilities).length ≤
      (visibilities.map fun visibility => (inventory.selection visibility).length).sum := by
  rw [← (inventory.perm_selected visibilities).length_eq, ← List.length_flatMap]
  exact (List.dedup_sublist _).length_le

/-- A responder which serves the inventory for some page size and trash flag, and which is never
cancelled. -/
structure ServedBy (respond : (call : ReadCall) → ReadAnswer call) (pageSize : Nat)
    (includeTrashed : Bool) : Prop where
  running : respond .isCancelled = false
  identified : ∀ identifier, (inventory.facts identifier).assetId = identifier
  pages : ∀ visibility : ArchiveVisibility,
    inventory.Pages
      (fun page => respond (.search
        { page
          size := pageSize
          withExif := true
          albumIds := none
          visibility := visibility.apiValue
          withDeleted := if includeTrashed then some true else none }))
      (inventory.listed visibility).length 1 (inventory.listed visibility)
  videos : ∀ visibility, ∀ identifier ∈ inventory.listed visibility,
    ∀ video ∈ inventory.linked identifier,
      ∃ item, respond (.asset video) = .ok item ∧ inventory.Describes item video

end ArchiveInventory

/-! ## Evaluation -/

variable {respond : (call : ReadCall) → ReadAnswer call}

theorem evaluate_checked_bind {α β : Type} (result : Except ClientError α)
    (next : α → ReadProgram β) :
    (checked result >>= next).run.evaluate respond =
      result >>= fun value => (next value).run.evaluate respond :=
  Program.evaluate_exceptT_bind respond _ _

theorem evaluate_checkCancelled_bind {β : Type} (running : respond .isCancelled = false)
    (next : Unit → ReadProgram β) :
    (ImmichReadClient.checkCancelled >>= next).run.evaluate respond =
      (next ()).run.evaluate respond := by
  have answered : ImmichReadClient.checkCancelled.run.evaluate respond = .ok () := by
    show reject (respond .isCancelled) _ = _
    rw [running]
    rfl
  rw [Program.evaluate_exceptT_bind, answered]
  rfl

variable {inventory : ArchiveInventory}

/-- Items which describe some assets are pushed as long as the limit is not exceeded. -/
theorem foldlM_pushItem {maxAssets : Nat} {items : List ArchiveAssetResponse}
    {identifiers : List String} (described : List.Forall₂ inventory.Describes items identifiers)
    {collected : List RemoteArchiveAsset × List String}
    (fits : collected.1.length + identifiers.length ≤ maxAssets) :
    items.foldlM (pushItem maxAssets) collected =
      .ok (collected.1 ++ identifiers.map inventory.facts,
        collected.2 ++ identifiers.filterMap inventory.linked) := by
  induction described generalizing collected with
  | nil => simp [pure, Except.pure]
  | @cons item identifier items identifiers head _ induction =>
      have room : decide (maxAssets ≤ collected.1.length) = false := by
        rw [List.length_cons] at fits
        rw [decide_eq_false_iff_not]
        omega
      have pushed : pushItem maxAssets collected item =
          .ok (collected.1 ++ [inventory.facts identifier],
            collected.2 ++ (inventory.linked identifier).toList) := by
        rw [pushItem, room, show convertAsset item = _ from head]
        rfl
      rw [List.foldlM_cons, pushed]
      refine (induction ?_).trans ?_
      · simp only [List.length_append, List.length_cons, List.length_nil] at fits ⊢
        omega
      · rw [List.filterMap_cons]
        cases inventory.linked identifier <;> simp

theorem evaluate_listPage (running : respond .isCancelled = false) {config : ArchiveListConfig}
    {pages : ArchivePages} {response : ArchiveSearchAssets}
    (answered : respond (.search (pageRequest config pages.page)) = .ok response) :
    (listPage config pages).run.evaluate respond = acceptPage config pages response := by
  have searched : (postSearch (pageRequest config pages.page)).run.evaluate respond =
      .ok response := answered
  rw [listPage, evaluate_checkCancelled_bind running, Program.evaluate_exceptT_bind, searched]
  rfl

/-- A first page with too large a total ends the enumeration. -/
theorem acceptPage_of_large {config : ArchiveListConfig} {pages : ArchivePages}
    {response : ArchiveSearchAssets} (large : config.maxAssets < response.total) :
    acceptPage config pages response = .error (.new .protocol) := by
  rw [acceptPage, decide_eq_true large]
  rfl

theorem acceptPage_last {config : ArchiveListConfig} {pages : ArchivePages}
    {items : List ArchiveAssetResponse} {identifiers : List String} {total : Nat}
    (described : List.Forall₂ inventory.Describes items identifiers)
    (small : total ≤ config.maxAssets)
    (fits : pages.assets.length + identifiers.length ≤ config.maxAssets) :
    acceptPage config pages { items, count := items.length, nextPage := none, total } =
      .ok (.inr { pages with
        assets := pages.assets ++ identifiers.map inventory.facts
        relatedIds := pages.relatedIds ++ identifiers.filterMap inventory.linked }) := by
  have room : decide (config.maxAssets < total) = false := by
    rw [decide_eq_false_iff_not]
    omega
  have counted : (items.length != items.length) = false := bne_self_eq_false _
  rw [acceptPage]
  dsimp only
  rw [room, counted, foldlM_pushItem described fits]
  rfl

theorem acceptPage_more {config : ArchiveListConfig} {pages : ArchivePages}
    {items : List ArchiveAssetResponse} {front : List String} {total : Nat} {text : String}
    (described : List.Forall₂ inventory.Describes items front) (nonempty : front ≠ [])
    (parsed : parseU64 text = some (pages.page + 1)) (small : total ≤ config.maxAssets)
    (fits : pages.assets.length + front.length ≤ config.maxAssets) :
    acceptPage config pages { items, count := items.length, nextPage := some text, total } =
      .ok (.inl {
        assets := pages.assets ++ front.map inventory.facts
        relatedIds := pages.relatedIds ++ front.filterMap inventory.linked
        page := pages.page + 1 }) := by
  have room : decide (config.maxAssets < total) = false := by
    rw [decide_eq_false_iff_not]
    omega
  have counted : (items.length != items.length) = false := bne_self_eq_false _
  have filled : items.length ≠ 0 := by
    rw [described.length_eq]
    exact fun empty => nonempty (List.length_eq_zero_iff.mp empty)
  have word := lt_of_parseU64 parsed
  have following : nextPage { items, count := items.length, nextPage := some text, total }
      pages.page = .ok (some (pages.page + 1)) := by
    rw [nextPage]
    dsimp only
    rw [if_neg filled, parsed]
    dsimp only
    rw [if_neg (by omega)]
  rw [acceptPage]
  dsimp only
  rw [room, counted, foldlM_pushItem described fits]
  simp only [following, reject, bind, Except.bind]
  rfl

/-- The page loop collects a complete listing which is not above the limit. -/
theorem evaluate_listPages (running : respond .isCancelled = false) {config : ArchiveListConfig}
    {total page : Nat} {identifiers : List String} (fuel : Nat)
    (assets : List RemoteArchiveAsset) (relatedIds : List String)
    (complete : inventory.Pages (fun page => respond (.search (pageRequest config page))) total
      page identifiers)
    (small : total ≤ config.maxAssets)
    (fits : assets.length + identifiers.length ≤ config.maxAssets)
    (enough : identifiers.length < fuel) :
    ∃ final, (listPages config fuel { assets, relatedIds, page }).run.evaluate respond =
      .ok { assets := assets ++ identifiers.map inventory.facts
            relatedIds := relatedIds ++ identifiers.filterMap inventory.linked
            page := final } := by
  induction complete generalizing fuel assets relatedIds with
  | @last page items identifiers described answered =>
      cases fuel with
      | zero => omega
      | succ fuel =>
          refine ⟨page, ?_⟩
          rw [listPages, Program.evaluate_exceptT_bind, evaluate_listPage running answered,
            acceptPage_last described small fits]
          rfl
  | @more page items front rest text described nonempty _ parsed answered _ induction =>
      cases fuel with
      | zero => omega
      | succ fuel =>
          rw [List.length_append] at fits enough
          have positive := List.length_pos_iff.mpr nonempty
          obtain ⟨final, following⟩ := induction fuel (assets ++ front.map inventory.facts)
            (relatedIds ++ front.filterMap inventory.linked)
            (by rw [List.length_append, List.length_map]; omega) (by omega)
          refine ⟨final, ?_⟩
          rw [listPages, Program.evaluate_exceptT_bind, evaluate_listPage running answered,
            acceptPage_more described nonempty parsed small
              (by show assets.length + front.length ≤ _; omega)]
          refine following.trans ?_
          rw [List.map_append, List.filterMap_append, List.append_assoc, List.append_assoc]

/-- The page loop fails at once when the total is above the limit. -/
theorem evaluate_listPages_of_large (running : respond .isCancelled = false)
    {config : ArchiveListConfig} {total fuel : Nat} {identifiers : List String}
    {pages : ArchivePages}
    (complete : inventory.Pages (fun page => respond (.search (pageRequest config page))) total
      pages.page identifiers)
    (large : config.maxAssets < total) (enough : 0 < fuel) :
    (listPages config fuel pages).run.evaluate respond = .error (.new .protocol) := by
  cases fuel with
  | zero => omega
  | succ fuel =>
      have rejected : (listPage config pages).run.evaluate respond = .error (.new .protocol) := by
        cases complete with
        | last described answered =>
            rw [evaluate_listPage running answered, acceptPage_of_large large]
        | more described _ _ _ answered _ =>
            rw [evaluate_listPage running answered, acceptPage_of_large large]
      rw [listPages, Program.evaluate_exceptT_bind, rejected]
      rfl

theorem any_assetId (identified : ∀ identifier, (inventory.facts identifier).assetId = identifier)
    (known : List String) (identifier : String) :
    ((known.map inventory.facts).any fun asset => asset.assetId == identifier) =
      known.contains identifier := by
  rw [List.any_map, List.contains_eq_any_beq]
  congr 1
  funext other
  rw [Function.comp_apply, identified, Bool.beq_comm]

/-- The loop over distinct linked identifiers adds the unknown ones, up to the limit. -/
theorem evaluate_listRelated (running : respond .isCancelled = false) (config : ArchiveListConfig)
    (identified : ∀ identifier, (inventory.facts identifier).assetId = identifier)
    {identifiers : List String} (known : List String) (distinct : identifiers.Nodup)
    (videos : ∀ video ∈ identifiers,
      ∃ item, respond (.asset video) = .ok item ∧ inventory.Describes item video)
    (room : known.length ≤ config.maxAssets) :
    (listRelated config identifiers (known.map inventory.facts)).run.evaluate respond =
      if known.length + (identifiers.filter fun video => !known.contains video).length ≤
          config.maxAssets then
        .ok ((known ++ identifiers.filter fun video => !known.contains video).map inventory.facts)
      else
        .error (.new .protocol) := by
  induction identifiers generalizing known with
  | nil =>
      rw [List.filter_nil, List.length_nil, Nat.add_zero, if_pos room, List.append_nil]
      rfl
  | cons video rest induction =>
      obtain ⟨absent, distinct⟩ := List.nodup_cons.mp distinct
      have videosRest := fun other member => videos other (List.mem_cons_of_mem video member)
      rw [listRelated, any_assetId identified]
      cases listed : known.contains video with
      | true =>
          rw [if_pos rfl, induction known distinct videosRest room, List.filter_cons, listed]
          rfl
      | false =>
          have same : rest.filter (fun other => !(known ++ [video]).contains other) =
              rest.filter fun other => !known.contains other := by
            apply List.filter_congr
            intro other member
            have different : other ≠ video := fun equal => absent (equal ▸ member)
            simp [different]
          rw [if_neg (by decide), List.length_map, evaluate_checked_bind, List.filter_cons, listed]
          by_cases full : config.maxAssets ≤ known.length
          · rw [decide_eq_true full, if_neg]
            · rfl
            · rw [Bool.not_false, if_pos rfl, List.length_cons]
              omega
          · obtain ⟨item, answered, described⟩ := videos video List.mem_cons_self
            have fetched : (getAsset video).run.evaluate respond = .ok item := answered
            have accepted : acceptRelated video item = .ok (inventory.facts video) := by
              rw [acceptRelated, show convertAsset item = _ from described]
              show (reject ((inventory.facts video).assetId != video) _ >>= _) = _
              rw [identified, bne_self_eq_false]
              rfl
            have following := induction (known ++ [video]) distinct videosRest
              (by rw [List.length_append, List.length_singleton]; omega)
            rw [same, List.map_append, List.map_singleton, List.length_append,
              List.length_singleton] at following
            have step : (listRelated config rest
                (known.map inventory.facts ++ [inventory.facts video])).run.evaluate respond =
                  (ImmichReadClient.checkCancelled >>= fun _ => getAsset video >>= fun item =>
                    checked (acceptRelated video item) >>= fun asset =>
                      listRelated config rest
                        (known.map inventory.facts ++ [asset])).run.evaluate respond := by
              rw [evaluate_checkCancelled_bind running, Program.evaluate_exceptT_bind, fetched]
              show _ = (checked (acceptRelated video item) >>= _).run.evaluate respond
              rw [evaluate_checked_bind, accepted]
              rfl
            rw [decide_eq_false full]
            refine step.symm.trans (following.trans ?_)
            rw [Bool.not_false, if_pos rfl, List.length_cons, Nat.add_right_comm, Nat.add_assoc,
              List.append_assoc]
            rfl

/-- One enumeration of a served inventory returns its selection, unless that is above the limit. -/
theorem evaluate_listArchiveAssets (platform : Platform) (client : ImmichReadClient)
    (negotiated : NegotiatedServer) {config : ArchiveListConfig}
    (served : inventory.ServedBy respond config.pageSize config.includeTrashed)
    (bound : client.validateBinding platform negotiated = .ok ())
    (valid : config.validate = .ok ()) :
    (client.listArchiveAssets platform negotiated config).run.evaluate respond =
      if (inventory.selection config.visibility).length ≤ config.maxAssets then
        .ok ((inventory.selection config.visibility).map inventory.facts)
      else
        .error (.new .protocol) := by
  have complete := served.pages config.visibility
  have split : (inventory.selection config.visibility).length =
      (inventory.listed config.visibility).length +
        (inventory.unlistedVideos config.visibility).length := List.length_append
  rw [ImmichReadClient.listArchiveAssets, evaluate_checked_bind, bound]
  show (checked config.validate >>= _).run.evaluate respond = _
  rw [evaluate_checked_bind, valid]
  show (listPages config (config.maxAssets + 1) _ >>= _).run.evaluate respond = _
  rw [Program.evaluate_exceptT_bind]
  by_cases large : config.maxAssets < (inventory.listed config.visibility).length
  · rw [evaluate_listPages_of_large served.running complete large (by omega),
      if_neg (by omega)]
    rfl
  · obtain ⟨final, pages⟩ := evaluate_listPages served.running (config.maxAssets + 1) [] []
      complete (by omega)
      (by rw [List.length_nil]; omega) (by omega)
    have videos : ∀ video ∈ sortDedup ((inventory.listed config.visibility).filterMap
        inventory.linked), ∃ item, respond (.asset video) = .ok item ∧
          inventory.Describes item video := by
      intro video member
      rw [mem_sortDedup, List.mem_filterMap] at member
      obtain ⟨identifier, listed, linked⟩ := member
      exact served.videos _ identifier listed video linked
    have related := evaluate_listRelated served.running config served.identified
      (inventory.listed config.visibility) ((pairwise_sortDedup _).imp ne_of_lt)
      videos (by omega)
    rw [pages]
    refine related.trans ?_
    rw [split]
    rfl

end ImmichRs
