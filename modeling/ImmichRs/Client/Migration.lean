import ImmichRs.Client.Archive
import ImmichRs.Core.Migration
import ImmichRs.Interaction.Loops

/-!
# The migration inventory

Source facts of assets and owned albums, and the bounded enumeration of the assets of one album.
-/

namespace ImmichRs

open Interaction

/-! ## The inventory -/

/-- Supported source facts of one asset. -/
structure RemoteMigrationAsset where
  assetId : String
  originalFileName : String
  mediaKind : MediaKind
  byteLen : UInt64
  checksumSha1 : String
  createdAtUnixMs : Int
  modifiedAtUnixMs : Int
  normalizedMetadata : Option NormalizedMetadata
  livePhotoVideoId : Option String
  deriving DecidableEq

/-- One owned album of the source. -/
structure RemoteOwnedAlbum where
  albumId : String
  name : String
  assetIds : List String
  deriving DecidableEq, Repr

/-- The bounded inventory of a source. -/
structure RemoteMigrationInventory where
  assets : List RemoteMigrationAsset
  albums : List RemoteOwnedAlbum
  deriving DecidableEq

/-- Limits of the inventory. -/
structure MigrationListConfig where
  pageSize : Nat
  maxAssets : Nat
  maxAlbums : Nat
  maxAlbumMemberships : Nat
  deriving DecidableEq, Repr

/-! ## The assets of one album -/

/-- What the page loop of one album has collected. -/
structure AlbumPages where
  assetIds : List String
  page : Nat
  deriving DecidableEq, Repr

/-- One item of a page. -/
def pushAlbumAsset (maxAlbumMemberships : Nat) (assetIds : List String)
    (item : ArchiveAssetResponse) : Except ClientError (List String) := do
  reject (decide (maxAlbumMemberships ≤ assetIds.length) || !uuidV4 item.id) (.new .protocol)
  return assetIds ++ [item.id]

/-- What the page loop makes of one answer; it is done when no further page follows. -/
def acceptAlbumPage (config : MigrationListConfig) (pages : AlbumPages)
    (response : ArchiveSearchAssets) : Except ClientError (AlbumPages ⊕ List String) := do
  reject (response.count != response.items.length) (.new .protocol)
  let assetIds ← response.items.foldlM (pushAlbumAsset config.maxAlbumMemberships) pages.assetIds
  match ← nextPage response pages.page with
  | some page => return .inl { assetIds, page }
  | none => return .inr assetIds

/-- The request for one page of an album. -/
def albumPageRequest (config : MigrationListConfig) (albumId : String) (page : Nat) :
    ArchiveSearchRequest :=
  { page
    size := config.pageSize
    withExif := false
    albumIds := some [albumId]
    visibility := "timeline"
    withDeleted := none }

/-- One turn of the page loop. -/
def albumPage (config : MigrationListConfig) (albumId : String) (pages : AlbumPages) :
    ReadProgram (AlbumPages ⊕ List String) := do
  ImmichReadClient.checkCancelled
  let response ← postSearch (albumPageRequest config albumId pages.page)
  checked (acceptAlbumPage config pages response)

/-- The page loop, for at most `fuel` pages. -/
def albumPagesLoop (config : MigrationListConfig) (albumId : String) (fuel : Nat) :
    AlbumPages → ReadProgram (List String) :=
  Program.turns (albumPage config albumId) (.new .protocol) fuel

/-- `migration_album_assets`.  Every turn which continues has collected a further asset, so the
limit of memberships bounds the pages. -/
def migrationAlbumAssets (config : MigrationListConfig) (albumId : String) :
    ReadProgram (List String) :=
  albumPagesLoop config albumId (config.maxAlbumMemberships + 1) { assetIds := [], page := 1 }

end ImmichRs
