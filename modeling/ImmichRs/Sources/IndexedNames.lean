import ImmichRs.Sources.Takeout

/-!
# Names of indexed sidecars

Takeout names the sidecar of the media file `stem(n).ext` after `stem.ext`, with its marker and the
index behind it.  Reading such a name back gives the name of the media file, however the marker was
cut short.
-/

namespace ImmichRs

/-! ## The naming rule -/

/-- An extension which `media_kind` recognizes. -/
structure MediaExtension (platform : SourcePlatform) (suffix : String) : Prop where
  undotted : '.' ∉ suffix.toList
  unslashed : '/' ∉ suffix.toList
  recognized : (mediaKind platform ("media." ++ suffix)).isSome = true

/-- A non-empty string of digits. -/
def IsIndex (index : String) : Prop :=
  index.isEmpty = false ∧ index.toList.all isAsciiDigit = true

/-- A marker which was possibly cut short. -/
def IsMarker (marker : String) : Prop :=
  marker.isEmpty = false ∧ startsWith supplementalMarker marker = true

/-- Text which `str::to_lowercase` leaves as it is: lower-case ASCII letters and hyphens. -/
def isLowerText (value : String) : Bool :=
  value.toList.all fun character => ('a' ≤ character && character ≤ 'z') || character == '-'

/-- The name of a sidecar with an index. -/
def indexedSidecarName (head index : String) : String := head ++ "(" ++ index ++ ").json"

/-- The name of a media file with an index. -/
def indexedName (stem index suffix : String) : String := stem ++ "(" ++ index ++ ")." ++ suffix

/-! ## Reading names back -/

variable {platform : SourcePlatform}

theorem toList_ne_nil_of_isEmpty {value : String} (present : value.isEmpty = false) :
    value ≠ "" := by
  rintro rfl
  exact absurd present (by decide)

theorem not_mem_digits {index : String} (digits : index.toList.all isAsciiDigit = true)
    {character : Char} (other : isAsciiDigit character = false) : character ∉ index.toList := by
  intro member
  have digit := List.all_eq_true.mp digits character member
  rw [other] at digit
  cases digit

/-- The head and the index of an indexed name. -/
theorem split_indexedSidecarName (head : String) {index : String} (indexed : IsIndex index) :
    (stripSuffix (indexedSidecarName head index) ").json").bind (rsplitOnce · '(') =
      some (head, index) := by
  have stripped : stripSuffix (indexedSidecarName head index) ").json" =
      some (head ++ "(" ++ index) := stripSuffix_eq_some.mpr rfl
  rw [stripped, Option.bind_some, rsplitOnce_eq_some_iff]
  refine ⟨?_, not_mem_digits indexed.2 (by decide)⟩
  rw [String.toList_append, String.toList_append, List.append_assoc]
  rfl

theorem rsplitOnce_dot (left : String) {right : String} (undotted : '.' ∉ right.toList) :
    rsplitOnce (left ++ "." ++ right) '.' = some (left, right) := by
  rw [rsplitOnce_eq_some_iff]
  refine ⟨?_, undotted⟩
  rw [String.toList_append, String.toList_append, List.append_assoc]
  rfl

/-- A marker has no dot. -/
theorem IsMarker.undotted {marker : String} (isMarker : IsMarker marker) :
    '.' ∉ marker.toList := by
  intro member
  have prefixed := List.isPrefixOf_iff_prefix.mp isMarker.2
  exact absurd (prefixed.subset member) (by decide)

/-- The head of an indexed name without its marker. -/
def unmarkedHead (head : String) : String :=
  match rsplitOnce head '.' with
  | some (mediaName, marker) =>
      if !marker.isEmpty && startsWith supplementalMarker marker then mediaName else head
  | none => head

/-- The name of the media file of a head and an index. -/
def mediaNameOf (head index : String) : Option String :=
  if index.isEmpty || !index.toList.all isAsciiDigit then
    none
  else
    (rsplitOnce (unmarkedHead head) '.').bind fun parts =>
      if parts.1.isEmpty || parts.2.isEmpty then none
      else some (indexedName parts.1 index parts.2)

theorem indexedMediaName_eq (name : String) :
    indexedMediaName name = ((stripSuffix name ").json").bind (rsplitOnce · '(')).bind
      fun parts => mediaNameOf parts.1 parts.2 := by
  rw [indexedMediaName]
  cases stripSuffix name ").json" with
  | none => rfl
  | some stripped =>
      simp only [Option.bind_eq_bind, Option.bind_some]
      cases rsplitOnce stripped '(' with
      | none => rfl
      | some parts =>
          obtain ⟨head, index⟩ := parts
          simp only [Option.bind_some, mediaNameOf, unmarkedHead]
          split
          · rfl
          · rfl

theorem indexedMediaName_indexedSidecarName (head : String) {index : String}
    (indexed : IsIndex index) :
    indexedMediaName (indexedSidecarName head index) = mediaNameOf head index := by
  rw [indexedMediaName_eq, split_indexedSidecarName head indexed, Option.bind_some]

/-- A dotted name is what the head of an index stands for, once its marker is gone. -/
theorem mediaNameOf_unmarked {head stem suffix index : String} (indexed : IsIndex index)
    (undotted : '.' ∉ suffix.toList) (stemPresent : stem ≠ "") (suffixPresent : suffix ≠ "")
    (unmarked : unmarkedHead head = stem ++ "." ++ suffix) :
    mediaNameOf head index = some (indexedName stem index suffix) := by
  have present : ∀ {value : String}, value ≠ "" → value.isEmpty = false := by
    intro value different
    rw [← Bool.not_eq_true, String.isEmpty_iff]
    exact different
  rw [mediaNameOf, indexed.1, indexed.2, unmarked, rsplitOnce_dot stem undotted]
  rw [Bool.false_or, Bool.not_true, if_neg Bool.false_ne_true, Option.bind_some,
    present stemPresent, present suffixPresent]
  rfl

theorem unmarkedHead_marked {media marker : String} (isMarker : IsMarker marker) :
    unmarkedHead (media ++ "." ++ marker) = media := by
  rw [unmarkedHead, rsplitOnce_dot media isMarker.undotted]
  dsimp only
  rw [isMarker.1, isMarker.2]
  rfl

theorem unmarkedHead_unmarked {stem suffix : String} (undotted : '.' ∉ suffix.toList)
    (other : ¬ IsMarker suffix) :
    unmarkedHead (stem ++ "." ++ suffix) = stem ++ "." ++ suffix := by
  rw [unmarkedHead, rsplitOnce_dot stem undotted]
  dsimp only
  rw [if_neg]
  intro marked
  rw [Bool.and_eq_true, Bool.not_eq_true'] at marked
  exact other marked

/-! ## Extensions -/

theorem extension_media {suffix : String} (undotted : '.' ∉ suffix.toList)
    (unslashed : '/' ∉ suffix.toList) :
    extension platform ("media." ++ suffix) = some (platform.lowercase suffix) := by
  have characters : ("media." ++ suffix).toList = "media.".toList ++ suffix.toList :=
    String.toList_append
  have free : '/' ∉ ("media." ++ suffix).toList := by
    rw [characters, List.mem_append]
    rintro (start | rest)
    · exact absurd start (by decide)
    · exact unslashed rest
  have long : 6 ≤ ("media." ++ suffix).length := by
    rw [String.length_append]
    exact Nat.le_add_right _ _
  have other : ∀ short : String, short.length < 6 → "media." ++ suffix ≠ short := by
    rintro _ small rfl
    omega
  have whole : splitOn ("media." ++ suffix) '/' = ["media." ++ suffix] := by
    rw [splitOn, splitChars_of_notMem free, List.map_singleton, String.ofList_toList]
  have name : pathFileName ("media." ++ suffix) = some ("media." ++ suffix) := by
    have present : (!("media." ++ suffix).isEmpty && ("media." ++ suffix) != ".") = true := by
      rw [Bool.and_eq_true, Bool.not_eq_true', ← Bool.not_eq_true, String.isEmpty_iff, bne_iff_ne]
      exact ⟨other "" (by decide), other "." (by decide)⟩
    rw [pathFileName, whole, List.filter_cons, if_pos present]
    dsimp only [List.filter_nil, List.getLast?_singleton]
    rw [if_neg (other ".." (by decide))]
  have split : rsplitOnce ("media." ++ suffix) '.' = some ("media", suffix) :=
    rsplitOnce_dot "media" undotted
  rw [extension, name]
  dsimp only
  rw [split]
  rfl

/-- Nothing which `media_kind` recognizes starts the marker. -/
theorem MediaExtension.not_isMarker {suffix : String} (known : MediaExtension platform suffix)
    (lowercase : ∀ value, isLowerText value = true → platform.lowercase value = value) :
    ¬ IsMarker suffix := by
  intro isMarker
  have prefixed := List.isPrefixOf_iff_prefix.mp isMarker.2
  have lower : isLowerText suffix = true := by
    rw [isLowerText, List.all_eq_true]
    intro character member
    have every : ∀ character ∈ supplementalMarker.toList,
        (('a' ≤ character && character ≤ 'z') || character == '-') = true := by
      simp [supplementalMarker]
    exact every character (prefixed.subset member)
  have recognized := known.recognized
  rw [mediaKind, extension_media known.undotted known.unslashed, lowercase suffix lower]
    at recognized
  have images : ∀ known ∈ ["jpg", "jpeg", "png", "heic", "heif", "webp", "gif", "tif", "tiff",
      "dng", "cr2", "cr3", "arw", "raf", "nef"], startsWith supplementalMarker known = false := by
    decide +kernel
  have videos : ∀ known ∈ ["mp4", "mov", "avi", "mkv", "m4v", "3gp"],
      startsWith supplementalMarker known = false := by decide +kernel
  have marked := isMarker.2
  dsimp only at recognized
  split at recognized
  · rename_i image
    rw [images suffix (List.contains_iff_mem.mp image)] at marked
    cases marked
  · split at recognized
    · rename_i video
      rw [videos suffix (List.contains_iff_mem.mp video)] at marked
      cases marked
    · cases recognized

theorem MediaExtension.ne_empty {suffix : String} (known : MediaExtension platform suffix)
    (lowercase : ∀ value, isLowerText value = true → platform.lowercase value = value) :
    suffix ≠ "" := by
  rintro rfl
  have recognized := known.recognized
  rw [mediaKind, extension_media known.undotted known.unslashed, lowercase "" (by decide)]
    at recognized
  exact absurd recognized (by decide)

/-- A name which is read back has an index behind a dotted head. -/
theorem eq_indexedSidecarName_of_isSome {name : String}
    (named : (indexedMediaName name).isSome = true) :
    ∃ head index, name = indexedSidecarName head index ∧ IsIndex index ∧ '.' ∈ head.toList := by
  rw [indexedMediaName_eq] at named
  obtain ⟨result, found⟩ := Option.isSome_iff_exists.mp named
  obtain ⟨⟨head, index⟩, split, media⟩ := Option.bind_eq_some_iff.mp found
  obtain ⟨stripped, ends, parted⟩ := Option.bind_eq_some_iff.mp split
  obtain rfl := stripSuffix_eq_some.mp ends
  rw [mediaNameOf] at media
  split at media
  · cases media
  · rename_i digits
    rw [Bool.or_eq_true, not_or, Bool.not_eq_true, Bool.not_eq_true, Bool.not_eq_false'] at digits
    obtain ⟨⟨stem, suffix⟩, dotted, _⟩ := Option.bind_eq_some_iff.mp media
    refine ⟨head, index, ?_, digits, ?_⟩
    · have parts : stripped = head ++ "(" ++ index := by
        apply String.toList_injective
        rw [String.toList_append, String.toList_append, List.append_assoc]
        exact (rsplitOnce_eq_some_iff.mp parted).1
      rw [parts]
      rfl
    · have inside : '.' ∈ (unmarkedHead head).toList := by
        rw [(rsplitOnce_eq_some_iff.mp dotted).1]
        exact List.mem_append_right _ List.mem_cons_self
      rw [unmarkedHead] at inside
      split at inside
      · rename_i mediaName marker headDotted
        rw [(rsplitOnce_eq_some_iff.mp headDotted).1]
        exact List.mem_append_right _ List.mem_cons_self
      · exact inside

/-- **Indexed names.** The names of indexed sidecars are read back, with any part of the marker and
without it; no other name is read than one with an index behind a dotted head. -/
theorem indexedMediaName_inverts
    (lowercase : ∀ value, isLowerText value = true → platform.lowercase value = value) :
    (∀ stem suffix index : String, stem ≠ "" → MediaExtension platform suffix → IsIndex index →
      (∀ marker, IsMarker marker →
        indexedMediaName (indexedSidecarName (stem ++ "." ++ suffix ++ "." ++ marker) index) =
          some (indexedName stem index suffix)) ∧
        indexedMediaName (indexedSidecarName (stem ++ "." ++ suffix) index) =
          some (indexedName stem index suffix)) ∧
      ∀ name, (∀ head index, name = indexedSidecarName head index → IsIndex index →
        '.' ∉ head.toList) → indexedMediaName name = none := by
  refine ⟨fun stem suffix index present known indexed => ⟨fun marker isMarker => ?_, ?_⟩,
    fun name other => ?_⟩
  · rw [indexedMediaName_indexedSidecarName _ indexed]
    apply mediaNameOf_unmarked indexed known.undotted present (known.ne_empty lowercase)
    exact unmarkedHead_marked isMarker
  · rw [indexedMediaName_indexedSidecarName _ indexed]
    apply mediaNameOf_unmarked indexed known.undotted present (known.ne_empty lowercase)
    exact unmarkedHead_unmarked known.undotted (known.not_isMarker lowercase)
  · rw [← Option.not_isSome_iff_eq_none]
    intro named
    obtain ⟨head, index, same, indexed, dotted⟩ := eq_indexedSidecarName_of_isSome named
    exact other head index same indexed dotted

theorem lowercase_reference (value : String) (lower : isLowerText value = true) :
    SourcePlatform.reference.lowercase value = value := by
  have kept : value.toList.map Char.toLower = value.toList := by
    refine (List.map_congr_left fun character member => ?_).trans (List.map_id _)
    have allowed := List.all_eq_true.mp lower character member
    rw [Bool.or_eq_true, Bool.and_eq_true, decide_eq_true_eq, decide_eq_true_eq,
      beq_iff_eq] at allowed
    rcases allowed with ⟨low, _⟩ | rfl
    · have small : ¬ (character.val ≥ 'A'.val ∧ character.val ≤ 'Z'.val) :=
        fun upper => absurd (UInt32.le_trans low upper.2) (by decide)
      exact dif_neg small
    · rfl
  show String.ofList (value.toList.map Char.toLower) = value
  rw [kept, String.ofList_toList]

/-- A sidecar with a short marker and parentheses in its stem. -/
theorem indexedMediaName_edited :
    indexedMediaName (indexedSidecarName ("IMG.1(2)" ++ "." ++ "jpg" ++ "." ++ "supp") "3") =
      some (indexedName "IMG.1(2)" "3" "jpg") := by
  have known : MediaExtension .reference "jpg" :=
    { undotted := by decide, unslashed := by decide, recognized := by decide +kernel }
  have inverted := (indexedMediaName_inverts lowercase_reference).1 "IMG.1(2)" "jpg" "3" (by decide)
    known ⟨by decide, by decide⟩
  exact inverted.1 "supp" ⟨by decide, by decide +kernel⟩

end ImmichRs
