import ImmichRs.Sources.Lawful
import ImmichRs.Sources.Picasa

/-!
# Sections of a Picasa document

The loop over the lines of a `.picasa.ini` carries the current section, a counter and the document.
Its result is the set of the assignments in the file: which are made depends on the sections alone,
and a document exists exactly when no two of them differ, whatever their order is.
-/

namespace ImmichRs

open Std (ExtTreeMap)

/-! ## Assignments -/

/-- A fact which a line assigns. -/
inductive IniAssignment
  | album (value : String)
  | caption (name value : String)
  deriving DecidableEq, Repr

/-- What a line is, apart from its section. -/
inductive IniLine
  | blank
  | header (name : String)
  | pair (key value : String)
  | malformed
  deriving DecidableEq, Repr

/-- The reading of one line. -/
def readIniLine (raw : String) : IniLine :=
  let line := trim raw
  if line.isEmpty || startsWith line ";" || startsWith line "#" then
    .blank
  else if startsWith line "[" then
    match stripSuffix (String.ofList (line.toList.drop 1)) "]" with
    | none => .malformed
    | some name => .header name
  else
    match splitOnce line '=' with
    | none => .malformed
    | some (key, value) => .pair (trim key) (trim value)

/-- What a pair assigns in a section. -/
def assignmentOf (name key value : String) : Option IniAssignment :=
  if eqIgnoreAsciiCase name "Picasa" && eqIgnoreAsciiCase key "name" then some (.album value)
  else if eqIgnoreAsciiCase key "caption" then some (.caption name value)
  else none

/-- The section after some lines. -/
def lastSection : Option String → List String → Option String
  | current, [] => current
  | current, line :: rest =>
      match readIniLine line with
      | .header name => lastSection (some name) rest
      | _ => lastSection current rest

/-- The assignments of some lines, from a section on. -/
def iniAssignments : Option String → List String → List IniAssignment
  | _, [] => []
  | current, line :: rest =>
      match readIniLine line with
      | .header name => iniAssignments (some name) rest
      | .pair key value =>
          (current.bind fun name => assignmentOf name key value).toList ++
            iniAssignments current rest
      | _ => iniAssignments current rest

/-- A line is the header of a section. -/
def isIniHeader (line : String) : Bool :=
  match readIniLine line with
  | .header _ => true
  | _ => false

/-- Every line passes the checks of the parser which no other assignment matters for. -/
def WellFormedIni : Option String → List String → Prop
  | _, [] => True
  | current, line :: rest => byteLen line ≤ 16384 ∧
      match readIniLine line with
      | .blank => WellFormedIni current rest
      | .header name => (name.isEmpty || decide (4096 < byteLen name) || anyChar name isControl) =
          false ∧ WellFormedIni (some name) rest
      | .pair key value => (key.isEmpty || decide (256 < byteLen key) ||
          decide (16384 < byteLen value)) = false ∧ current.isSome = true ∧
            WellFormedIni current rest
      | .malformed => False

/-- The effect of one assignment. -/
def PicasaDocument.assign (document : PicasaDocument) :
    IniAssignment → Except IniError PicasaDocument
  | .album value => do
      let album ← assignAlbum document.album value
      return { document with album }
  | .caption name value => do
      let captions ← assignCaption document.captions name value
      return { document with captions }

/-! ## The loop -/

theorem foldlM_assign_some (document : PicasaDocument) (assignment : IniAssignment) :
    (some assignment).toList.foldlM PicasaDocument.assign document =
      document.assign assignment := by
  rw [Option.toList_some, List.foldlM_cons]
  cases document.assign assignment <;> rfl

/-- One line, from its reading. -/
theorem parseRawLine_ok_iff {state next : IniState} {line : String} {index : Nat} :
    parseRawLine state (line, index) = .ok next ↔
      index < 20000 ∧ byteLen line ≤ 16384 ∧
        match readIniLine line with
        | .blank => next = state
        | .header name => (name.isEmpty || decide (4096 < byteLen name) || anyChar name isControl) =
            false ∧ state.sections + 1 ≤ 10000 ∧
              next = { state with current := some name, sections := state.sections + 1 }
        | .pair key value => (key.isEmpty || decide (256 < byteLen key) ||
            decide (16384 < byteLen value)) = false ∧ ∃ name, state.current = some name ∧
              ∃ document, (assignmentOf name key value).toList.foldlM PicasaDocument.assign
                state.document = .ok document ∧ next = { state with document }
        | .malformed => False := by
  obtain ⟨document, current, sections⟩ := state
  rw [parseRawLine, reject_bind_eq_ok, Bool.or_eq_false_iff, decide_eq_false_iff_not,
    decide_eq_false_iff_not, Nat.not_le, Nat.not_lt, and_assoc]
  apply and_congr_right
  intro _
  apply and_congr_right
  intro _
  rw [readIniLine]
  dsimp only
  split
  · exact ⟨fun same => (Except.ok.inj same).symm, fun same => congrArg _ same.symm⟩
  · rw [parseLine]
    split
    · rw [openSection]
      cases stripSuffix (String.ofList ((trim line).toList.drop 1)) "]" with
      | none => exact ⟨nofun, False.elim⟩
      | some name =>
          dsimp only
          rw [reject_bind_eq_ok, reject_bind_eq_ok, decide_eq_false_iff_not, Nat.not_lt]
          exact and_congr_right fun _ => and_congr_right fun _ =>
            ⟨fun same => (Except.ok.inj same).symm, fun same => congrArg _ same.symm⟩
    · cases splitOnce (trim line) '=' with
      | none => exact ⟨nofun, False.elim⟩
      | some pair =>
          obtain ⟨key, value⟩ := pair
          dsimp only
          rw [assignKey, reject_bind_eq_ok]
          apply and_congr_right
          intro _
          cases current with
          | none => exact ⟨nofun, nofun⟩
          | some name =>
              simp only [Option.some.injEq, exists_eq_left']
              rw [assignmentOf]
              split
              · rw [bind_eq_ok]
                simp only [foldlM_assign_some, PicasaDocument.assign, bind_eq_ok]
                constructor
                · intro ⟨album, assigned, same⟩
                  exact ⟨_, ⟨album, assigned, rfl⟩, (Except.ok.inj same).symm⟩
                · intro ⟨_, ⟨album, assigned, same⟩, following⟩
                  cases same
                  exact ⟨album, assigned, congrArg _ following.symm⟩
              · split
                · rw [bind_eq_ok]
                  simp only [foldlM_assign_some, PicasaDocument.assign, bind_eq_ok]
                  constructor
                  · intro ⟨captions, assigned, same⟩
                    exact ⟨_, ⟨captions, assigned, rfl⟩, (Except.ok.inj same).symm⟩
                  · intro ⟨_, ⟨captions, assigned, same⟩, following⟩
                    cases same
                    exact ⟨captions, assigned, congrArg _ following.symm⟩
                · constructor
                  · intro same
                    exact ⟨_, rfl, (Except.ok.inj same).symm⟩
                  · intro ⟨_, same, following⟩
                    cases same
                    exact congrArg _ following.symm

theorem foldlM_parseRawLine_ok_iff {lines : List String} {start : Nat} {state : IniState}
    (counted : state.sections ≤ 10000) (room : start ≤ 20000) {document : PicasaDocument} :
    (∃ final, (lines.zipIdx start).foldlM parseRawLine state = .ok final ∧
      final.document = document) ↔
      start + lines.length ≤ 20000 ∧ state.sections + lines.countP isIniHeader ≤ 10000 ∧
        WellFormedIni state.current lines ∧
        (iniAssignments state.current lines).foldlM PicasaDocument.assign state.document =
          .ok document := by
  induction lines generalizing start state with
  | nil =>
      simp only [List.zipIdx_nil, List.foldlM_nil, List.length_nil, List.countP_nil, WellFormedIni,
        iniAssignments]
      constructor
      · intro ⟨_, same, read⟩
        cases same
        exact ⟨room, counted, trivial, congrArg _ read⟩
      · intro ⟨_, _, _, same⟩
        exact ⟨state, rfl, Except.ok.inj same⟩
  | cons line rest induction =>
      have first : (∃ final, ((line :: rest).zipIdx start).foldlM parseRawLine state = .ok final ∧
          final.document = document) ↔ ∃ next, parseRawLine state (line, start) = .ok next ∧
            ∃ final, (rest.zipIdx (start + 1)).foldlM parseRawLine next = .ok final ∧
              final.document = document := by
        rw [List.zipIdx_cons, List.foldlM_cons]
        simp only [bind_eq_ok]
        constructor
        · intro ⟨final, ⟨next, parsed, later⟩, read⟩
          exact ⟨next, parsed, final, later, read⟩
        · intro ⟨next, parsed, final, later, read⟩
          exact ⟨final, ⟨next, parsed, later⟩, read⟩
      rw [first, List.length_cons, List.countP_cons, isIniHeader, WellFormedIni, iniAssignments]
      simp only [parseRawLine_ok_iff]
      cases reading : readIniLine line with
      | malformed => simp
      | blank =>
          simp only [Bool.false_eq_true, if_false, Nat.add_zero]
          constructor
          · intro ⟨_, ⟨below, short, rfl⟩, later⟩
            obtain ⟨lines, headers, formed, assigned⟩ := (induction counted below).mp later
            exact ⟨by omega, headers, ⟨short, formed⟩, assigned⟩
          · intro ⟨lines, headers, ⟨short, formed⟩, assigned⟩
            exact ⟨state, ⟨by omega, short, rfl⟩, (induction counted (by omega)).mpr
              ⟨by omega, headers, formed, assigned⟩⟩
      | header name =>
          simp only [if_true]
          constructor
          · intro ⟨_, ⟨below, short, named, sections, rfl⟩, later⟩
            obtain ⟨lines, headers, formed, assigned⟩ := (induction sections below).mp later
            have counting : state.sections + 1 + rest.countP isIniHeader ≤ 10000 := headers
            exact ⟨by omega, by omega, ⟨short, named, formed⟩, assigned⟩
          · intro ⟨lines, headers, ⟨short, named, formed⟩, assigned⟩
            have sections : state.sections + 1 ≤ 10000 := by omega
            exact ⟨{ state with current := some name, sections := state.sections + 1 },
              ⟨by omega, short, named, sections, rfl⟩, (induction sections (by omega)).mpr
                ⟨by omega, by show state.sections + 1 + _ ≤ _; omega, formed, assigned⟩⟩
      | pair key value =>
          simp only [Bool.false_eq_true, if_false, Nat.add_zero, List.foldlM_append, bind_eq_ok]
          constructor
          · intro ⟨_, ⟨below, short, usable, name, inside, held, made, rfl⟩, later⟩
            obtain ⟨lines, headers, formed, assigned⟩ :=
              (@induction _ { state with document := held } counted below).mp later
            refine ⟨by omega, headers, ⟨short, usable, ?_, formed⟩, held, ?_, assigned⟩
            · rw [inside]
              rfl
            · rw [inside]
              exact made
          · intro ⟨lines, headers, ⟨short, usable, within, formed⟩, held, made, assigned⟩
            obtain ⟨name, inside⟩ := Option.isSome_iff_exists.mp within
            rw [inside] at made
            exact ⟨{ state with document := held },
              ⟨by omega, short, usable, name, inside, held, made, rfl⟩,
              (@induction (start + 1) { state with document := held } counted (by omega)).mpr
                ⟨by omega, headers, formed, assigned⟩⟩

/-! ## The assignments as a set -/

/-- The checks of the value of an assignment. -/
def IniAssignment.Usable : IniAssignment → Prop
  | .album value => (value.isEmpty || decide (4096 < byteLen value) ||
      (containsChar value '/' || containsChar value '\\') || anyChar value isControl) = false
  | .caption _ value => (value.isEmpty ||
      anyChar value fun character => isControl character && !isLayout character) = false

/-- Two assignments of different values to one fact. -/
def IniAssignment.Clashes : IniAssignment → IniAssignment → Prop
  | .album first, .album second => first ≠ second
  | .caption firstName first, .caption secondName second =>
      firstName = secondName ∧ first ≠ second
  | _, _ => False

/-- A document holds what an assignment assigns. -/
def PicasaDocument.Holds (document : PicasaDocument) : IniAssignment → Prop
  | .album value => document.album = some value
  | .caption name value => document.captions[name]? = some value

/-- No caption is empty. -/
def PicasaDocument.Filled (document : PicasaDocument) : Prop :=
  ∀ name value : String, document.captions[name]? = some value → value.isEmpty = false

theorem PicasaDocument.Holds.agree {document : PicasaDocument} {first second : IniAssignment}
    (held : document.Holds first) (also : document.Holds second) : ¬ first.Clashes second := by
  intro clash
  cases first with
  | album value =>
      cases second with
      | album other => exact clash (Option.some.inj (held.symm.trans also))
      | caption name other => exact clash
  | caption name value =>
      cases second with
      | album other => exact clash
      | caption otherName other =>
          obtain ⟨rfl, different⟩ := clash
          exact different (Option.some.inj (held.symm.trans also))

/-- A document is determined by what it holds. -/
theorem PicasaDocument.ext_of_holds {first second : PicasaDocument}
    (same : ∀ assignment, first.Holds assignment ↔ second.Holds assignment) : first = second := by
  obtain ⟨album, captions⟩ := first
  obtain ⟨otherAlbum, otherCaptions⟩ := second
  have albums : album = otherAlbum := Option.ext fun value => same (.album value)
  have maps : captions = otherCaptions :=
    ExtTreeMap.ext_getElem? fun name => Option.ext fun value => same (.caption name value)
  rw [albums, maps]

theorem assignAlbum_ok_iff {album next : Option String} {value : String} :
    assignAlbum album value = .ok next ↔ (IniAssignment.album value).Usable ∧
      (∀ old, album = some old → old = value) ∧ next = some value := by
  rw [assignAlbum, reject_bind_eq_ok, reject_bind_eq_ok]
  apply and_congr_right
  intro _
  have unchanged : album.any (· != value) = false ↔ ∀ old, album = some old → old = value := by
    cases album <;> simp
  rw [unchanged]
  exact and_congr_right fun _ => ⟨fun same => (Except.ok.inj same).symm, fun same => same ▸ rfl⟩

theorem assignCaption_ok_iff {captions next : ExtTreeMap String String} {name value : String}
    (filled : ∀ old : String, captions[name]? = some old → old.isEmpty = false) :
    assignCaption captions name value = .ok next ↔ (IniAssignment.caption name value).Usable ∧
      (∀ old, captions[name]? = some old → old = value) ∧ next = captions.insert name value := by
  have unchanged : (!(captions[name]?.getD "").isEmpty && captions[name]?.getD "" != value) = false ↔
      ∀ old, captions[name]? = some old → old = value := by
    cases found : captions[name]? with
    | none => simp
    | some old => simp [filled old found]
  rw [assignCaption, reject_bind_eq_ok, reject_bind_eq_ok, unchanged, and_left_comm]
  exact and_congr_right fun _ => and_congr_right fun _ =>
    ⟨fun same => (Except.ok.inj same).symm, fun same => same ▸ rfl⟩

/-- The document with one more assignment. -/
def PicasaDocument.put (document : PicasaDocument) : IniAssignment → PicasaDocument
  | .album value => { document with album := some value }
  | .caption name value => { document with captions := document.captions.insert name value }

/-- Nothing held clashes with an assignment. -/
def PicasaDocument.Admits (document : PicasaDocument) (assignment : IniAssignment) : Prop :=
  ∀ held, document.Holds held → ¬ held.Clashes assignment

theorem PicasaDocument.admits_album {document : PicasaDocument} {value : String} :
    document.Admits (.album value) ↔ ∀ old, document.album = some old → old = value := by
  constructor
  · intro admits old held
    exact not_not.mp (admits (.album old) held)
  · intro unchanged held holds
    cases held with
    | album old => exact not_not.mpr (unchanged old holds)
    | caption name old => exact id

theorem PicasaDocument.admits_caption {document : PicasaDocument} {name value : String} :
    document.Admits (.caption name value) ↔
      ∀ old, document.captions[name]? = some old → old = value := by
  constructor
  · intro admits old held
    exact not_not.mp fun different => admits (.caption name old) held ⟨rfl, different⟩
  · intro unchanged held holds clash
    cases held with
    | album old => exact clash
    | caption other old =>
        obtain ⟨rfl, different⟩ := clash
        exact different (unchanged old holds)

theorem PicasaDocument.assign_eq_put {document next : PicasaDocument} (filled : document.Filled)
    {assignment : IniAssignment} :
    document.assign assignment = .ok next ↔
      assignment.Usable ∧ document.Admits assignment ∧ next = document.put assignment := by
  cases assignment with
  | album value =>
      rw [assign, bind_eq_ok, admits_album]
      simp only [assignAlbum_ok_iff]
      constructor
      · intro ⟨album, ⟨usable, unchanged, same⟩, returned⟩
        exact ⟨usable, unchanged, by rw [put, ← same]; exact (Except.ok.inj returned).symm⟩
      · intro ⟨usable, unchanged, same⟩
        exact ⟨some value, ⟨usable, unchanged, rfl⟩, congrArg _ same.symm⟩
  | caption name value =>
      rw [assign, bind_eq_ok, admits_caption]
      simp only [assignCaption_ok_iff (filled name)]
      constructor
      · intro ⟨captions, ⟨usable, unchanged, same⟩, returned⟩
        exact ⟨usable, unchanged, by rw [put, ← same]; exact (Except.ok.inj returned).symm⟩
      · intro ⟨usable, unchanged, same⟩
        exact ⟨_, ⟨usable, unchanged, rfl⟩, congrArg _ same.symm⟩

theorem PicasaDocument.holds_put {document : PicasaDocument} {assignment other : IniAssignment}
    (admits : document.Admits assignment) :
    (document.put assignment).Holds other ↔ document.Holds other ∨ other = assignment := by
  cases assignment with
  | album value =>
      cases other with
      | caption name found => exact ⟨.inl, fun held => held.resolve_right nofun⟩
      | album found =>
          constructor
          · intro held
            exact .inr (congrArg _ (Option.some.inj held).symm)
          · intro held
            have same : found = value := held.elim (admits_album.mp admits found)
              fun equal => IniAssignment.album.inj equal
            exact congrArg some same.symm
  | caption name value =>
      cases other with
      | album found => exact ⟨.inl, fun held => held.resolve_right nofun⟩
      | caption otherName found =>
          show (document.captions.insert name value)[otherName]? = some found ↔ _
          by_cases same : otherName = name
          · subst same
            rw [ExtTreeMap.getElem?_insert_self, Option.some.injEq]
            constructor
            · intro equal
              exact .inr (congrArg _ equal.symm)
            · intro held
              have equal : found = value := held.elim (admits_caption.mp admits found)
                fun equal => (IniAssignment.caption.inj equal).2
              exact equal.symm
          · rw [Collections.getElem?_insert_of_ne fun equal => same equal.symm]
            exact ⟨.inl, fun held => held.resolve_right fun equal =>
              same (IniAssignment.caption.inj equal).1⟩

theorem PicasaDocument.Filled.put {document : PicasaDocument} (filled : document.Filled)
    {assignment : IniAssignment} (usable : assignment.Usable) :
    (document.put assignment).Filled := by
  cases assignment with
  | album value => exact filled
  | caption name value =>
      intro other found held
      by_cases same : name = other
      · subst same
        have equal : value = found := by
          rw [PicasaDocument.put, ExtTreeMap.getElem?_insert_self] at held
          exact Option.some.inj held
        rw [IniAssignment.Usable, Bool.or_eq_false_iff] at usable
        exact equal ▸ usable.1
      · rw [PicasaDocument.put, Collections.getElem?_insert_of_ne same] at held
        exact filled other found held

/-- Assignments are made exactly when each is usable and the result holds them and nothing else. -/
theorem PicasaDocument.foldlM_assign_ok_iff {document final : PicasaDocument}
    (filled : document.Filled) {assignments : List IniAssignment} :
    assignments.foldlM PicasaDocument.assign document = .ok final ↔
      (∀ assignment ∈ assignments, assignment.Usable) ∧
        ∀ other, final.Holds other ↔ document.Holds other ∨ other ∈ assignments := by
  induction assignments generalizing document with
  | nil =>
      rw [List.foldlM_nil]
      constructor
      · intro same
        cases same
        exact ⟨nofun, fun other => ⟨.inl, fun held => held.resolve_right List.not_mem_nil⟩⟩
      · intro ⟨_, same⟩
        apply congrArg Except.ok
        apply ext_of_holds
        intro other
        rw [same]
        exact ⟨.inl, fun held => held.resolve_right List.not_mem_nil⟩
  | cons assignment rest induction =>
      rw [List.foldlM_cons, bind_eq_ok, List.forall_mem_cons]
      simp only [assign_eq_put filled, List.mem_cons]
      constructor
      · intro ⟨_, ⟨usable, admits, same⟩, later⟩
        subst same
        obtain ⟨others, holds⟩ := (induction (filled.put usable)).mp later
        refine ⟨⟨usable, others⟩, fun other => ?_⟩
        rw [holds, holds_put admits, or_assoc]
      · intro ⟨⟨usable, others⟩, holds⟩
        have admits : document.Admits assignment := by
          intro held inside
          have kept := (holds held).mpr (.inl inside)
          exact kept.agree ((holds assignment).mpr (.inr (.inl rfl)))
        refine ⟨_, ⟨usable, admits, rfl⟩, (induction (filled.put usable)).mpr ⟨others, fun other => ?_⟩⟩
        rw [holds, holds_put admits, or_assoc]

/-! ## Accepted files -/

/-- The lines of a file are within the limits, and a document holds their assignments. -/
structure IniAccepts (lines : List String) (document : PicasaDocument) : Prop where
  count : lines.length ≤ 20000
  headers : lines.countP isIniHeader ≤ 10000
  formed : WellFormedIni none lines
  usable : ∀ assignment ∈ iniAssignments none lines, assignment.Usable
  holds : ∀ assignment, document.Holds assignment ↔ assignment ∈ iniAssignments none lines

theorem PicasaDocument.not_holds_empty (assignment : IniAssignment) :
    ¬ PicasaDocument.empty.Holds assignment := by
  cases assignment with
  | album value => exact nofun
  | caption name value =>
      show ¬ (∅ : ExtTreeMap String String)[name]? = some value
      rw [ExtTreeMap.getElem?_empty]
      exact nofun

/-- The parser accepts a file exactly when its lines are accepted. -/
theorem parseIni_ok_iff {bytes : List UInt8} {document : PicasaDocument} :
    parseIni bytes = .ok document ↔ bytes.length ≤ maxIniBytes ∧
      ∃ text, decodeUtf8 bytes = some text ∧ IniAccepts (textLines text) document := by
  rw [parseIni, reject_bind_eq_ok, decide_eq_false_iff_not, Nat.not_lt]
  apply and_congr_right
  intro _
  cases decodeUtf8 bytes with
  | none => exact ⟨nofun, nofun⟩
  | some text =>
      simp only [Option.some.injEq, exists_eq_left']
      have filled : PicasaDocument.empty.Filled := fun name value held =>
        absurd held (PicasaDocument.not_holds_empty (.caption name value))
      have loop := @foldlM_parseRawLine_ok_iff (textLines text) 0
        { document := .empty, current := none, sections := 0 } (Nat.zero_le _) (Nat.zero_le _)
        document
      simp only [Nat.zero_add, PicasaDocument.foldlM_assign_ok_iff filled,
        PicasaDocument.not_holds_empty, false_or] at loop
      rw [bind_eq_ok]
      constructor
      · intro ⟨state, parsed, returned⟩
        obtain ⟨count, headers, formed, usable, holds⟩ :=
          loop.mp ⟨state, parsed, Except.ok.inj returned⟩
        exact ⟨count, headers, formed, usable, holds⟩
      · intro ⟨count, headers, formed, usable, holds⟩
        obtain ⟨state, parsed, read⟩ := loop.mpr ⟨count, headers, formed, usable, holds⟩
        exact ⟨state, parsed, congrArg _ read⟩

/-- The value of an assignment. -/
def IniAssignment.value : IniAssignment → String
  | .album value => value
  | .caption _ value => value

theorem byteLen_of_wellFormedIni {lines : List String} {current : Option String}
    (formed : WellFormedIni current lines) {assignment : IniAssignment}
    (member : assignment ∈ iniAssignments current lines) : byteLen assignment.value ≤ 16384 := by
  induction lines generalizing current with
  | nil => cases member
  | cons line rest induction =>
      rw [WellFormedIni] at formed
      rw [iniAssignments] at member
      cases reading : readIniLine line with
      | malformed => simp only [reading, and_false] at formed
      | blank =>
          simp only [reading] at formed member
          exact induction formed.2 member
      | header name =>
          simp only [reading] at formed member
          exact induction formed.2.2 member
      | pair key value =>
          simp only [reading, List.mem_append, Option.mem_toList] at formed member
          obtain ⟨_, usable, _, later⟩ := formed
          rcases member with made | member
          · obtain ⟨name, _, made⟩ := Option.bind_eq_some_iff.mp made
            have same : assignment.value = value := by
              rw [assignmentOf] at made
              split_ifs at made <;> cases made <;> rfl
            simp only [Bool.or_eq_false_iff, decide_eq_false_iff_not, Nat.not_lt] at usable
            exact same ▸ usable.2
          · exact induction later member

/-- What an accepted document assigns to any file is valid metadata. -/
theorem IniAccepts.isValid {lines : List String} {document : PicasaDocument}
    (accepts : IniAccepts lines document) (platform : Platform) (name : String) :
    NormalizedMetadata.isValid platform
      { description := document.captions[name]?
        takenAtUtc := none
        location := none
        albums := document.album.toList } = true := by
  have held : ∀ assignment, document.Holds assignment →
      assignment.Usable ∧ byteLen assignment.value ≤ 16384 := by
    intro assignment holds
    have member := (accepts.holds assignment).mp holds
    exact ⟨accepts.usable assignment member, byteLen_of_wellFormedIni accepts.formed member⟩
  have caption : ∀ value, document.captions[name]? = some value →
      validText value (16 * 1024) true = true := by
    intro value found
    obtain ⟨usable, short⟩ := held (.caption name value) found
    rw [IniAssignment.Usable, Bool.or_eq_false_iff] at usable
    have within : byteLen value ≤ 16 * 1024 := short
    simp only [validText, Bool.true_and, Bool.true_or, Bool.and_true]
    rw [usable.1, usable.2, decide_eq_true within]
    rfl
  have album : ∀ value, document.album = some value → validAlbum value = true := by
    intro value found
    obtain ⟨usable, _⟩ := held (.album value) found
    simp only [IniAssignment.Usable, Bool.or_eq_false_iff, decide_eq_false_iff_not,
      Nat.not_lt] at usable
    obtain ⟨⟨⟨filled, short⟩, _, backslash⟩, controls⟩ := usable
    rw [validAlbum, filled, backslash, controls, decide_eq_true short]
    rfl
  rw [isValid_iff]
  refine ⟨⟨caption, fun text missing => ?_, fun place missing => ?_⟩, fun value member => ?_, ?_⟩
  · cases missing
  · cases missing
  · exact album value (Option.mem_toList.mp member)
  · cases document.album <;> rfl

/-! ## Orders of sections -/

theorem wellFormedIni_append (current : Option String) (front rest : List String) :
    WellFormedIni current (front ++ rest) ↔
      WellFormedIni current front ∧ WellFormedIni (lastSection current front) rest := by
  induction front generalizing current with
  | nil => exact ⟨fun formed => ⟨trivial, formed⟩, And.right⟩
  | cons line front induction =>
      rw [List.cons_append, WellFormedIni, WellFormedIni, lastSection]
      cases readIniLine line <;> simp only [induction, and_assoc, false_and, and_false]

theorem iniAssignments_append (current : Option String) (front rest : List String) :
    iniAssignments current (front ++ rest) =
      iniAssignments current front ++ iniAssignments (lastSection current front) rest := by
  induction front generalizing current with
  | nil => rfl
  | cons line front induction =>
      rw [List.cons_append, iniAssignments, iniAssignments, lastSection]
      cases readIniLine line <;> simp only [induction, List.append_assoc]

/-- Some lines start with the header of a section. -/
def StartsSection (block : List String) : Prop :=
  ∃ header rest, block = header :: rest ∧ isIniHeader header = true

/-- A section does not depend on the one before it. -/
theorem StartsSection.independent {block : List String} (starts : StartsSection block)
    (current : Option String) :
    (WellFormedIni current block ↔ WellFormedIni none block) ∧
      iniAssignments current block = iniAssignments none block := by
  obtain ⟨header, rest, rfl, isHeader⟩ := starts
  rw [isIniHeader] at isHeader
  cases reading : readIniLine header with
  | header name => simp only [WellFormedIni, iniAssignments, reading, and_self]
  | blank => simp only [reading, Bool.false_eq_true] at isHeader
  | pair key value => simp only [reading, Bool.false_eq_true] at isHeader
  | malformed => simp only [reading, Bool.false_eq_true] at isHeader

theorem wellFormedIni_flatten {blocks : List (List String)}
    (starts : ∀ block ∈ blocks, StartsSection block) (current : Option String) :
    WellFormedIni current blocks.flatten ↔ ∀ block ∈ blocks, WellFormedIni none block := by
  induction blocks generalizing current with
  | nil => exact ⟨nofun, fun _ => trivial⟩
  | cons block blocks induction =>
      obtain ⟨first, others⟩ := List.forall_mem_cons.mp starts
      rw [List.flatten_cons, wellFormedIni_append, (first.independent current).1,
        induction others, List.forall_mem_cons]

theorem mem_iniAssignments_flatten {blocks : List (List String)}
    (starts : ∀ block ∈ blocks, StartsSection block) (current : Option String)
    (assignment : IniAssignment) :
    assignment ∈ iniAssignments current blocks.flatten ↔
      ∃ block ∈ blocks, assignment ∈ iniAssignments none block := by
  induction blocks generalizing current with
  | nil => exact ⟨nofun, nofun⟩
  | cons block blocks induction =>
      obtain ⟨first, others⟩ := List.forall_mem_cons.mp starts
      rw [List.flatten_cons, iniAssignments_append, List.mem_append,
        (first.independent current).2, induction others, List.exists_mem_cons_iff]

/-- Two files differ in the order of their sections only. -/
def ReorderedSections (first second : List String) : Prop :=
  ∃ preamble blocks others, first = preamble ++ List.flatten blocks ∧
    second = preamble ++ List.flatten others ∧ blocks.Perm others ∧
    ∀ block ∈ blocks, StartsSection block

/-- The same document holds the assignments of the reordered file. -/
theorem IniAccepts.reorder {first second : List String} {document : PicasaDocument}
    (accepts : IniAccepts first document) (reordered : ReorderedSections first second) :
    IniAccepts second document := by
  obtain ⟨preamble, blocks, others, rfl, rfl, permuted, starts⟩ := reordered
  have lines : (preamble ++ blocks.flatten).Perm (preamble ++ others.flatten) :=
    permuted.flatten.append_left preamble
  have startsOthers : ∀ block ∈ others, StartsSection block := fun block member =>
    starts block (permuted.mem_iff.mpr member)
  have assignments : ∀ assignment,
      assignment ∈ iniAssignments none (preamble ++ others.flatten) ↔
        assignment ∈ iniAssignments none (preamble ++ blocks.flatten) := by
    intro assignment
    simp only [iniAssignments_append, List.mem_append, mem_iniAssignments_flatten starts,
      mem_iniAssignments_flatten startsOthers, permuted.mem_iff]
  constructor
  · exact lines.length_eq ▸ accepts.count
  · exact lines.countP_eq isIniHeader ▸ accepts.headers
  · have formed := accepts.formed
    rw [wellFormedIni_append, wellFormedIni_flatten starts] at formed
    rw [wellFormedIni_append, wellFormedIni_flatten startsOthers]
    exact ⟨formed.1, fun block member => formed.2 block (permuted.mem_iff.mpr member)⟩
  · intro assignment member
    exact accepts.usable assignment ((assignments assignment).mp member)
  · intro assignment
    rw [accepts.holds, assignments]

/-- What the parser accepts is valid metadata; two different values for one fact are an error; and
the order of the sections of an accepted file does not matter. -/
theorem parseIni_sound (bytes : List UInt8) :
    (∀ document, parseIni bytes = .ok document → ∀ (platform : Platform) (name : String),
      NormalizedMetadata.isValid platform
        { description := document.captions[name]?
          takenAtUtc := none
          location := none
          albums := document.album.toList } = true) ∧
    (∀ text, decodeUtf8 bytes = some text →
      (∃ first ∈ iniAssignments none (textLines text),
        ∃ second ∈ iniAssignments none (textLines text), first.Clashes second) →
      ∃ error, parseIni bytes = .error error) ∧
    ∀ document other text otherText, parseIni bytes = .ok document →
      decodeUtf8 bytes = some text → decodeUtf8 other = some otherText →
      other.length ≤ maxIniBytes → ReorderedSections (textLines text) (textLines otherText) →
      parseIni other = .ok document := by
  refine ⟨fun document parsed platform name => ?_, fun text decoded clashing => ?_,
    fun document other text otherText parsed decoded otherDecoded small reordered => ?_⟩
  · obtain ⟨_, text, _, accepts⟩ := parseIni_ok_iff.mp parsed
    exact accepts.isValid platform name
  · obtain ⟨first, member, second, other, clash⟩ := clashing
    cases parsed : parseIni bytes with
    | error error => exact ⟨error, rfl⟩
    | ok document =>
        obtain ⟨_, found, same, accepts⟩ := parseIni_ok_iff.mp parsed
        obtain rfl := Option.some.inj (decoded.symm.trans same)
        have held := (accepts.holds first).mpr member
        exact absurd clash (held.agree ((accepts.holds second).mpr other))
  · obtain ⟨_, found, same, accepts⟩ := parseIni_ok_iff.mp parsed
    obtain rfl := Option.some.inj (decoded.symm.trans same)
    exact parseIni_ok_iff.mpr ⟨small, otherText, otherDecoded, accepts.reorder reordered⟩

/-- Two names of the album are refused. -/
theorem sampleIni_clashes :
    ∃ error, parseIni (utf8Bytes "[Picasa]\nname=a\nname=b") = .error error := by
  have decoded : decodeUtf8 (utf8Bytes "[Picasa]\nname=a\nname=b") =
      some "[Picasa]\nname=a\nname=b" := by decide +kernel
  have first : IniAssignment.album "a" ∈
      iniAssignments none (textLines "[Picasa]\nname=a\nname=b") := by decide +kernel
  have second : IniAssignment.album "b" ∈
      iniAssignments none (textLines "[Picasa]\nname=a\nname=b") := by decide +kernel
  have different : "a" ≠ "b" := by decide
  exact (parseIni_sound _).2.1 _ decoded ⟨_, first, _, second, different⟩

end ImmichRs
