import FuseDrive.Base64
import FuseDrive.Dict

/-!
# Names of journal files

`FuseOps.open` and `FuseOps.create` write what they know about a handle into
the name of its journal file, and `UploadManager._recover_journal` reads it
back after a crash.  The three fields are separated by underscores, and the
reader takes the characters up to the next underscore for each field.
-/

namespace FuseDrive

/-- `name.encode("utf-8")`. -/
def utf8Encode (text : Str) : List UInt8 :=
  text.flatMap String.utf8EncodeChar

/-- `bytes.decode("utf-8")`, with `none` for a decoding error. -/
def utf8Decode (bytes : List UInt8) : Option Str :=
  bytes.toByteArray.utf8Decode?.map Array.toList

theorem utf8Decode_utf8Encode (text : Str) :
    utf8Decode (utf8Encode text) = some text := by
  have decoded : (utf8Encode text).toByteArray.utf8Decode? = some text.toArray :=
    List.utf8Decode?_utf8Encode
  simp [utf8Decode, decoded]

theorem eq_utf8Encode_of_utf8Decode {bytes : List UInt8} {text : Str}
    (success : utf8Decode bytes = some text) : bytes = utf8Encode text := by
  simp only [utf8Decode, Option.map_eq_some_iff] at success
  obtain ⟨symbols, decoded, rfl⟩ := success
  have valid : bytes.toByteArray.utf8Decode?.isSome := by simp [decoded]
  have encoded : symbols.toList.utf8Encode = bytes.toByteArray := by
    have whole := ByteArray.utf8Encode_get_utf8Decode? (h := valid)
    simpa [decoded] using whole
  change (utf8Encode symbols.toList).toByteArray = bytes.toByteArray at encoded
  simpa using encoded.symm

/-! ## The writers -/

def editPrefix : Str := ['e', 'd', 'i', 't', '_']

def createPrefix : Str := ['c', 'r', 'e', 'a', 't', 'e', '_']

/-- The name `open` asks `mkstemp` for, with the suffix `mkstemp` appends. -/
def editJournalName (fileId suffix : Str) : Str :=
  editPrefix ++ fileId ++ '_' :: suffix

/-- The base64 text of a file name inside a journal name. -/
def safeName (name : Str) : Str :=
  Base64.encode (utf8Encode name)

/-- The name `create` asks `mkstemp` for, with the suffix `mkstemp` appends. -/
def createJournalName (parentId name suffix : Str) : Str :=
  createPrefix ++ parentId ++ '_' :: safeName name ++ '_' :: suffix

/-! ## The reader -/

/-- The group `([^_]+)_`: a non-empty run without underscores, closed by one,
and what follows it. -/
def underscoreField (text : Str) : Option (Str × Str) :=
  match text.takeWhile (· ≠ '_'), text.dropWhile (· ≠ '_') with
  | [], _ => none
  | _ :: _, [] => none
  | first :: group, _ :: rest => some (first :: group, rest)

/-- `re.match(r"^edit_([^_]+)_", filename)`. -/
def editMatch (filename : Str) : Option Str := do
  let text ← editPrefix.isPrefixOf? filename
  let (fileId, _) ← underscoreField text
  some fileId

/-- `re.match(r"^create_([^_]+)_([^_]+)_", filename)`. -/
def createMatch (filename : Str) : Option (Str × Str) := do
  let text ← createPrefix.isPrefixOf? filename
  let (parentId, text) ← underscoreField text
  let (safe, _) ← underscoreField text
  some (parentId, safe)

/-- What `_recover_journal` makes of a file name. -/
inductive JournalEntry where
  | edit (fileId : Str)
  | create (parentId name : Str)
  | undecodable
  | other
deriving DecidableEq

def recoverJournalEntry (filename : Str) : JournalEntry :=
  match editMatch filename with
  | some fileId => .edit fileId
  | none =>
      match createMatch filename with
      | none => .other
      | some (parentId, safe) =>
          match (Base64.decode safe).bind utf8Decode with
          | some name => .create parentId name
          | none => .undecodable

/-! ## One field -/

theorem isPrefixOf?_append (front text : Str) :
    front.isPrefixOf? (front ++ text) = some text := by
  induction front with
  | nil => cases text <;> rfl
  | cons symbol front induction => simp [List.isPrefixOf?, induction]

theorem underscoreField_append {group : Str} (nonempty : group ≠ [])
    (noUnderscore : '_' ∉ group) (rest : Str) :
    underscoreField (group ++ '_' :: rest) = some (group, rest) := by
  have allOther : ∀ symbol ∈ group, (decide (symbol ≠ '_')) = true := by
    intro symbol member
    simpa using fun same : symbol = '_' => noUnderscore (same ▸ member)
  have taken : (group ++ '_' :: rest).takeWhile (· ≠ '_') = group := by
    rw [List.takeWhile_append_of_pos allOther]
    simp
  have dropped : (group ++ '_' :: rest).dropWhile (· ≠ '_') = '_' :: rest := by
    rw [List.dropWhile_append_of_pos allOther]
    simp
  unfold underscoreField
  rw [taken, dropped]
  cases group with
  | nil => exact absurd rfl nonempty
  | cons first group => rfl

/-- A field that was read is a non-empty run without underscores, and the
text continues after its closing underscore. -/
theorem underscoreField_eq_some {text group rest : Str}
    (success : underscoreField text = some (group, rest)) :
    group ≠ [] ∧ '_' ∉ group ∧ text = group ++ '_' :: rest := by
  have joined := List.takeWhile_append_dropWhile (p := fun symbol => symbol ≠ '_') (l := text)
  unfold underscoreField at success
  split at success
  · simp at success
  · simp at success
  · rename_i first run separator tail taken dropped
    simp only [Option.some.injEq, Prod.mk.injEq] at success
    obtain ⟨rfl, rfl⟩ := success
    have closing : separator = '_' := by
      have head := List.head_dropWhile_not (fun symbol => decide (symbol ≠ '_'))
        (l := text) (by rw [dropped]; exact List.cons_ne_nil _ _)
      simp only [dropped, List.head_cons] at head
      simpa using head
    have clean : '_' ∉ first :: run := by
      intro member
      rw [← taken] at member
      simpa using List.mem_takeWhile_imp member
    refine ⟨by simp, clean, ?_⟩
    rw [taken, dropped, closing] at joined
    exact joined.symm

/-! ## Edit names -/

theorem editMatch_editJournalName (fileId suffix : Str) :
    editMatch (editJournalName fileId suffix) =
      (underscoreField (fileId ++ '_' :: suffix)).map Prod.fst := by
  have stripped : editPrefix.isPrefixOf? (editJournalName fileId suffix) =
      some (fileId ++ '_' :: suffix) := by
    rw [editJournalName, List.append_assoc]
    exact isPrefixOf?_append _ _
  simp only [editMatch, stripped, Option.bind_eq_bind, Option.bind_some]
  cases underscoreField (fileId ++ '_' :: suffix) <;> rfl

theorem createMatch_editJournalName (fileId suffix : Str) :
    createMatch (editJournalName fileId suffix) = none := by
  rfl

theorem editMatch_createJournalName (parentId name suffix : Str) :
    editMatch (createJournalName parentId name suffix) = none := by
  rfl

theorem takeWhile_append_underscore (text rest : Str) :
    (text ++ '_' :: rest).takeWhile (· ≠ '_') = text.takeWhile (· ≠ '_') := by
  induction text with
  | nil => simp
  | cons symbol text induction =>
      by_cases isUnderscore : symbol = '_'
      · simp [isUnderscore]
      · simpa [List.takeWhile_cons, isUnderscore] using induction

/-- Whatever id an edit name is read as, it is the id of the name up to its
first underscore. -/
theorem eq_takeWhile_of_recoverJournalEntry {fileId suffix found : Str}
    (recovered : recoverJournalEntry (editJournalName fileId suffix) = .edit found) :
    found ≠ [] ∧ '_' ∉ found ∧ found = fileId.takeWhile (· ≠ '_') := by
  have matched : editMatch (editJournalName fileId suffix) = some found := by
    unfold recoverJournalEntry at recovered
    cases isMatch : editMatch (editJournalName fileId suffix) with
    | some group =>
        simp only [isMatch, JournalEntry.edit.injEq] at recovered
        rw [recovered]
    | none => simp [isMatch, createMatch_editJournalName] at recovered
  rw [editMatch_editJournalName, Option.map_eq_some_iff] at matched
  obtain ⟨⟨group, rest⟩, field, rfl⟩ := matched
  obtain ⟨nonempty, clean, joined⟩ := underscoreField_eq_some field
  refine ⟨nonempty, clean, ?_⟩
  have allOther : group.takeWhile (· ≠ '_') = group := by
    rw [List.takeWhile_eq_self_iff]
    intro symbol member
    simpa using fun same : symbol = '_' => clean (same ▸ member)
  rw [← takeWhile_append_underscore fileId suffix, joined, takeWhile_append_underscore]
  exact allOther.symm

theorem recoverJournalEntry_editJournalName_iff (fileId suffix : Str) :
    recoverJournalEntry (editJournalName fileId suffix) = .edit fileId ↔
      fileId ≠ [] ∧ '_' ∉ fileId := by
  constructor
  · intro recovered
    obtain ⟨nonempty, clean, -⟩ := eq_takeWhile_of_recoverJournalEntry recovered
    exact ⟨nonempty, clean⟩
  · rintro ⟨nonempty, noUnderscore⟩
    have matched : editMatch (editJournalName fileId suffix) = some fileId := by
      rw [editMatch_editJournalName, underscoreField_append nonempty noUnderscore]
      rfl
    simp [recoverJournalEntry, matched]

theorem recoverJournalEntry_editJournalName_ne_create
    (fileId suffix parentId name : Str) :
    recoverJournalEntry (editJournalName fileId suffix) ≠ .create parentId name := by
  unfold recoverJournalEntry
  cases editMatch (editJournalName fileId suffix) with
  | some group => simp
  | none => simp [createMatch_editJournalName]

/-! ## Create names -/

theorem createMatch_createJournalName (parentId name suffix : Str) :
    createMatch (createJournalName parentId name suffix) =
      (underscoreField (parentId ++ '_' :: safeName name ++ '_' :: suffix)).bind
        fun (group, text) => (underscoreField text).map fun field => (group, field.1) := by
  have stripped : createPrefix.isPrefixOf? (createJournalName parentId name suffix) =
      some (parentId ++ '_' :: safeName name ++ '_' :: suffix) := by
    have regrouped : createJournalName parentId name suffix =
        createPrefix ++ (parentId ++ '_' :: safeName name ++ '_' :: suffix) := by
      simp [createJournalName]
    rw [regrouped]
    exact isPrefixOf?_append _ _
  simp only [createMatch, stripped, Option.bind_eq_bind, Option.bind_some]
  cases underscoreField (parentId ++ '_' :: safeName name ++ '_' :: suffix) with
  | none => rfl
  | some field =>
      obtain ⟨group, text⟩ := field
      simp only [Option.bind_some]
      cases underscoreField text <;> rfl

theorem safeName_eq_nil_iff (name : Str) : safeName name = [] ↔ name = [] := by
  constructor
  · intro empty
    have roundTrip := Base64.decode_encode (utf8Encode name)
    have decoded : utf8Encode name = [] := by
      change Base64.encode (utf8Encode name) = [] at empty
      rw [empty] at roundTrip
      simpa [Base64.decode, Base64.decodeFrom, eq_comm] using roundTrip
    have whole : utf8Decode [] = some name := decoded ▸ utf8Decode_utf8Encode name
    have none : utf8Decode [] = some [] := utf8Decode_utf8Encode []
    simpa [none, eq_comm] using whole
  · rintro rfl
    rfl

/-- Decoding the whole base64 field of a name gives the name back. -/
theorem decode_safeName (name : Str) :
    (Base64.decode (safeName name)).bind utf8Decode = some name := by
  simp [safeName, Base64.decode_encode, utf8Decode_utf8Encode]

/-- Both fields must be free of underscores: a cut parent id is another id,
and a cut base64 text never decodes to the name it was cut from. -/
theorem recoverJournalEntry_createJournalName_iff (parentId name suffix : Str) :
    recoverJournalEntry (createJournalName parentId name suffix) = .create parentId name ↔
      (parentId ≠ [] ∧ '_' ∉ parentId) ∧ name ≠ [] ∧ '_' ∉ safeName name := by
  constructor
  · intro recovered
    unfold recoverJournalEntry at recovered
    rw [editMatch_createJournalName] at recovered
    cases matched : createMatch (createJournalName parentId name suffix) with
    | none => simp [matched] at recovered
    | some fields =>
        obtain ⟨group, safe⟩ := fields
        simp only [matched] at recovered
        cases decoded : (Base64.decode safe).bind utf8Decode with
        | none => simp [decoded] at recovered
        | some text =>
            simp only [decoded, JournalEntry.create.injEq] at recovered
            obtain ⟨rfl, rfl⟩ := recovered
            rw [createMatch_createJournalName, Option.bind_eq_some_iff] at matched
            obtain ⟨⟨first, middle⟩, firstField, matched⟩ := matched
            simp only [Option.map_eq_some_iff, Prod.mk.injEq] at matched
            obtain ⟨⟨second, rest⟩, secondField, rfl, rfl⟩ := matched
            obtain ⟨firstNonempty, firstClean, firstText⟩ :=
              underscoreField_eq_some firstField
            obtain ⟨secondNonempty, secondClean, secondText⟩ :=
              underscoreField_eq_some secondField
            have middleText : middle = safeName text ++ '_' :: suffix := by
              rw [List.append_assoc] at firstText
              simpa using firstText.symm
            refine ⟨⟨firstNonempty, firstClean⟩, ?_, ?_⟩
            · rintro rfl
              rw [middleText, show safeName [] = [] from rfl] at secondText
              cases second with
              | nil => exact secondNonempty rfl
              | cons symbol second =>
                  simp only [List.nil_append, List.cons_append, List.cons.injEq] at secondText
                  exact secondClean (secondText.1 ▸ List.mem_cons_self)
            · intro underscore
              obtain ⟨cut, tail, split, cutClean⟩ := List.eq_append_cons_of_mem underscore
              rw [middleText, split, List.append_assoc, List.cons_append] at secondField
              have secondIsCut : second = cut := by
                cases cut with
                | nil => simp [underscoreField] at secondField
                | cons symbol cut =>
                    rw [underscoreField_append (by simp) cutClean] at secondField
                    simp_all
              obtain ⟨bytes, bytesDecoded, textDecoded⟩ := Option.bind_eq_some_iff.mp decoded
              rw [eq_utf8Encode_of_utf8Decode textDecoded, secondIsCut] at bytesDecoded
              exact Base64.decode_of_cut split bytesDecoded
  · rintro ⟨⟨parentNonempty, parentClean⟩, nameNonempty, safeClean⟩
    have safeNonempty : safeName name ≠ [] := by
      simpa [safeName_eq_nil_iff] using nameNonempty
    have matched : createMatch (createJournalName parentId name suffix) =
        some (parentId, safeName name) := by
      rw [createMatch_createJournalName, List.append_assoc, List.cons_append,
        underscoreField_append parentNonempty parentClean]
      simp [underscoreField_append safeNonempty safeClean]
    simp [recoverJournalEntry, editMatch_createJournalName, matched, decode_safeName]

theorem recoverJournalEntry_createJournalName_ne_edit
    (parentId name suffix fileId : Str) :
    recoverJournalEntry (createJournalName parentId name suffix) ≠ .edit fileId := by
  unfold recoverJournalEntry
  rw [editMatch_createJournalName]
  cases createMatch (createJournalName parentId name suffix) with
  | none => simp
  | some fields =>
      simp only
      cases (Base64.decode fields.2).bind utf8Decode <;> simp

/-! ## The round trip -/

/-- The alphabet `[A-Za-z0-9_-]` of Drive's own identifiers. -/
def DriveId (fileId : Str) : Prop :=
  fileId ≠ [] ∧ ∀ symbol ∈ fileId, symbol.isAlphanum ∨ symbol = '-' ∨ symbol = '_'

/-- The identifiers `create` invents until Drive has answered. -/
def PlaceholderId (fileId : Str) : Prop :=
  ∃ uuid, fileId = ['l', 'o', 'c', 'a', 'l', '_'] ++ uuid

/-- The alphabet `[a-z0-9_]` of `mkstemp` suffixes. -/
def MkstempSuffix (suffix : Str) : Prop :=
  ∀ symbol ∈ suffix, symbol.isLower ∨ symbol.isDigit ∨ symbol = '_'

/-- Edit and create names come back exactly when no field contains the
separator, and neither kind is ever taken for the other. -/
theorem recoverJournalEntry_roundTrip_iff
    (fileId parentId name suffix : Str) :
    (recoverJournalEntry (editJournalName fileId suffix) = .edit fileId ↔
      fileId ≠ [] ∧ '_' ∉ fileId) ∧
    (recoverJournalEntry (createJournalName parentId name suffix) =
        .create parentId name ↔
      (parentId ≠ [] ∧ '_' ∉ parentId) ∧ name ≠ [] ∧ '_' ∉ safeName name) ∧
    (∀ otherParent otherName,
      recoverJournalEntry (editJournalName fileId suffix) ≠
        .create otherParent otherName) ∧
    (∀ otherId,
      recoverJournalEntry (createJournalName parentId name suffix) ≠
        .edit otherId) :=
  ⟨recoverJournalEntry_editJournalName_iff fileId suffix,
    recoverJournalEntry_createJournalName_iff parentId name suffix,
    recoverJournalEntry_editJournalName_ne_create fileId suffix,
    recoverJournalEntry_createJournalName_ne_edit parentId name suffix⟩

/-- An edit of the Drive file `1_A` is recovered as an edit of `1`. -/
theorem recoverJournalEntry_roundTrip_fails :
    ¬ ∀ fileId suffix, DriveId fileId ∨ PlaceholderId fileId → MkstempSuffix suffix →
      recoverJournalEntry (editJournalName fileId suffix) = .edit fileId := by
  intro roundTrip
  have recovered := roundTrip ['1', '_', 'A'] ['x']
    (Or.inl ⟨by decide, by simp⟩) (by simp [MkstempSuffix])
  exact absurd recovered (by decide)

end FuseDrive
