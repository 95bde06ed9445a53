import Mathlib.Logic.Function.Basic
import OpenTulpa.Context.FileSummaries
import OpenTulpa.Library.Rows

/-! The vault of uploaded files: their contents under one root directory, in a folder for each customer, and a table of
their records. A file is found by its customer and its id and read only from below the root. -/

namespace OpenTulpa.Context.FileVault

open Library Library.Text Library.Spaces FileSummaries

abbrev Path := List (List Char)

abbrev Bytes := List UInt8

section Names

def isFileChar (c : Char) : Bool := c.isAlphanum || c == '.' || c == '_' || c == '-'

/-- `_safe_filename` -/
def safeFilename (name : List Char) : List Char :=
  let raw := stripChars name
  if raw.isEmpty then "file.bin".toList
  else
    let safe := trimChars (fun c => c == '.' || c == '_') (replaceRuns isFileChar '_' raw)
    (if safe.isEmpty then "file.bin".toList else safe).take 180

/-- An id that `new_short_id("file")` gives. -/
structure FileId where
  tail : List Char
  size : tail.length = 6
  letters : ∀ c ∈ tail, c.isDigit = true ∨ c.isLower = true
  deriving DecidableEq

def FileId.text (id : FileId) : List Char := "file_".toList ++ id.tail

/-- A moment as `%Y%m%dT%H%M%SZ`. -/
structure Stamp where
  text : List Char
  size : text.length = 16

def storedName (stamp : Stamp) (id : FileId) (safeName : List Char) : List Char :=
  stamp.text ++ '_' :: id.text ++ '_' :: safeName

/-- One more component of a path that is resolved. -/
def enter (path : Path) (name : List Char) : Path :=
  if name = ['.'] then path else if name = ['.', '.'] then path.dropLast else path ++ [name]

/-- `Path.resolve` on a tree without links. -/
def resolve (path : Path) : Path := path.foldl enter []

/-- The name of the folder of a customer. -/
def folderName (customerId : List Char) : List Char := replaceRuns isFileChar '_' customerId

theorem text_injective {first second : FileId} (same : first.text = second.text) : first = second := by
  cases first
  cases second
  congr
  exact List.append_cancel_left same

theorem stripChars_text (id : FileId) : stripChars id.text = id.text := by
  refine trimChars_of_visible fun c member => ?_
  rcases List.mem_append.mp member with named | own
  · have all : ∀ c ∈ "file_".toList, isSpace c = false := by decide
    exact all c named
  · rcases id.letters c own with digit | lower
    · exact isSpace_of_isDigit digit
    · obtain ⟨low, high⟩ := Characters.isLower_iff.mp lower
      simp only [isSpace, Bool.or_eq_false_iff, Bool.and_eq_false_iff, decide_eq_false_iff_not, beq_eq_false_iff_ne]
      omega

/-- Files with different ids have different names. -/
theorem storedName_injective {stamp other : Stamp} {id otherId : FileId} {name otherName : List Char}
    (same : storedName stamp id name = storedName other otherId otherName) : id = otherId := by
  have lengths : stamp.text.length = other.text.length := by rw [stamp.size, other.size]
  rw [storedName, storedName, List.append_assoc, List.append_assoc] at same
  obtain ⟨_, later⟩ := List.append_inj same lengths
  have equal : id.text.length = otherId.text.length := by
    rw [FileId.text, FileId.text, List.length_append, List.length_append, id.size, otherId.size]
  exact text_injective (List.append_inj (List.cons.inj later).2 equal).1

/-- The name of a stored file is an ordinary component. -/
theorem enter_storedName (path : Path) (stamp : Stamp) (id : FileId) (name : List Char) :
    enter path (storedName stamp id name) = path ++ [storedName stamp id name] := by
  have long : 16 ≤ (storedName stamp id name).length := by
    rw [storedName, List.length_append, List.length_append, stamp.size]
    omega
  rw [enter, if_neg, if_neg]
  · intro same
    rw [same] at long
    exact absurd long (by decide)
  · intro same
    rw [same] at long
    exact absurd long (by decide)

end Names

section Model

/-- What is found out about the contents of a file: its type and a preview of its text. -/
structure Contents where
  mimeType : List Char → Option (List Char) → Bytes → Option (List Char)
  preview : Bytes → List Char → Option (List Char) → List Char

structure Row where
  id : FileId
  customerId : List Char
  storedPath : Path
  file : FileRecord
  sizeBytes : Nat
  summary : List Char

/-- The files under the root and elsewhere, and the table. -/
structure Vault where
  files : Path → Option Bytes
  rows : List Row

def Vault.empty : Vault := ⟨fun _ => none, []⟩

/-- A resolved directory. -/
abbrev Root := {path : Path // ∀ name ∈ path, name ≠ ['.'] ∧ name ≠ ['.', '.']}

structure Upload where
  customerId : List Char
  kind : List Char
  originalFilename : Option (List Char)
  mimeType : Option (List Char)
  caption : Option (List Char)
  rawBytes : Bytes

inductive Call where
  | ingestFile (id : FileId) (stamp : Stamp) (upload : Upload)
  | setAiSummary (customerId fileId aiSummary : List Char)
  | deleteFile (customerId fileId : List Char)

variable (contents : Contents) (root : Root)

def resolvedKind (kind : List Char) (mimeType : Option (List Char)) : List Char :=
  let named := if (stripChars kind).isEmpty then "file".toList else stripChars kind
  if (named = "document".toList ∨ named = "file".toList) ∧ "image/".toList.isPrefixOf (mimeType.getD []) then "image".toList
  else named

/-- What is recorded about an upload. -/
def recorded (upload : Upload) : FileRecord :=
  let original := upload.originalFilename.getD []
  let name := safeFilename (if original.isEmpty then upload.kind ++ ".bin".toList else original)
  let mimeType := contents.mimeType name upload.mimeType upload.rawBytes
  ⟨resolvedKind upload.kind mimeType, name, mimeType, upload.caption, contents.preview upload.rawBytes name mimeType⟩

/-- Where the contents of an upload are put. -/
def storedPath (id : FileId) (stamp : Stamp) (upload : Upload) : Path :=
  resolve (root.1 ++ [folderName (stripChars upload.customerId), storedName stamp id (recorded contents upload).filename])

def newRow (id : FileId) (stamp : Stamp) (upload : Upload) : Row where
  id := id
  customerId := stripChars upload.customerId
  storedPath := storedPath contents root id stamp upload
  file := { recorded contents upload with caption := upload.caption.map stripChars }
  sizeBytes := upload.rawBytes.length
  summary := buildSummary (recorded contents upload)

/-- `ingest_file`; an id that is taken is refused by the table. -/
def ingestFile (vault : Vault) (id : FileId) (stamp : Stamp) (upload : Upload) : Vault :=
  if (stripChars upload.customerId).isEmpty then vault
  else
    { files := Function.update vault.files (storedPath contents root id stamp upload) (some upload.rawBytes)
      rows := if vault.rows.any (·.id = id) then vault.rows else vault.rows ++ [newRow contents root id stamp upload] }

/-- The rows that a customer and an id name, as they are given. -/
def Row.named (row : Row) (customerId fileId : List Char) : Bool :=
  !(stripChars customerId).isEmpty && row.customerId = stripChars customerId && row.id.text = stripChars fileId

/-- `get_file` -/
def getFile (vault : Vault) (customerId fileId : List Char) : Option Row :=
  vault.rows.find? (·.named customerId fileId)

/-- `stored_path.relative_to(self.root_dir)` succeeds. -/
def contained (path : Path) : Bool := root.1.isPrefixOf (resolve path)

/-- `read_file_bytes` -/
def readFileBytes (vault : Vault) (customerId fileId : List Char) : Option Bytes :=
  (getFile vault customerId fileId).bind fun row =>
    if contained root row.storedPath then vault.files (resolve row.storedPath) else none

/-- `delete_file` -/
def deleteFile (vault : Vault) (customerId fileId : List Char) : Vault :=
  match getFile vault customerId fileId with
  | none => vault
  | some row =>
    if contained root row.storedPath then
      { files := Function.update vault.files (resolve row.storedPath) none
        rows := vault.rows.filter fun other => !other.named customerId fileId }
    else vault

/-- `set_ai_summary` on the table; when the substitution raises, nothing is written. -/
def setSummary (vault : Vault) (customerId fileId aiSummary : List Char) : Vault :=
  match getFile vault customerId fileId with
  | none => vault
  | some row =>
    match setAiSummary row.summary aiSummary with
    | none => vault
    | some summary =>
      { vault with rows := vault.rows.map fun other =>
          if other.named customerId fileId then { other with summary := summary } else other }

def step (vault : Vault) : Call → Vault
  | .ingestFile id stamp upload => ingestFile contents root vault id stamp upload
  | .setAiSummary customerId fileId aiSummary => setSummary vault customerId fileId aiSummary
  | .deleteFile customerId fileId => deleteFile root vault customerId fileId

def run (calls : List Call) : Vault := calls.foldl (step contents root) Vault.empty

end Model

section Shelf

/-- What a vault is for: the contents that each customer has put under an id and not taken away. -/
abbrev Shelf := List Char → List Char → Option Bytes

def Shelf.after (shelf : Shelf) : Call → Shelf
  | .ingestFile id _ upload =>
    if (stripChars upload.customerId).isEmpty then shelf
    else Function.update shelf (stripChars upload.customerId)
      (Function.update (shelf (stripChars upload.customerId)) id.text (some upload.rawBytes))
  | .setAiSummary _ _ _ => shelf
  | .deleteFile customerId fileId =>
    Function.update shelf (stripChars customerId) (Function.update (shelf (stripChars customerId)) (stripChars fileId) none)

def shelfOf (calls : List Call) : Shelf := calls.foldl Shelf.after fun _ _ => none

end Shelf

section Places

variable {contents : Contents} {root : Root}

/-- The uploads of the customer `..` would be put beside the root. -/
def Below (root : Root) : Call → Prop
  | .ingestFile _ _ upload => stripChars upload.customerId = ['.', '.'] → root.1 = []
  | _ => True

theorem resolve_concat (path : Path) (name : List Char) : resolve (path ++ [name]) = enter (resolve path) name := by
  rw [resolve, List.foldl_append]
  rfl

theorem resolve_ordinary {path : Path} (ordinary : ∀ name ∈ path, name ≠ ['.'] ∧ name ≠ ['.', '.']) : resolve path = path := by
  induction path using List.reverseRecOn with
  | nil => rfl
  | append_singleton path name ih =>
    have own := ordinary name (by simp)
    rw [resolve_concat, ih fun other member => ordinary other (by simp [member]), enter, if_neg own.1, if_neg own.2]

/-- The folder of a customer is the root or lies in it. -/
theorem enter_folder (root : Root) {customerId : List Char} (below : customerId = ['.', '.'] → root.1 = []) :
    root.1 <+: enter root.1 (folderName customerId) ∧
      ∀ name ∈ enter root.1 (folderName customerId), name ≠ ['.'] ∧ name ≠ ['.', '.'] := by
  rw [enter]
  split
  · exact ⟨List.prefix_rfl, root.2⟩
  · rename_i first
    split
    · rename_i second
      have unmarked : '_' ∉ folderName customerId := by
        rw [second]
        decide
      have same : folderName customerId = customerId := replaceRuns_of_not_mem unmarked
      rw [below (same ▸ second)]
      exact ⟨List.prefix_rfl, nofun⟩
    · rename_i second
      refine ⟨List.prefix_append _ _, fun name member => ?_⟩
      rcases List.mem_append.mp member with inside | last
      · exact root.2 name inside
      · rw [List.mem_singleton.mp last]
        exact ⟨first, second⟩

/-- A stored path: a folder below the root and the name of the file. -/
structure Placed (root : Root) (id : FileId) (path : Path) : Prop where
  below : root.1 <+: path
  resolved : resolve path = path
  last : ∃ folder stamp name, path = folder ++ [storedName stamp id name]

theorem placed_storedPath {id : FileId} {stamp : Stamp} {upload : Upload}
    (below : stripChars upload.customerId = ['.', '.'] → root.1 = []) :
    Placed root id (storedPath contents root id stamp upload) := by
  obtain ⟨inside, ordinary⟩ := enter_folder root below
  have shape : storedPath contents root id stamp upload = enter root.1 (folderName (stripChars upload.customerId)) ++
      [storedName stamp id (recorded contents upload).filename] := by
    have split : root.1 ++ [folderName (stripChars upload.customerId), storedName stamp id (recorded contents upload).filename] =
        root.1 ++ [folderName (stripChars upload.customerId)] ++ [storedName stamp id (recorded contents upload).filename] := by simp
    rw [storedPath, split, resolve_concat, resolve_concat, resolve_ordinary root.2, enter_storedName]
  rw [shape]
  refine ⟨inside.trans (List.prefix_append _ _), ?_, _, _, _, rfl⟩
  rw [resolve_concat, resolve_ordinary ordinary, enter_storedName]

theorem Placed.injective {first second : FileId} {path : Path} (one : Placed root first path) (other : Placed root second path) :
    first = second := by
  obtain ⟨folder, stamp, name, same⟩ := one.last
  obtain ⟨folder', stamp', name', same'⟩ := other.last
  rw [same] at same'
  exact storedName_injective (List.append_inj_right' same' rfl |> List.singleton_inj.mp)

theorem Placed.contained {id : FileId} {path : Path} (placed : Placed root id path) : contained root path = true := by
  rw [FileVault.contained, placed.resolved]
  exact List.isPrefixOf_iff_prefix.mpr placed.below

end Places

section Refinement

variable {contents : Contents} {root : Root} {vault : Vault} {shelf : Shelf}

/-- The vault holds what is on the shelf. -/
structure Faithful (root : Root) (vault : Vault) (shelf : Shelf) : Prop where
  distinct : (vault.rows.map Row.id).Nodup
  owned : ∀ row ∈ vault.rows, row.customerId ≠ []
  placed : ∀ row ∈ vault.rows, Placed root row.id row.storedPath
  held : ∀ row ∈ vault.rows, vault.files row.storedPath = shelf row.customerId row.id.text
  complete : ∀ owner id, shelf owner id ≠ none → ∃ row ∈ vault.rows, row.customerId = owner ∧ row.id.text = id

theorem named_iff {row : Row} {customerId fileId : List Char} (owned : row.customerId ≠ []) :
    row.named customerId fileId = true ↔ row.customerId = stripChars customerId ∧ row.id.text = stripChars fileId := by
  simp only [Row.named, Bool.and_eq_true, Bool.not_eq_true', List.isEmpty_eq_false_iff, decide_eq_true_eq, and_assoc]
  refine ⟨fun ⟨_, same⟩ => same, fun same => ⟨?_, same⟩⟩
  rw [← same.1]
  exact owned

theorem getFile_some {customerId fileId : List Char} {row : Row} (found : getFile vault customerId fileId = some row) :
    row ∈ vault.rows ∧ row.named customerId fileId = true :=
  ⟨List.mem_of_find?_eq_some found, List.find?_some (p := fun row : Row => row.named customerId fileId) found⟩

theorem Faithful.unread (faithful : Faithful root vault shelf) {customerId fileId : List Char}
    (missing : getFile vault customerId fileId = none) : shelf (stripChars customerId) (stripChars fileId) = none := by
  by_contra held
  obtain ⟨row, member, owner, id⟩ := faithful.complete _ _ held
  have named := List.find?_eq_none.mp missing row member
  exact named ((named_iff (faithful.owned row member)).mpr ⟨owner, id⟩)

theorem Faithful.read (faithful : Faithful root vault shelf) (customerId fileId : List Char) :
    readFileBytes root vault customerId fileId = shelf (stripChars customerId) (stripChars fileId) := by
  cases found : getFile vault customerId fileId with
  | none => rw [readFileBytes, found, faithful.unread found, Option.bind_none]
  | some row =>
    obtain ⟨member, chosen⟩ := getFile_some found
    have named := (named_iff (faithful.owned row member)).mp chosen
    have placed := faithful.placed row member
    rw [readFileBytes, found, Option.bind_some, if_pos placed.contained, placed.resolved, faithful.held row member,
      named.1, named.2]

theorem faithful_ingestFile (faithful : Faithful root vault shelf) {id : FileId} {stamp : Stamp} {upload : Upload}
    (fresh : ∀ row ∈ vault.rows, row.id ≠ id) (below : Below root (.ingestFile id stamp upload)) :
    Faithful root (ingestFile contents root vault id stamp upload) (shelf.after (.ingestFile id stamp upload)) := by
  rw [ingestFile, Shelf.after]
  by_cases blank : (stripChars upload.customerId).isEmpty = true
  · rw [if_pos blank, if_pos blank]
    exact faithful
  have free : vault.rows.any (·.id = id) = false := by simpa using fresh
  have place : Placed root id (storedPath contents root id stamp upload) := placed_storedPath below
  have apart : ∀ row ∈ vault.rows, row.storedPath ≠ storedPath contents root id stamp upload := fun row member same =>
    fresh row member ((same ▸ faithful.placed row member).injective place)
  rw [if_neg blank, if_neg blank, free, if_neg Bool.false_ne_true]
  refine ⟨?_, ?_, ?_, ?_, ?_⟩
  · rw [List.map_append, List.nodup_append]
    refine ⟨faithful.distinct, List.nodup_singleton _, fun first member second last same => ?_⟩
    obtain ⟨row, listed, rfl⟩ := List.mem_map.mp member
    exact fresh row listed (same.trans (List.mem_singleton.mp last))
  · intro row member
    rcases List.mem_append.mp member with before | last
    · exact faithful.owned row before
    · rw [List.mem_singleton.mp last]
      simpa [newRow] using blank
  · intro row member
    rcases List.mem_append.mp member with before | last
    · exact faithful.placed row before
    · rw [List.mem_singleton.mp last]
      exact place
  · intro row member
    change Function.update vault.files _ _ row.storedPath = _
    rcases List.mem_append.mp member with before | last
    · have kept : row.id.text ≠ id.text := fun same => fresh row before (text_injective same)
      rw [Function.update_of_ne (apart row before), faithful.held row before]
      by_cases own : row.customerId = stripChars upload.customerId
      · rw [own, Function.update_self, Function.update_of_ne kept]
      · rw [Function.update_of_ne own]
    · rw [List.mem_singleton.mp last, newRow, Function.update_self, Function.update_self, Function.update_self]
  · intro owner key held
    by_cases own : owner = stripChars upload.customerId ∧ key = id.text
    · exact ⟨_, List.mem_append_right _ (List.mem_singleton.mpr rfl), own.1.symm, own.2.symm⟩
    · have before : shelf owner key ≠ none := by
        by_cases same : owner = stripChars upload.customerId
        · have other : key ≠ id.text := fun equal => own ⟨same, equal⟩
          rw [same, Function.update_self, Function.update_of_ne other] at held
          rwa [same]
        · rwa [Function.update_of_ne same] at held
      obtain ⟨row, member, found⟩ := faithful.complete owner key before
      exact ⟨row, List.mem_append_left _ member, found⟩

theorem faithful_setSummary (faithful : Faithful root vault shelf) (customerId fileId aiSummary : List Char) :
    Faithful root (setSummary vault customerId fileId aiSummary) shelf := by
  rw [setSummary]
  split
  · exact faithful
  · split
    · exact faithful
    · rename_i summary _
      have same (row : Row) : ∃ own, (if row.named customerId fileId then { row with summary := summary } else row) =
          { row with summary := own } := by
        split
        · exact ⟨summary, rfl⟩
        · exact ⟨row.summary, rfl⟩
      refine ⟨?_, ?_, ?_, ?_, ?_⟩
      · have ids : (fun row : Row => (if row.named customerId fileId then { row with summary := summary } else row).id) = Row.id := by
          funext row
          obtain ⟨own, shape⟩ := same row
          rw [shape]
        rw [List.map_map, Function.comp_def, ids]
        exact faithful.distinct
      · intro row member
        obtain ⟨before, listed, rfl⟩ := List.mem_map.mp member
        obtain ⟨own, shape⟩ := same before
        rw [shape]
        exact faithful.owned before listed
      · intro row member
        obtain ⟨before, listed, rfl⟩ := List.mem_map.mp member
        obtain ⟨own, shape⟩ := same before
        rw [shape]
        exact faithful.placed before listed
      · intro row member
        obtain ⟨before, listed, rfl⟩ := List.mem_map.mp member
        obtain ⟨own, shape⟩ := same before
        rw [shape]
        exact faithful.held before listed
      · intro owner key held
        obtain ⟨row, listed, found⟩ := faithful.complete owner key held
        obtain ⟨own, shape⟩ := same row
        refine ⟨_, List.mem_map_of_mem listed, ?_⟩
        rw [shape]
        exact found

theorem faithful_deleteFile (faithful : Faithful root vault shelf) (customerId fileId : List Char) :
    Faithful root (deleteFile root vault customerId fileId) (shelf.after (.deleteFile customerId fileId)) := by
  have elsewhere (owner key : List Char) (other : ¬ (owner = stripChars customerId ∧ key = stripChars fileId)) :
      shelf.after (.deleteFile customerId fileId) owner key = shelf owner key := by
    rw [Shelf.after]
    by_cases same : owner = stripChars customerId
    · have apart : key ≠ stripChars fileId := fun equal => other ⟨same, equal⟩
      rw [same, Function.update_self, Function.update_of_ne apart]
    · rw [Function.update_of_ne same]
  have taken : shelf.after (.deleteFile customerId fileId) (stripChars customerId) (stripChars fileId) = none := by
    rw [Shelf.after, Function.update_self, Function.update_self]
  have left (owner key : List Char) (held : shelf.after (.deleteFile customerId fileId) owner key ≠ none) :
      ¬ (owner = stripChars customerId ∧ key = stripChars fileId) ∧ shelf owner key ≠ none := by
    have other : ¬ (owner = stripChars customerId ∧ key = stripChars fileId) := by
      rintro ⟨rfl, rfl⟩
      exact held taken
    exact ⟨other, elsewhere owner key other ▸ held⟩
  rw [deleteFile]
  split
  · rename_i missing
    refine ⟨faithful.distinct, faithful.owned, faithful.placed, fun row member => ?_, fun owner key held => ?_⟩
    · have unnamed := List.find?_eq_none.mp missing row member
      rw [elsewhere _ _ fun own => unnamed ((named_iff (faithful.owned row member)).mpr own)]
      exact faithful.held row member
    · exact faithful.complete owner key (left owner key held).2
  · rename_i chosen found
    obtain ⟨among, named⟩ := getFile_some found
    have place := faithful.placed chosen among
    rw [if_pos place.contained, place.resolved]
    refine ⟨?_, ?_, ?_, ?_, ?_⟩
    · exact faithful.distinct.sublist (List.filter_sublist.map _)
    · exact fun row member => faithful.owned row (List.mem_of_mem_filter member)
    · exact fun row member => faithful.placed row (List.mem_of_mem_filter member)
    · intro row member
      obtain ⟨listed, unnamed⟩ := List.mem_filter.mp member
      have other : ¬ (row.customerId = stripChars customerId ∧ row.id.text = stripChars fileId) := fun own => by
        rw [(named_iff (faithful.owned row listed)).mpr own] at unnamed
        cases unnamed
      have apart : row.storedPath ≠ chosen.storedPath := by
        intro same
        have ids := (same ▸ faithful.placed row listed).injective place
        have equal := Rows.eq_of_key_eq faithful.distinct listed among ids
        rw [equal, named] at unnamed
        cases unnamed
      change Function.update vault.files _ _ row.storedPath = _
      rw [Function.update_of_ne apart, elsewhere _ _ other]
      exact faithful.held row listed
    · intro owner key held
      obtain ⟨other, before⟩ := left owner key held
      obtain ⟨row, member, own, id⟩ := faithful.complete owner key before
      refine ⟨row, List.mem_filter.mpr ⟨member, ?_⟩, own, id⟩
      rw [Bool.not_eq_true']
      refine Bool.eq_false_iff.mpr fun named => other ?_
      rw [← own, ← id]
      exact (named_iff (faithful.owned row member)).mp named

end Refinement

section Runs

variable (contents : Contents) (root : Root)

/-- The ids that the uploads of some calls get. -/
def uploadIds (calls : List Call) : List FileId :=
  calls.filterMap fun
    | .ingestFile id _ _ => some id
    | _ => none

theorem faithful_step {vault : Vault} {shelf : Shelf} (faithful : Faithful root vault shelf) {call : Call}
    (fresh : ∀ id ∈ uploadIds [call], ∀ row ∈ vault.rows, row.id ≠ id) (below : Below root call) :
    Faithful root (step contents root vault call) (shelf.after call) := by
  cases call with
  | ingestFile id stamp upload => exact faithful_ingestFile faithful (fresh id (by simp [uploadIds])) below
  | setAiSummary customerId fileId aiSummary => exact faithful_setSummary faithful customerId fileId aiSummary
  | deleteFile customerId fileId => exact faithful_deleteFile faithful customerId fileId

/-- A call adds no id but that of its upload. -/
theorem ids_step (vault : Vault) (call : Call) :
    ∀ row ∈ (step contents root vault call).rows, (∃ before ∈ vault.rows, before.id = row.id) ∨ row.id ∈ uploadIds [call] := by
  intro row member
  cases call with
  | ingestFile id stamp upload =>
    rw [step, ingestFile] at member
    split at member
    · exact Or.inl ⟨row, member, rfl⟩
    · simp only at member
      split at member
      · exact Or.inl ⟨row, member, rfl⟩
      · rcases List.mem_append.mp member with before | last
        · exact Or.inl ⟨row, before, rfl⟩
        · right
          rw [List.mem_singleton.mp last]
          simp [uploadIds, newRow]
  | setAiSummary customerId fileId aiSummary =>
    rw [step, setSummary] at member
    split at member
    · exact Or.inl ⟨row, member, rfl⟩
    · split at member
      · exact Or.inl ⟨row, member, rfl⟩
      · obtain ⟨before, listed, rfl⟩ := List.mem_map.mp member
        refine Or.inl ⟨before, listed, ?_⟩
        split <;> rfl
  | deleteFile customerId fileId =>
    rw [step, deleteFile] at member
    split at member
    · exact Or.inl ⟨row, member, rfl⟩
    · split at member
      · exact Or.inl ⟨row, List.mem_of_mem_filter member, rfl⟩
      · exact Or.inl ⟨row, member, rfl⟩

theorem faithful_run {calls : List Call} (fresh : (uploadIds calls).Nodup) (below : ∀ call ∈ calls, Below root call) :
    Faithful root (run contents root calls) (shelfOf calls) ∧
      ∀ row ∈ (run contents root calls).rows, row.id ∈ uploadIds calls := by
  induction calls using List.reverseRecOn with
  | nil => exact ⟨⟨List.nodup_nil, nofun, nofun, nofun, fun _ _ held => absurd rfl held⟩, nofun⟩
  | append_singleton calls call ih =>
    have ids : uploadIds (calls ++ [call]) = uploadIds calls ++ uploadIds [call] := List.filterMap_append
    rw [ids, List.nodup_append] at fresh
    obtain ⟨before, known⟩ := ih fresh.1 fun other member => below other (List.mem_append_left _ member)
    have now : ∀ id ∈ uploadIds [call], ∀ row ∈ (run contents root calls).rows, row.id ≠ id := fun id member row listed =>
      fresh.2.2 row.id (known row listed) id member
    rw [run, shelfOf, List.foldl_append, List.foldl_append, ids]
    refine ⟨faithful_step contents root before now (below call (by simp)), fun row member => ?_⟩
    rcases ids_step contents root _ call row member with ⟨earlier, listed, same⟩ | added
    · rw [← same]
      exact List.mem_append_left _ (known earlier listed)
    · exact List.mem_append_right _ added

/-- In every run whose uploads have ids of their own and are not made by the customer `..`, the vault returns to each
customer what it has stored and not deleted, to no other, and has stored it below the root. -/
theorem vault_returns_files (calls : List Call) (fresh : (uploadIds calls).Nodup) (below : ∀ call ∈ calls, Below root call) :
    (∀ customerId fileId, readFileBytes root (run contents root calls) customerId fileId =
      shelfOf calls (stripChars customerId) (stripChars fileId)) ∧
    ∀ row ∈ (run contents root calls).rows, root.1 <+: row.storedPath :=
  have faithful := (faithful_run contents root fresh below).1
  ⟨faithful.read, fun row member => (faithful.placed row member).below⟩

def sampleContents : Contents := ⟨fun _ declared _ => declared, fun _ _ _ => []⟩

def sampleRoot : Root := ⟨["data".toList], by decide⟩

/-- One upload of the given customer. -/
def uploadBy (customerId : String) : List Call :=
  [.ingestFile ⟨"abc123".toList, rfl, by decide⟩ ⟨"20250101T000000Z".toList, rfl⟩
    ⟨customerId.toList, "file".toList, some "notes.txt".toList, none, none, [1]⟩]

theorem vault_returns_one_file : (∀ customerId fileId,
      readFileBytes sampleRoot (run sampleContents sampleRoot (uploadBy "ana")) customerId fileId =
        shelfOf (uploadBy "ana") (stripChars customerId) (stripChars fileId)) ∧
    ∀ row ∈ (run sampleContents sampleRoot (uploadBy "ana")).rows, sampleRoot.1 <+: row.storedPath :=
  vault_returns_files sampleContents sampleRoot (uploadBy "ana") (by decide) (by
    intro call member
    obtain rfl := List.mem_singleton.mp member
    exact fun named => absurd named (by decide))

/-- The file of the customer `..` lies beside the root and is not read again. -/
theorem dots_file_lost : shelfOf (uploadBy "..") "..".toList "file_abc123".toList = some [1] ∧
    readFileBytes sampleRoot (run sampleContents sampleRoot (uploadBy "..")) "..".toList "file_abc123".toList = none ∧
    ∃ row ∈ (run sampleContents sampleRoot (uploadBy "..")).rows, ¬ sampleRoot.1 <+: row.storedPath := by
  decide +kernel

end Runs

end OpenTulpa.Context.FileVault
