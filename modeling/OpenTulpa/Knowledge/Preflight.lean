import Mathlib.Data.List.Sort
import Mathlib.Data.String.Basic
import OpenTulpa.Library.Caching
import OpenTulpa.Library.Json
import OpenTulpa.Library.Run
import OpenTulpa.Library.Spaces

/-! The preflight of a workflow's knowledge sources and its cache. The key of the cache holds the versions of the sources,
the goal, the model and the output limit, but neither the limit on the source pack nor whether there is an oracle. -/

namespace OpenTulpa.Knowledge.Preflight

open Library Library.Text Library.Spaces Library.Caching

section Data

structure Section where
  content : String
  sourceRef : String
  sourceKind : String
  metadata : String
  sortOrder : Int
  deriving DecidableEq

/-- What the extraction makes of a file. -/
structure Extraction where
  sections : List Section
  warnings : List String
  sourceKind : String
  deriving DecidableEq

/-- A file of the vault, with all that does not change about it. -/
structure VaultFile where
  filename : String
  mimeType : String
  rawBytes : List UInt8
  textExcerpt : String

inductive ScopeType where
  | workflowSetup
  | intakeWorkflow
  | customerBusiness
  | userContext
  deriving DecidableEq

structure Scope where
  scopeType : ScopeType
  scopeId : String
  deriving DecidableEq

structure Intent where
  mode : String
  targetTerms : List String
  qualifierTerms : List String
  ignoreTerms : List String
  deriving DecidableEq

/-- A section as it is loaded, with the file that it is from. -/
structure LoadedSection where
  fileId : String
  filename : String
  stored : Section
  deriving DecidableEq

/-- A row of the sources, with the sections that are written with it. -/
structure SourceRow (κ : Type) where
  fileId : String
  sourceHash : κ
  filename : String
  mimeType : String
  status : String
  sourceKind : String
  warnings : List String
  sections : List Section
  sectionCount : Nat
  charCount : Nat
  indexedAt : String
  deriving DecidableEq

structure Service where
  hasOracle : Bool
  oracleModel : String
  maxSourcePackChars : Nat
  maxOutputTokens : Nat
  deriving DecidableEq

structure Payload where
  ok : Bool
  status : String
  sourceCount : Nat
  sectionCount : Nat
  answerExtract : String
  warnings : List String
  deriving DecidableEq

/-- A cached result, and the service that stored it, which is no column of the table. -/
structure Entry where
  payload : Payload
  storedBy : Service
  deriving DecidableEq

/-- The files, the extraction, the planner of source packs, an oracle that is a function of its inputs, and digests
without collisions. -/
structure World (κ : Type) where
  vault : String → String → VaultFile
  extract : String → VaultFile → String → Extraction
  casefold : String → String
  extractIntent : String → String → Option Intent
  plan : List LoadedSection → String → Intent → Option String
  answer : String → String → String → Nat → Option String
  digest : List UInt8 → κ
  digest_injective : Function.Injective digest
  hashJson : Json → κ
  hashJson_injective : Function.Injective hashJson
  hexText : κ → Json
  hexText_injective : Function.Injective hexText

/-- The database; the rows of each scope are in the order of their file ids, which is that of the table's key. -/
structure Database (κ : Type) where
  sources : String → Scope → List (SourceRow κ)
  cache : List ((String × κ) × Entry)

def Database.empty (κ : Type) : Database κ := ⟨fun _ _ => [], []⟩

end Data

variable {κ : Type} (world : World κ)

section Indexing

def utf8 (text : String) : List UInt8 := text.toUTF8.data.toList

def orElse (text default : String) : String := if text = "" then default else text

def sourceHash (file : VaultFile) (summary : String) : κ :=
  world.digest (file.rawBytes ++ 0 :: (utf8 summary ++ 0 :: utf8 file.textExcerpt))

/-- The row that indexing writes for a file. -/
def sourceRow (customer fileId summary indexedAt : String) : SourceRow κ :=
  let file := world.vault customer fileId
  let found := world.extract fileId file summary
  { fileId := fileId
    sourceHash := sourceHash world file summary
    filename := orElse (strip (orElse file.filename "file.bin")) "file.bin"
    mimeType := strip file.mimeType
    status := if found.sections.isEmpty then "unsupported" else "indexed"
    sourceKind := found.sourceKind
    warnings := found.warnings
    sections := found.sections
    sectionCount := found.sections.length
    charCount := (found.sections.map fun part => part.content.length).sum
    indexedAt := indexedAt }

/-- The upsert of a row among the rows of its scope. -/
def replaceSource (row : SourceRow κ) : List (SourceRow κ) → List (SourceRow κ)
  | [] => [row]
  | other :: rest =>
    if row.fileId = other.fileId then row :: rest
    else if row.fileId < other.fileId then row :: other :: rest
    else other :: replaceSource row rest

def Database.setSources (db : Database κ) (customer : String) (scope : Scope) (rows : List (SourceRow κ)) : Database κ :=
  { db with sources := fun other held => if other = customer ∧ held = scope then rows else db.sources other held }

def uniqueFrom (seen : List String) : List String → List String
  | [] => []
  | value :: rest =>
    let text := strip value
    if text = "" ∨ world.casefold text ∈ seen then uniqueFrom seen rest else text :: uniqueFrom (world.casefold text :: seen) rest

/-- `_unique_strings` -/
def uniqueStrings (values : List String) : List String := uniqueFrom world [] values

variable [DecidableEq κ]

/-- `index_one_source` with the summary of the file's record; `none` when there is no such file. -/
def indexOneSource (db : Database κ) (customer : String) (scope : Scope) (fileId : String) (record : Option String) (now : String) :
    Option (Database κ) :=
  record.map fun summary =>
    let row := sourceRow world customer fileId summary now
    let rows := db.sources customer scope
    if rows.any fun existing => existing.fileId = fileId ∧ existing.sourceHash = row.sourceHash then db
    else db.setSources customer scope (replaceSource row rows)

/-- The loop of `index_sources`, which a missing file ends. -/
def indexAll (customer : String) (scope : Scope) (records : String → Option String) (times : String → String) :
    Database κ → List String → Database κ
  | db, [] => db
  | db, fileId :: rest =>
    match indexOneSource world db customer scope fileId (records fileId) (times fileId) with
    | none => db
    | some next => indexAll customer scope records times next rest

end Indexing

section Querying

/-- `source_rows` -/
def sourceRows (rows : List (SourceRow κ)) : List (SourceRow κ) :=
  rows.insertionSort fun first second => first.filename ≤ second.filename

/-- `load_sections` -/
def loadSections (rows : List (SourceRow κ)) : List LoadedSection :=
  rows.flatMap fun row => (row.sections.insertionSort fun first second =>
    first.sortOrder < second.sortOrder ∨ (first.sortOrder = second.sortOrder ∧ first.sourceRef ≤ second.sourceRef)).map
      fun part => ⟨row.fileId, row.filename, part⟩

/-- `scope_warnings` -/
def scopeWarnings (rows : List (SourceRow κ)) : List String :=
  uniqueStrings world ((sourceRows rows).flatMap fun row => (row.warnings.map strip).filter (· ≠ "") ++
    if row.status ≠ "indexed" then [row.filename ++ ": " ++ row.status] else [])

/-- `_query_intent` -/
def queryIntent (service : Service) (query : String) : Intent :=
  let default : Intent := ⟨"specific_fact", [strip query], [], []⟩
  if service.hasOracle then (world.extractIntent service.oracleModel query).getD default else default

def sourcePack (service : Service) (sections : List LoadedSection) (query : String) : Option String :=
  world.plan sections query (queryIntent world service query)

def noSourceMarkers : List String := ["no_source", "no source", "not found", "unsupported"]

/-- `_clean_oracle_answer` -/
def cleanOracleAnswer (text : String) : String :=
  let answer := stripChars (collapseFrom false text.toList)
  let folded := trimChars (fun c => c ∈ [' ', '.', ':']) (world.casefold (String.ofList answer)).toList
  if answer.isEmpty || (noSourceMarkers.map String.toList).contains folded || "no_source".toList.isPrefixOf folded then ""
  else String.ofList answer

/-- `_trim_text` -/
def trimText (text : String) (maxChars : Nat) : String :=
  if text.length ≤ maxChars then text else String.ofList (rstrip (text.toList.take (maxChars - 3)) ++ ['.', '.', '.'])

structure QueryResult where
  ok : Bool
  answerExtract : String
  warnings : List String
  sourceCount : Nat
  sectionCount : Nat
  deriving DecidableEq

def oversizedWarning (limit : Nat) : String :=
  "business knowledge source pack exceeds " ++ toString limit ++ " characters; split or narrow source files"

def maxExtractChars : Nat := 3000

/-- A result without an answer, for the reason that its warning gives. -/
def refusedResult (rows : List (SourceRow κ)) (warning : String) : QueryResult :=
  ⟨false, "", uniqueStrings world (scopeWarnings world rows ++ [warning]), rows.length, (loadSections rows).length⟩

/-- `_successful_query_result` -/
def successfulResult (rows : List (SourceRow κ)) (raw : String) : QueryResult :=
  let extract := cleanOracleAnswer world raw
  ⟨extract ≠ "", trimText extract maxExtractChars, uniqueStrings world (scopeWarnings world rows), rows.length,
    (loadSections rows).length⟩

/-- `query`; `none` when the planner or the oracle raises. -/
def query (service : Service) (rows : List (SourceRow κ)) (text : String) : Option QueryResult :=
  let sections := loadSections rows
  if sections.isEmpty then some (refusedResult world rows "no prepared source sections found")
  else (sourcePack world service sections text).bind fun pack =>
    if pack.length > service.maxSourcePackChars then
      some (refusedResult world rows (oversizedWarning service.maxSourcePackChars))
    else if !service.hasOracle then some (refusedResult world rows "business knowledge oracle client is not configured")
    else (world.answer service.oracleModel pack text service.maxOutputTokens).map (successfulResult world rows)

def preflightQuery (goal : String) : String :=
  strip ("Can these source files support this intake workflow? Mention only source-backed useful facts and missing gaps. " ++
    "Workflow goal: " ++ goal)

def goalOf (goal : String) : String := orElse (strip goal) "business services pricing policies required fields"

def derivedWarning : String :=
  "only media-derived evidence was prepared; exact prices, policies, and service menus need a text/table/document source"

/-- The result of a preflight that is not cached. -/
def uncachedPreflight (service : Service) (rows : List (SourceRow κ)) (goal : String) : Option Payload :=
  (query world service rows (preflightQuery goal)).map fun result =>
    let derivedOnly := !rows.isEmpty && rows.all fun row => row.sourceKind = "derived_from_media"
    let hasAnswer := strip result.answerExtract ≠ ""
    let ready := result.sectionCount ≠ 0 && hasAnswer && !derivedOnly && result.ok
    { ok := ready
      status := if ready then "ready" else "needs_better_source"
      sourceCount := result.sourceCount
      sectionCount := result.sectionCount
      answerExtract := result.answerExtract
      warnings := result.warnings ++ if derivedOnly then [derivedWarning] else [] }

end Querying

section Cache

def sourceVersion (row : SourceRow κ) : Json :=
  .object [("char_count", .int row.charCount), ("file_id", .string row.fileId), ("indexed_at", .string row.indexedAt),
    ("section_count", .int row.sectionCount), ("source_hash", world.hexText row.sourceHash),
    ("source_kind", .string row.sourceKind), ("status", .string row.status)]

def sourceVersions (rows : List (SourceRow κ)) : List Json :=
  ((sourceRows rows).insertionSort fun first second => first.fileId ≤ second.fileId).map (sourceVersion world)

def cacheVersion : Int := 1

/-- `_preflight_cache_meta` -/
def cacheKey (service : Service) (customer : String) (rows : List (SourceRow κ)) (goal : String) : κ :=
  world.hashJson (.object [("cache_version", .int cacheVersion), ("customer_id", .string customer),
    ("max_output_tokens", .int service.maxOutputTokens), ("oracle_model", .string service.oracleModel),
    ("source_signature", world.hexText (world.hashJson (.array (sourceVersions world rows)))),
    ("workflow_goal_hash", world.hexText (world.hashJson (.string (strip goal))))])

/-- A call of a service on the database, with what it finds in the vault and on the clock. -/
inductive Call where
  | indexSources (customer : String) (scope : Scope) (fileIds : List String) (records : String → Option String)
      (times : String → String)
  | promoteScope (customer : String) (source target : Scope) (now : String)
  | preflightScope (service : Service) (customer : String) (scope : Scope) (goal : String)

variable [DecidableEq κ]

def cachedPreflight (db : Database κ) (service : Service) (customer : String) (scope : Scope) (goal : String) : Option Entry :=
  get db.cache (customer, cacheKey world service customer (db.sources customer scope) goal)

def step (db : Database κ) : Call → Database κ
  | .indexSources customer scope fileIds records times =>
    indexAll world customer scope records times db (uniqueStrings world fileIds)
  | .promoteScope customer source target now =>
    db.setSources customer target ((db.sources customer source).map fun row => { row with indexedAt := now })
  | .preflightScope service customer scope goal =>
    match cachedPreflight world db service customer scope (goalOf goal) with
    | some _ => db
    | none =>
      match uncachedPreflight world service (db.sources customer scope) (goalOf goal) with
      | none => db
      | some payload =>
        let key := cacheKey world service customer (db.sources customer scope) (goalOf goal)
        { db with cache := store db.cache (customer, key) ⟨payload, service⟩ }

/-- A cached result is the one that the same service would compute. -/
def Transparent (db : Database κ) : Call → Prop
  | .preflightScope service customer scope goal =>
    ∀ entry ∈ cachedPreflight world db service customer scope (goalOf goal),
      uncachedPreflight world service (db.sources customer scope) (goalOf goal) = some entry.payload
  | _ => True

/-- What a service makes of the sections, before it asks the oracle. -/
inductive Verdict where
  | noSections
  | unplanned
  | oversized (limit : Nat)
  | unconfigured
  | asked
  deriving DecidableEq

omit [DecidableEq κ] in
def verdict (service : Service) (rows : List (SourceRow κ)) (goal : String) : Verdict :=
  let sections := loadSections rows
  if sections.isEmpty then .noSections
  else
    match sourcePack world service sections (preflightQuery goal) with
    | none => .unplanned
    | some pack =>
      if pack.length > service.maxSourcePackChars then .oversized service.maxSourcePackChars
      else if service.hasOracle then .asked else .unconfigured

/-- A service that finds a cached result comes as far with the sources as the one that stored it. -/
def Alike (db : Database κ) : Call → Prop
  | .preflightScope service customer scope goal =>
    ∀ entry ∈ cachedPreflight world db service customer scope (goalOf goal),
      verdict world entry.storedBy (db.sources customer scope) (goalOf goal) =
        verdict world service (db.sources customer scope) (goalOf goal)
  | _ => True

instance decidableTransparent (db : Database κ) (call : Call) : Decidable (Transparent world db call) := by
  cases call with
  | indexSources | promoteScope => exact inferInstanceAs (Decidable True)
  | preflightScope service customer scope goal =>
    exact inferInstanceAs (Decidable (∀ entry ∈ cachedPreflight world db service customer scope (goalOf goal),
      uncachedPreflight world service (db.sources customer scope) (goalOf goal) = some entry.payload))

instance decidableAlike (db : Database κ) (call : Call) : Decidable (Alike world db call) := by
  cases call with
  | indexSources | promoteScope => exact inferInstanceAs (Decidable True)
  | preflightScope service customer scope goal =>
    exact inferInstanceAs (Decidable (∀ entry ∈ cachedPreflight world db service customer scope (goalOf goal),
      verdict world entry.storedBy (db.sources customer scope) (goalOf goal) =
        verdict world service (db.sources customer scope) (goalOf goal)))

end Cache

section Verdicts

/-- What the verdict alone leaves to say about the result. -/
def answered (service : Service) (rows : List (SourceRow κ)) (goal : String) : Verdict → Option QueryResult
  | .noSections => some (refusedResult world rows "no prepared source sections found")
  | .unplanned => none
  | .oversized limit => some (refusedResult world rows (oversizedWarning limit))
  | .unconfigured => some (refusedResult world rows "business knowledge oracle client is not configured")
  | .asked => (sourcePack world service (loadSections rows) (preflightQuery goal)).bind fun pack =>
      (world.answer service.oracleModel pack (preflightQuery goal) service.maxOutputTokens).map (successfulResult world rows)

variable (service : Service) (rows : List (SourceRow κ)) (goal : String)

theorem query_verdict :
    query world service rows (preflightQuery goal) = answered world service rows goal (verdict world service rows goal) := by
  rw [query, verdict]
  by_cases sections : (loadSections rows).isEmpty = true
  · rw [if_pos sections, if_pos sections, answered]
  · rw [if_neg sections, if_neg sections]
    cases packed : sourcePack world service (loadSections rows) (preflightQuery goal) with
    | none => rfl
    | some pack =>
      rw [Option.bind_some]
      dsimp only
      by_cases large : pack.length > service.maxSourcePackChars
      · rw [if_pos large, if_pos large, answered]
      · rw [if_neg large, if_neg large]
        cases service.hasOracle with
        | false => rfl
        | true =>
          rw [if_pos rfl, answered, packed]
          rfl

theorem hasOracle_of_asked (asked : verdict world service rows goal = .asked) : service.hasOracle = true := by
  rw [verdict] at asked
  split at asked
  · cases asked
  · split at asked
    · cases asked
    · split at asked
      · cases asked
      · split at asked
        · assumption
        · cases asked

/-- Two services of one model and output limit that come equally far compute the same result. -/
theorem uncachedPreflight_congr {first second : Service} (model : first.oracleModel = second.oracleModel)
    (tokens : first.maxOutputTokens = second.maxOutputTokens)
    (alike : verdict world first rows goal = verdict world second rows goal) :
    uncachedPreflight world first rows goal = uncachedPreflight world second rows goal := by
  rw [uncachedPreflight, uncachedPreflight, query_verdict, query_verdict, ← alike]
  cases far : verdict world first rows goal with
  | asked =>
    have one := hasOracle_of_asked world first rows goal far
    have other := hasOracle_of_asked world second rows goal (alike ▸ far)
    rw [answered, answered, sourcePack, sourcePack, queryIntent, queryIntent, one, other, model, tokens]
  | _ => rfl

end Verdicts

section Rows

/-- A row as indexing writes it. -/
def Indexed (customer : String) (row : SourceRow κ) : Prop :=
  ∃ summary, row = sourceRow world customer row.fileId summary row.indexedAt

/-- The rows of a scope, each as indexing writes it and in the order of their file ids. -/
structure Listed (customer : String) (rows : List (SourceRow κ)) : Prop where
  indexed : ∀ row ∈ rows, Indexed world customer row
  increasing : rows.Pairwise fun first second => first.fileId < second.fileId

theorem utf8_injective {first second : String} (same : utf8 first = utf8 second) : first = second :=
  String.toByteArray_inj.mp (ByteArray.ext (Array.toList_inj.mp same))

/-- A row of a file is what its digest and its time say. -/
theorem Indexed.eq_of_version {customer : String} {first second : SourceRow κ} (left : Indexed world customer first)
    (right : Indexed world customer second) (same : sourceVersion world first = sourceVersion world second) : first = second := by
  obtain ⟨summary, made⟩ := left
  obtain ⟨other, makes⟩ := right
  rw [sourceVersion, sourceVersion] at same
  simp only [Json.object.injEq, List.cons.injEq, Prod.mk.injEq, Json.string.injEq, true_and, and_true] at same
  obtain ⟨_, file, time, _, hash, _⟩ := same
  have digests : first.sourceHash = second.sourceHash := world.hexText_injective hash
  rw [made, makes, file] at digests
  have bytes := world.digest_injective digests
  have summaries : summary = other := by
    have tails := List.append_cancel_left bytes
    exact utf8_injective (List.append_cancel_right (List.cons.inj tails).2)
  rw [made, makes, file, time, summaries]

theorem Listed.eq_of_versions {customer : String} {first second : List (SourceRow κ)} (left : Listed world customer first)
    (right : Listed world customer second) (same : first.map (sourceVersion world) = second.map (sourceVersion world)) :
    first = second := by
  induction first generalizing second with
  | nil => exact (List.map_eq_nil_iff.mp same.symm).symm
  | cons row first ih =>
    obtain ⟨other, second, rfl⟩ : ∃ other rest, second = other :: rest := by
      cases second with
      | nil => cases same
      | cons other rest => exact ⟨other, rest, rfl⟩
    obtain ⟨head, tail⟩ := List.cons.inj same
    have rest (row : SourceRow κ) {rows : List (SourceRow κ)} (listed : Listed world customer (row :: rows)) :
        Listed world customer rows :=
      ⟨fun other member => listed.indexed other (List.mem_cons_of_mem _ member), (List.pairwise_cons.mp listed.increasing).2⟩
    have equal := (left.indexed row List.mem_cons_self).eq_of_version world (right.indexed other List.mem_cons_self) head
    rw [equal, ih (rest row left) (rest other right) tail]

/-- The rows in the order of their file ids are those of the scope. -/
theorem sorted_sourceRows {rows : List (SourceRow κ)} (increasing : rows.Pairwise fun first second => first.fileId < second.fileId) :
    ((sourceRows rows).insertionSort fun first second => first.fileId ≤ second.fileId) = rows := by
  have distinct : (rows.map SourceRow.fileId).Nodup := by
    rw [List.Nodup, List.pairwise_map]
    exact increasing.imp fun less => less.ne
  have total : Std.Total fun first second : SourceRow κ => first.fileId ≤ second.fileId := ⟨fun _ _ => le_total _ _⟩
  have trans : IsTrans (SourceRow κ) fun first second => first.fileId ≤ second.fileId := ⟨fun _ _ _ => le_trans⟩
  have permuted : ((sourceRows rows).insertionSort fun first second => first.fileId ≤ second.fileId).Perm rows :=
    (List.perm_insertionSort _ _).trans (List.perm_insertionSort _ _)
  have sorted := List.pairwise_insertionSort (fun first second : SourceRow κ => first.fileId ≤ second.fileId) (sourceRows rows)
  refine permuted.eq_of_pairwise (fun first second left right less greater => ?_) sorted (increasing.imp fun less => less.le)
  exact List.inj_on_of_nodup_map distinct (permuted.mem_iff.mp left) right (le_antisymm less greater)

theorem Listed.replaceSource {customer : String} {rows : List (SourceRow κ)} (listed : Listed world customer rows)
    {row : SourceRow κ} (own : Indexed world customer row) : Listed world customer (replaceSource row rows) := by
  have among (other : SourceRow κ) (rows : List (SourceRow κ)) (member : other ∈ Preflight.replaceSource row rows) :
      other = row ∨ other ∈ rows := by
    induction rows with
    | nil => exact Or.inl (List.mem_singleton.mp member)
    | cons first rows ih =>
      rw [Preflight.replaceSource] at member
      split at member
      · exact (List.mem_cons.mp member).imp_right (List.mem_cons_of_mem _)
      · split at member
        · exact List.mem_cons.mp member
        · rcases List.mem_cons.mp member with rfl | later
          · exact Or.inr List.mem_cons_self
          · exact (ih later).imp_right (List.mem_cons_of_mem _)
  refine ⟨fun other member => (among other rows member).elim (fun same => same ▸ own) (listed.indexed other), ?_⟩
  have increasing := listed.increasing
  clear listed
  induction rows with
  | nil => exact List.pairwise_singleton _ _
  | cons first rows ih =>
    obtain ⟨above, rest⟩ := List.pairwise_cons.mp increasing
    rw [Preflight.replaceSource]
    split
    · rename_i same
      exact List.pairwise_cons.mpr ⟨fun other member => same ▸ above other member, rest⟩
    · rename_i differs
      split
      · rename_i lower
        refine List.pairwise_cons.mpr ⟨fun other member => ?_, increasing⟩
        rcases List.mem_cons.mp member with rfl | later
        · exact lower
        · exact lower.trans (above other later)
      · rename_i upper
        refine List.pairwise_cons.mpr ⟨fun other member => ?_, ih rest⟩
        rcases among other rows member with rfl | later
        · exact lt_of_le_of_ne (not_lt.mp upper) (Ne.symm differs)
        · exact above other later

/-- Rows that are copied to another scope are as if they had been indexed at the time of the copy. -/
theorem Listed.restamp {customer : String} {rows : List (SourceRow κ)} (listed : Listed world customer rows) (now : String) :
    Listed world customer (rows.map fun row => { row with indexedAt := now }) := by
  refine ⟨fun row member => ?_, List.pairwise_map.mpr listed.increasing⟩
  obtain ⟨before, inside, rfl⟩ := List.mem_map.mp member
  obtain ⟨summary, made⟩ := listed.indexed before inside
  refine ⟨summary, ?_⟩
  rw [made]
  rfl

end Rows

section Runs

theorem strip_goalOf (goal : String) : strip (goalOf goal) = goalOf goal := by
  rw [goalOf, orElse]
  split
  · decide +kernel
  · rw [strip, strip, String.toList_ofList, stripChars_idem]

/-- Keys of a customer say what the sources, the goal, the model and the output limit are. -/
theorem cacheKey_injective {first second : Service} {customer : String} {rows others : List (SourceRow κ)} {goal other : String}
    (left : Listed world customer rows) (right : Listed world customer others)
    (same : cacheKey world first customer rows (goalOf goal) = cacheKey world second customer others (goalOf other)) :
    first.oracleModel = second.oracleModel ∧ first.maxOutputTokens = second.maxOutputTokens ∧ rows = others ∧
      goalOf goal = goalOf other := by
  have objects := world.hashJson_injective same
  simp only [Json.object.injEq, List.cons.injEq, Prod.mk.injEq, Json.string.injEq, Json.int.injEq, true_and, and_true,
    Int.natCast_inj] at objects
  obtain ⟨tokens, model, signature, goals⟩ := objects
  have versions := Json.array.inj (world.hashJson_injective (world.hexText_injective signature))
  have texts := Json.string.inj (world.hashJson_injective (world.hexText_injective goals))
  rw [sourceVersions, sourceVersions, sorted_sourceRows left.increasing, sorted_sourceRows right.increasing] at versions
  rw [strip_goalOf, strip_goalOf] at texts
  exact ⟨model, tokens, left.eq_of_versions world right versions, texts⟩

/-- An entry was computed by the service that stored it, for sources and a goal with its key. -/
def Computed (key : String × κ) (entry : Entry) : Prop :=
  ∃ rows goal, Listed world key.1 rows ∧ cacheKey world entry.storedBy key.1 rows (goalOf goal) = key.2 ∧
    uncachedPreflight world entry.storedBy rows (goalOf goal) = some entry.payload

structure Sound (db : Database κ) : Prop where
  sources : ∀ customer scope, Listed world customer (db.sources customer scope)
  cache : Holds (Computed world) db.cache

theorem sound_empty : Sound world (Database.empty κ) := ⟨fun _ _ => ⟨nofun, List.Pairwise.nil⟩, Holds.nil⟩

theorem Sound.setSources {db : Database κ} (sound : Sound world db) {customer : String} (scope : Scope) {rows : List (SourceRow κ)}
    (listed : Listed world customer rows) : Sound world (db.setSources customer scope rows) := by
  refine ⟨fun other held => ?_, sound.cache⟩
  show Listed world other (if other = customer ∧ held = scope then rows else db.sources other held)
  split
  · rename_i same
    exact same.1 ▸ listed
  · exact sound.sources other held

variable [DecidableEq κ]

theorem Sound.indexAll {db : Database κ} (sound : Sound world db) (customer : String) (scope : Scope)
    (records : String → Option String) (times : String → String) (fileIds : List String) :
    Sound world (indexAll world customer scope records times db fileIds) := by
  induction fileIds generalizing db with
  | nil => exact sound
  | cons fileId rest ih =>
    rw [Preflight.indexAll, indexOneSource]
    cases records fileId with
    | none => exact sound
    | some summary =>
      rw [Option.map_some]
      dsimp only
      split
      · exact ih sound
      · exact ih (sound.setSources world scope ((sound.sources customer scope).replaceSource world ⟨summary, rfl⟩))

theorem Sound.step {db : Database κ} (sound : Sound world db) (call : Call) : Sound world (step world db call) := by
  cases call with
  | indexSources customer scope fileIds records times => exact sound.indexAll world customer scope records times _
  | promoteScope customer source target now =>
    exact sound.setSources world target ((sound.sources customer source).restamp world now)
  | preflightScope service customer scope goal =>
    rw [Preflight.step]
    split
    · exact sound
    · split
      · exact sound
      · rename_i payload computed
        exact ⟨sound.sources, sound.cache.store ⟨_, goal, sound.sources customer scope, rfl, computed⟩⟩

/-- A result that is found in the cache was computed from the same sources for the same goal. -/
theorem transparent_of_alike {db : Database κ} (sound : Sound world db) (call : Call) (alike : Alike world db call) :
    Transparent world db call := by
  cases call with
  | indexSources | promoteScope => trivial
  | preflightScope service customer scope goal =>
    intro entry hit
    obtain ⟨rows, other, listed, key, computed⟩ := sound.cache.get hit
    obtain ⟨model, tokens, rfl, goals⟩ := cacheKey_injective world listed (sound.sources customer scope) key
    rw [← computed, goals]
    exact (uncachedPreflight_congr world _ _ model tokens (alike entry hit)).symm

/-- In every sequence of calls the cache is transparent, if each service that finds a result would come as far with the
sources as the one that stored it. -/
theorem preflight_cache_transparent (calls : List Call)
    (alike : Run.Guarded (step world) (Alike world) (Database.empty κ) calls) :
    Run.Guarded (step world) (Transparent world) (Database.empty κ) calls :=
  alike.weaken (fun _ call sound => transparent_of_alike world sound call) (fun _ call sound _ => sound.step world call)
    (sound_empty world)

end Runs

section Samples

/-- One file with one section, an oracle with one answer, and digests that are what is digested. -/
def sampleWorld : World Json where
  vault _ _ := ⟨"menu.txt", "text/plain", [], ""⟩
  extract fileId _ _ := ⟨[⟨"cut 30", fileId ++ ":1", "local_source", "", 1⟩], [], "local_source"⟩
  casefold text := text
  extractIntent _ _ := none
  plan sections _ _ := some (String.join (sections.map fun part => part.stored.content))
  answer _ _ _ _ := some "A cut costs 30."
  digest bytes := .array (bytes.map fun byte => .int byte.toNat)
  digest_injective first second same := by
    refine List.map_injective_iff.mpr (fun a b equal => ?_) (Json.array.inj same)
    exact UInt8.toNat_inj.mp (Int.natCast_inj.mp (Json.int.inj equal))
  hashJson := id
  hashJson_injective := Function.injective_id
  hexText := id
  hexText_injective := Function.injective_id

def sampleScope : Scope := ⟨.intakeWorkflow, "w1"⟩

def sampleIndexing : Call := .indexSources "c1" sampleScope ["f1"] (fun _ => some "") fun _ => "t1"

def plainService : Service := ⟨false, "m1", 800000, 1000⟩

def oracleService : Service := { plainService with hasOracle := true }

theorem preflight_cache_transparent_twice : Run.Guarded (step sampleWorld) (Transparent sampleWorld) (Database.empty Json)
    [sampleIndexing, .preflightScope oracleService "c1" sampleScope "", .preflightScope oracleService "c1" sampleScope ""] :=
  preflight_cache_transparent sampleWorld _ (by decide +kernel)

/-- A workflow that was refused for want of an oracle stays refused when there is one. -/
theorem refusal_outlives_cause : ¬ Run.Guarded (step sampleWorld) (Transparent sampleWorld) (Database.empty Json)
    [sampleIndexing, .preflightScope plainService "c1" sampleScope "", .preflightScope oracleService "c1" sampleScope ""] := by
  decide +kernel

end Samples

end OpenTulpa.Knowledge.Preflight
