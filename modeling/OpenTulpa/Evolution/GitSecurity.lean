import Mathlib.Data.List.Sort
import Mathlib.Data.String.Basic
import OpenTulpa.Library.Caching
import OpenTulpa.Library.Groups
import OpenTulpa.Library.Run

/-! The check of a repository's git configuration and the cache of its results. A repository that was found safe is not
checked again while the fingerprint of its administrative files stays the same, whatever the limits of the call are. -/

namespace OpenTulpa.Evolution.GitSecurity

open Library Library.Caching Library.Groups

section Files

abbrev Path := List String

/-- `_stat_identity` -/
structure Identity where
  ino : Nat
  dev : Nat
  size : Nat
  mtime : Int
  ctime : Int
  mode : Nat
  deriving DecidableEq

/-- What is found at a path: nothing, an error, a file whose content may be unreadable, a directory that may be
unreadable, or something else. -/
inductive Node where
  | missing
  | failed
  | regular (identity : Identity) (content : Option (List UInt8))
  | directory (identity : Identity) (listed : Bool) (children : List (String × Node))
  | other (identity : Identity)

abbrev FileSystem := Path → Node

/-- `os.path.lexists` -/
def Node.exists : Node → Bool
  | .missing | .failed => false
  | _ => true

structure UrlParts where
  scheme : List Char
  hostname : List Char
  username : Option (List Char)
  password : Option (List Char)
  query : List Char
  fragment : List Char
  deriving DecidableEq

/-- What the check takes from git and the language: the exit status and the output of listing a file with the given
content, texts and the parts of addresses, and digests without collisions. -/
structure Platform (κ : Type) where
  list : List UInt8 → Int × List UInt8
  decode : List UInt8 → Option (List Char)
  casefold : List Char → List Char
  urlsplit : List Char → Option UrlParts
  digest : List UInt8 → κ
  digest_injective : Function.Injective digest

/-- A call, with the files it finds, and whether git can be started in its working directory and ends in time there. -/
structure Call where
  files : FileSystem
  gitDirectory : Path
  commonDirectory : Path
  timeoutSeconds : Int
  maxOutputBytes : Int
  starts : Bool
  inTime : Bool

end Files

variable {κ : Type} (platform : Platform κ)

section Fingerprint

/-- A path with the identity and the digest of what is there. -/
structure Record (κ : Type) where
  path : Path
  identity : Option Identity
  digest : Option κ
  deriving DecidableEq

def nodeRecord (path : Path) : Node → Option (Record κ)
  | .missing => some ⟨path, none, none⟩
  | .failed => none
  | .regular identity content => content.map fun bytes => ⟨path, some identity, some (platform.digest bytes)⟩
  | .directory identity _ _ | .other identity => some ⟨path, some identity, none⟩

/-- `_fingerprint_admin_path` -/
def fingerprintAdminPath (path : Path) (node : Node) : Option (List (Record κ)) := (nodeRecord platform path node).map ([·])

mutual

/-- `_fingerprint_admin_path` with `recursive` -/
def fingerprintTree (path : Path) : Node → Option (List (Record κ))
  | .directory identity listed children =>
    if listed then
      (fingerprintChildren path children).map fun records =>
        ⟨path, some identity, none⟩ :: (records.insertionSort fun first second => first.1 ≤ second.1).flatMap Prod.snd
    else none
  | node => fingerprintAdminPath platform path node

def fingerprintChildren (path : Path) : List (String × Node) → Option (List (String × List (Record κ)))
  | [] => some []
  | (name, node) :: rest =>
    (fingerprintTree (path ++ [name]) node).bind fun own =>
      (fingerprintChildren path rest).map fun others => (name, own) :: others

end

def staticPaths (gitDirectory commonDirectory : Path) : List Path := [
  commonDirectory ++ ["config"],
  commonDirectory ++ ["config.worktree"],
  gitDirectory ++ ["config.worktree"],
  commonDirectory ++ ["shallow"],
  gitDirectory ++ ["shallow"],
  commonDirectory ++ ["info", "grafts"],
  gitDirectory ++ ["info", "grafts"],
  commonDirectory ++ ["objects", "info", "alternates"],
  commonDirectory ++ ["objects", "info", "http-alternates"],
  commonDirectory ++ ["info", "attributes"],
  gitDirectory ++ ["info", "attributes"],
  commonDirectory ++ ["packed-refs"]]

def replaceRoots (gitDirectory commonDirectory : Path) : List Path :=
  [commonDirectory ++ ["refs", "replace"], gitDirectory ++ ["refs", "replace"]]

/-- The records of the paths one after the other; `none` when one of them raises. -/
def collect (records : Path → Option (List (Record κ))) : List Path → Option (List (Record κ))
  | [] => some []
  | path :: rest => (records path).bind fun own => (collect records rest).map (own ++ ·)

/-- `_repository_security_fingerprint` -/
def securityFingerprint (files : FileSystem) (gitDirectory commonDirectory : Path) : Option (List (Record κ)) :=
  (collect (fun path => fingerprintAdminPath platform path (files path)) (firsts (staticPaths gitDirectory commonDirectory))).bind
    fun records => (collect (fun path => fingerprintTree platform path (files path))
      (firsts (replaceRoots gitDirectory commonDirectory))).map (records ++ ·)

end Fingerprint

section Configuration

/-- The records between the null bytes. -/
def splitRecords : List UInt8 → List UInt8 → List (List UInt8)
  | record, [] => [record]
  | record, byte :: rest => if byte = 0 then record :: splitRecords [] rest else splitRecords (record ++ [byte]) rest

def decodeRecord (record : List UInt8) : Option (List Char × List Char) :=
  if 10 ∈ record then
    (platform.decode (record.takeWhile (· ≠ 10))).bind fun name =>
      (platform.decode ((record.dropWhile (· ≠ 10)).drop 1)).map fun value => (platform.casefold name, value)
  else none

def decodeRecords : List (List UInt8) → Option (List (List Char × List Char))
  | [] => some []
  | record :: rest => (decodeRecord platform record).bind fun entry => (decodeRecords rest).map (entry :: ·)

/-- `_config_entries`; the outer `none` when it raises. -/
def configEntries (call : Call) : Option (Option (List (List Char × List Char))) :=
  match call.files (call.commonDirectory ++ ["config"]) with
  | .regular _ content =>
    if call.maxOutputBytes < 1 ∨ call.timeoutSeconds ≤ 0 then none
    else
      match content with
      | none => some none
      | some bytes =>
        let result := platform.list bytes
        if !call.starts || result.1 ≠ 0 || call.maxOutputBytes < result.2.length || !call.inTime then some none
        else some (decodeRecords platform ((splitRecords [] result.2).filter fun record => !record.isEmpty))
  | _ => some none

def isLowerOrDigit (c : Char) : Bool := c.isLower || c.isDigit

def isPathMark (c : Char) : Bool := c == '.' || c == '_' || c == '/' || c == '-'

/-- What is between two given parts that a text begins and ends with. -/
def between (start stop text : List Char) : Option (List Char) :=
  if start.length + stop.length ≤ text.length ∧ start.isPrefixOf text ∧ stop.isSuffixOf text then
    some ((text.drop start.length).take (text.length - start.length - stop.length))
  else none

def isConfigName : List Char → Bool
  | [] => false
  | c :: rest => isLowerOrDigit c && rest.length ≤ 199 && rest.all fun c => isLowerOrDigit c || isPathMark c

inductive ConfigField where
  | url
  | fetch
  | remote
  | merge
  deriving DecidableEq

/-- `_REMOTE_CONFIG_RE` and `_BRANCH_CONFIG_RE` -/
def configField (name : List Char) : Option ConfigField :=
  let named (start stop : String) : Bool := (between start.toList stop.toList name).any isConfigName
  if named "remote." ".url" then some .url
  else if named "remote." ".fetch" then some .fetch
  else if named "branch." ".remote" then some .remote
  else if named "branch." ".merge" then some .merge
  else none

def contains (part text : List Char) : Bool := text.tails.any part.isPrefixOf

def endsPlain (value : List Char) : Bool := value.getLast? ≠ some '.' && value.getLast? ≠ some '/'

/-- `_remote_name_is_safe` -/
def remoteNameIsSafe (value : List Char) : Bool :=
  value == ['.'] ||
    (match value with
      | [] => false
      | c :: rest => c.isAlphanum && rest.length ≤ 199 && rest.all fun c => c.isAlphanum || isPathMark c) &&
    !contains ['.', '.'] value && endsPlain value

/-- `_branch_merge_ref_is_safe` -/
def branchMergeRefIsSafe (value : List Char) : Bool :=
  let name := value.drop 11
  "refs/heads/".toList.isPrefixOf value && !name.isEmpty && (name.all fun c => c.isAlphanum || isPathMark c) &&
    value.length ≤ 500 && !contains ['.', '.'] value && !contains ['@', '\x7b'] value && endsPlain value &&
    !(value.any fun c => " ~^:?*[\\".toList.contains c) && value.all fun c => 31 < c.toNat && c.toNat < 127

/-- `_fetch_refspec_is_safe` -/
def fetchRefspecIsSafe (value : List Char) : Bool :=
  let refspec := if value.head? = some '+' then value.drop 1 else value
  let source := refspec.takeWhile (· != ':')
  let destination := (refspec.dropWhile (· != ':')).drop 1
  let isPart (start : List Char) (text : List Char) : Bool :=
    let rest := text.drop start.length
    start.isPrefixOf text && !rest.isEmpty && rest.all fun c => c.isAlphanum || isPathMark c || c == '*'
  refspec.count ':' = 1 && source.count '*' = destination.count '*' && source.count '*' ≤ 1 &&
    isPart "refs/".toList source && isPart "refs/remotes/".toList destination &&
    !contains ['.', '.'] refspec && !contains ['@', '\x7b'] refspec && endsPlain source && endsPlain destination

/-- `_SCP_REMOTE_RE` -/
def isScpRemote (value : List Char) : Bool :=
  let user := value.takeWhile (· != '@')
  let behind := (value.dropWhile (· != '@')).drop 1
  let host := behind.takeWhile (· != ':')
  let path := (behind.dropWhile (· != ':')).drop 1
  value.contains '@' && behind.contains ':' && !user.isEmpty && !host.isEmpty && !path.isEmpty &&
    (user.all fun c => c.isAlphanum || c == '.' || c == '_' || c == '-') &&
    (host.all fun c => c.isAlphanum || c == '.' || c == '-') &&
    path.all fun c => c.isAlphanum || "._~!$&'()+,;=:@%/-".toList.contains c

/-- `_remote_url_is_safe`; `none` when it raises. -/
def remoteUrlIsSafe (value : List Char) : Option Bool :=
  if value.isEmpty || 2000 < value.length || value.head?.any (fun c => "-~!|".toList.contains c) ||
      value.any (fun c => c.toNat < 32 || c.toNat == 127) then some false
  else if isScpRemote value then some true
  else (platform.urlsplit value).map fun parsed =>
    let scheme := platform.casefold parsed.scheme
    if parsed.scheme.isEmpty then !contains "://".toList value && !contains "::".toList value && !value.contains '\\'
    else if (scheme ≠ "https".toList && scheme ≠ "ssh".toList) || parsed.hostname.isEmpty || parsed.password.isSome then false
    else if !parsed.query.isEmpty || !parsed.fragment.isEmpty then false
    else if scheme = "https".toList && parsed.username.isSome then false
    else parsed.username.all fun name => !name.isEmpty && name.all fun c => c.isAlphanum || c == '.' || c == '_' || c == '-'

def safeRepositoryConfig : List String :=
  ["core.bare", "core.filemode", "core.ignorecase", "core.logallrefupdates", "core.precomposeunicode",
    "core.repositoryformatversion", "core.symlinks", "extensions.compatobjectformat", "extensions.objectformat",
    "user.email", "user.name"]

def booleanConfig : List String :=
  ["core.filemode", "core.ignorecase", "core.logallrefupdates", "core.precomposeunicode", "core.symlinks"]

/-- The checks of an entry that is neither of a remote nor of a branch. -/
def plainEntryIsSafe (name value : List Char) : Bool :=
  let lowered := platform.casefold value
  let among (texts : List String) (text : List Char) : Bool := (texts.map String.toList).contains text
  among safeRepositoryConfig name &&
    (!among booleanConfig name || among ["true", "false"] lowered) &&
    (name != "core.bare".toList || lowered == "false".toList) &&
    (name != "core.repositoryformatversion".toList || among ["0", "1"] value) &&
    (!among ["extensions.objectformat", "extensions.compatobjectformat"] name || among ["sha1", "sha256"] lowered) &&
    (!among ["user.email", "user.name"] name || (!value.isEmpty && value.length ≤ 500 && !value.any fun c => c.toNat < 32))

def entryIsSafe (name value : List Char) : Option Bool :=
  if value.any fun c => c.toNat == 0 then some false
  else
    match configField name with
    | some .url => remoteUrlIsSafe platform value
    | some .fetch => some (fetchRefspecIsSafe value)
    | some .remote => some (remoteNameIsSafe value)
    | some .merge => some (branchMergeRefIsSafe value)
    | none => some (plainEntryIsSafe platform name value)

/-- `_repository_config_is_safe`; `none` when it raises. -/
def repositoryConfigIsSafe (seen : List (List Char)) : List (List Char × List Char) → Option Bool
  | [] => some true
  | (name, value) :: rest =>
    let repeatable := configField name = some .url ∨ configField name = some .fetch
    if name ∈ seen ∧ ¬ repeatable then some false
    else
      match entryIsSafe platform name value with
      | some true => repositoryConfigIsSafe (name :: seen) rest
      | other => other

end Configuration

section Checking

def unsafeState (gitDirectory commonDirectory : Path) : List Path := [
  commonDirectory ++ ["shallow"],
  commonDirectory ++ ["info", "grafts"],
  commonDirectory ++ ["objects", "info", "alternates"],
  commonDirectory ++ ["objects", "info", "http-alternates"],
  gitDirectory ++ ["shallow"],
  gitDirectory ++ ["info", "grafts"],
  commonDirectory ++ ["config.worktree"],
  gitDirectory ++ ["config.worktree"]]

def maxRepositorySecurityCacheEntries : Nat := 1024

abbrev Cache (κ : Type) := List ((Path × Path) × List (Record κ))

def Call.key (call : Call) : Path × Path := (call.gitDirectory, call.commonDirectory)

def callFingerprint (call : Call) : Option (List (Record κ)) :=
  securityFingerprint platform call.files call.gitDirectory call.commonDirectory

/-- Whether the state and the configuration of a repository are unsafe; `none` when the check raises. -/
def validationIsUnsafe (call : Call) : Option Bool :=
  if (unsafeState call.gitDirectory call.commonDirectory).any fun path => (call.files path).exists then some true
  else (configEntries platform call).bind fun entries =>
    match entries with
    | none => some true
    | some entries => (repositoryConfigIsSafe platform [] entries).map (!·)

variable [DecidableEq κ]

/-- `repository_git_configuration_is_unsafe`: the cache behind the call and its answer, which is `none` when it raises. -/
def configurationIsUnsafe (cache : Cache κ) (call : Call) : Cache κ × Option Bool :=
  match callFingerprint platform call with
  | none => (cache, some true)
  | some fingerprint =>
    if get cache call.key = some fingerprint then (cache, some false)
    else
      match validationIsUnsafe platform call with
      | some false =>
        match callFingerprint platform call with
        | none => (cache, some true)
        | some validated =>
          if validated ≠ fingerprint then (cache, some true)
          else (put maxRepositorySecurityCacheEntries cache call.key validated, some false)
      | answer => (cache, answer)

def step (cache : Cache κ) (call : Call) : Cache κ := (configurationIsUnsafe platform cache call).1

/-- The call is answered as it would be with an empty cache. -/
def Transparent (cache : Cache κ) (call : Call) : Prop :=
  (configurationIsUnsafe platform cache call).2 = (configurationIsUnsafe platform [] call).2

omit [DecidableEq κ] in
/-- Git starts, ends in time and stays within the output limit when it lists the configuration. -/
def Completes (call : Call) : Prop :=
  1 ≤ call.maxOutputBytes ∧ 0 < call.timeoutSeconds ∧ call.starts = true ∧ call.inTime = true ∧
    ∀ identity bytes, call.files (call.commonDirectory ++ ["config"]) = .regular identity (some bytes) →
      (platform.list bytes).2.length ≤ call.maxOutputBytes

/-- A call that finds its fingerprint in the cache would have completed. -/
def HitCompletes (cache : Cache κ) (call : Call) : Prop :=
  ∀ fingerprint, callFingerprint platform call = some fingerprint → get cache call.key = some fingerprint →
    Completes platform call

end Checking

section Determination

theorem collect_length {records : Path → Option (List (Record κ))} (single : ∀ path own, records path = some own → own.length = 1)
    {paths : List Path} {all : List (Record κ)} (collected : collect records paths = some all) : all.length = paths.length := by
  induction paths generalizing all with
  | nil =>
    obtain rfl := Option.some.inj collected
    rfl
  | cons path paths ih =>
    rw [collect, Option.bind_eq_some_iff] at collected
    obtain ⟨own, first, rest⟩ := collected
    obtain ⟨others, later, rfl⟩ := Option.map_eq_some_iff.mp rest
    rw [List.length_append, single path own first, ih later, List.length_cons, Nat.add_comm]

/-- What is collected, one record for each path, says what the record of each path is. -/
theorem collect_eq {records others : Path → Option (List (Record κ))} (single : ∀ path own, records path = some own → own.length = 1)
    (alone : ∀ path own, others path = some own → own.length = 1) {paths : List Path} {all : List (Record κ)}
    (left : collect records paths = some all) (right : collect others paths = some all) :
    ∀ path ∈ paths, ∃ own, records path = some own ∧ others path = some own := by
  induction paths generalizing all with
  | nil => exact nofun
  | cons path paths ih =>
    rw [collect, Option.bind_eq_some_iff] at left right
    obtain ⟨own, first, rest⟩ := left
    obtain ⟨another, second, remaining⟩ := right
    obtain ⟨tail, later, rfl⟩ := Option.map_eq_some_iff.mp rest
    obtain ⟨tail', later', joined⟩ := Option.map_eq_some_iff.mp remaining
    have lengths : another.length = own.length := (alone path another second).trans (single path own first).symm
    obtain ⟨rfl, rfl⟩ := List.append_inj joined lengths
    exact List.forall_mem_cons.mpr ⟨⟨_, first, second⟩, ih later later'⟩

theorem fingerprintAdminPath_single (files : FileSystem) (path : Path) (own : List (Record κ))
    (made : fingerprintAdminPath platform path (files path) = some own) : own.length = 1 := by
  obtain ⟨record, _, rfl⟩ := Option.map_eq_some_iff.mp made
  rfl

/-- Two file systems with one fingerprint have one record at each administrative path. -/
theorem securityFingerprint_eq {files others : FileSystem} {gitDirectory commonDirectory : Path} {fingerprint : List (Record κ)}
    (left : securityFingerprint platform files gitDirectory commonDirectory = some fingerprint)
    (right : securityFingerprint platform others gitDirectory commonDirectory = some fingerprint) :
    ∀ path ∈ staticPaths gitDirectory commonDirectory, ∃ record,
      nodeRecord platform path (files path) = some record ∧ nodeRecord platform path (others path) = some record := by
  rw [securityFingerprint, Option.bind_eq_some_iff] at left right
  obtain ⟨static, first, rest⟩ := left
  obtain ⟨static', second, rest'⟩ := right
  obtain ⟨replaced, _, rfl⟩ := Option.map_eq_some_iff.mp rest
  obtain ⟨replaced', _, joined⟩ := Option.map_eq_some_iff.mp rest'
  have single := fingerprintAdminPath_single platform files
  have alone := fingerprintAdminPath_single platform others
  have lengths : static'.length = static.length := (collect_length alone second).trans (collect_length single first).symm
  obtain ⟨rfl, rfl⟩ := List.append_inj joined lengths
  intro path member
  obtain ⟨own, made, makes⟩ := collect_eq single alone first second path (mem_firsts.mpr member)
  obtain ⟨record, here, rfl⟩ := Option.map_eq_some_iff.mp made
  obtain ⟨another, there, same⟩ := Option.map_eq_some_iff.mp makes
  obtain rfl : another = record := by simpa using same
  exact ⟨another, here, there⟩

theorem exists_of_record {path : Path} {node other : Node} {record : Record κ}
    (here : nodeRecord platform path node = some record) (there : nodeRecord platform path other = some record) :
    node.exists = other.exists := by
  have identity {node : Node} (made : nodeRecord platform path node = some record) : node.exists = record.identity.isSome := by
    cases node with
    | missing => exact Option.some.inj made ▸ rfl
    | failed => cases made
    | regular own content =>
      obtain ⟨bytes, _, rfl⟩ := Option.map_eq_some_iff.mp made
      rfl
    | directory => exact Option.some.inj made ▸ rfl
    | other => exact Option.some.inj made ▸ rfl
  rw [identity here, identity there]

/-- A record with a digest is of a file with one content. -/
theorem regular_of_record {path : Path} {identity : Identity} {bytes : List UInt8} {other : Node} {record : Record κ}
    (here : nodeRecord platform path (.regular identity (some bytes)) = some record)
    (there : nodeRecord platform path other = some record) : other = .regular identity (some bytes) := by
  obtain rfl := Option.some.inj here
  cases other with
  | missing | directory | other =>
    have digests := congrArg Record.digest (Option.some.inj there)
    cases digests
  | failed => cases there
  | regular another content =>
    obtain ⟨own, rfl, same⟩ := Option.map_eq_some_iff.mp there
    simp only [Record.mk.injEq, true_and, Option.some.injEq] at same
    rw [same.1, platform.digest_injective same.2]

theorem unsafeState_subset (gitDirectory commonDirectory : Path) :
    ∀ path ∈ unsafeState gitDirectory commonDirectory, path ∈ staticPaths gitDirectory commonDirectory := by
  simp [unsafeState, staticPaths]

/-- The entries that git lists if nothing about the call keeps it from it. -/
def listedEntries (bytes : List UInt8) : Option (List (List Char × List Char)) :=
  if (platform.list bytes).1 ≠ 0 then none
  else decodeRecords platform ((splitRecords [] (platform.list bytes).2).filter fun record => !record.isEmpty)

theorem configEntries_of_completes {call : Call} (completes : Completes platform call) {identity : Identity} {bytes : List UInt8}
    (config : call.files (call.commonDirectory ++ ["config"]) = .regular identity (some bytes)) :
    configEntries platform call = some (listedEntries platform bytes) := by
  obtain ⟨room, time, starts, inTime, fits⟩ := completes
  have limits : ¬ (call.maxOutputBytes < 1 ∨ call.timeoutSeconds ≤ 0) := by omega
  have within : ¬ call.maxOutputBytes < (platform.list bytes).2.length := Int.not_lt.mpr (fits identity bytes config)
  rw [configEntries, config, listedEntries]
  dsimp only
  rw [if_neg limits, starts, inTime]
  by_cases status : (platform.list bytes).1 = 0
  · simp [status, within]
  · simp [status]

/-- A configuration that is listed and has entries was listed completely. -/
theorem completes_of_entries {call : Call} {entries : List (List Char × List Char)}
    (listed : configEntries platform call = some (some entries)) : Completes platform call ∧ ∃ identity bytes,
      call.files (call.commonDirectory ++ ["config"]) = .regular identity (some bytes) ∧
        listedEntries platform bytes = some entries := by
  cases config : call.files (call.commonDirectory ++ ["config"]) with
  | regular identity content =>
    rw [configEntries, config] at listed
    dsimp only at listed
    split at listed
    · cases listed
    · rename_i limits
      cases content with
      | none => cases listed
      | some bytes =>
        dsimp only at listed
        split at listed
        · cases listed
        · rename_i fine
          simp only [Bool.or_eq_true, Bool.not_eq_true', decide_eq_true_eq, not_or, Bool.not_eq_false] at fine
          obtain ⟨⟨⟨starts, status⟩, within⟩, inTime⟩ := fine
          have listing : listedEntries platform bytes = some entries := by
            rw [listedEntries, if_neg status]
            exact Option.some.inj listed
          refine ⟨⟨by omega, by omega, starts, inTime, fun other own same => ?_⟩, identity, bytes, rfl, listing⟩
          rw [config] at same
          obtain rfl := Option.some.inj (Node.regular.inj same).2
          exact Int.not_lt.mp within
  | missing | failed | directory | other => simp [configEntries, config] at listed

end Determination

section Runs

/-- A fingerprint is in the cache for directories at which it was found safe. -/
def Validated (key : Path × Path) (fingerprint : List (Record κ)) : Prop :=
  ∃ call : Call, call.key = key ∧ callFingerprint platform call = some fingerprint ∧
    validationIsUnsafe platform call = some false

theorem validationIsUnsafe_safe {call : Call} (safe : validationIsUnsafe platform call = some false) :
    (∀ path ∈ unsafeState call.gitDirectory call.commonDirectory, (call.files path).exists = false) ∧
      ∃ entries, configEntries platform call = some (some entries) ∧ repositoryConfigIsSafe platform [] entries = some true := by
  rw [validationIsUnsafe] at safe
  split at safe
  · cases safe
  · rename_i absent
    refine ⟨fun path member => ?_, ?_⟩
    · by_contra present
      exact absent (List.any_eq_true.mpr ⟨path, member, by simpa using present⟩)
    · obtain ⟨found, listed, checked⟩ := Option.bind_eq_some_iff.mp safe
      cases found with
      | none => cases checked
      | some entries =>
        obtain ⟨verdict, safely, answer⟩ := Option.map_eq_some_iff.mp checked
        obtain rfl : verdict = true := by simpa using answer
        exact ⟨entries, listed, safely⟩

/-- With the fingerprint of a repository that was found safe, a call finds it safe exactly when it completes. -/
theorem validated_iff {fingerprint : List (Record κ)} {call : Call} (validated : Validated platform call.key fingerprint)
    (same : callFingerprint platform call = some fingerprint) :
    validationIsUnsafe platform call = some false ↔ Completes platform call := by
  obtain ⟨before, key, made, safe⟩ := validated
  obtain ⟨git, common⟩ : before.gitDirectory = call.gitDirectory ∧ before.commonDirectory = call.commonDirectory :=
    Prod.mk.inj key
  rw [callFingerprint, git, common] at made
  have records := securityFingerprint_eq platform made same
  obtain ⟨absent, entries, listed, checked⟩ := validationIsUnsafe_safe platform safe
  obtain ⟨_, identity, bytes, config, parsed⟩ := completes_of_entries platform listed
  rw [git, common] at absent
  rw [common] at config
  constructor
  · intro again
    obtain ⟨_, others, listing, _⟩ := validationIsUnsafe_safe platform again
    exact (completes_of_entries platform listing).1
  · intro completes
    obtain ⟨record, here, there⟩ := records (call.commonDirectory ++ ["config"]) (by simp [staticPaths])
    rw [config] at here
    have unchanged := regular_of_record platform here there
    have none_ : ¬ (unsafeState call.gitDirectory call.commonDirectory).any (fun path => (call.files path).exists) = true := by
      intro present
      obtain ⟨path, member, found⟩ := List.any_eq_true.mp present
      obtain ⟨own, left, right⟩ := records path (unsafeState_subset _ _ path member)
      rw [← exists_of_record platform left right, absent path member] at found
      cases found
    rw [validationIsUnsafe, if_neg none_, configEntries_of_completes platform completes unchanged, Option.bind_some, parsed]
    dsimp only
    rw [checked]
    rfl

variable [DecidableEq κ]

theorem holds_step {cache : Cache κ} (holds : Holds (Validated platform) cache) (call : Call) :
    Holds (Validated platform) (step platform cache call) := by
  rw [step, configurationIsUnsafe]
  cases made : callFingerprint platform call with
  | none => exact holds
  | some fingerprint =>
    dsimp only
    split
    · exact holds
    · split
      · rename_i safe
        rw [if_neg (not_not.mpr rfl)]
        exact holds.put ⟨call, rfl, made, safe⟩ _
      · exact holds

/-- A call is answered as with an empty cache exactly when it would have completed if it finds its fingerprint. -/
theorem transparent_iff {cache : Cache κ} (holds : Holds (Validated platform) cache) (call : Call) :
    Transparent platform cache call ↔ HitCompletes platform cache call := by
  rw [Transparent, HitCompletes, configurationIsUnsafe, configurationIsUnsafe]
  cases made : callFingerprint platform call with
  | none => simp
  | some fingerprint =>
    have empty : ¬ get ([] : Cache κ) call.key = some fingerprint := nofun
    dsimp only
    rw [if_neg empty]
    by_cases hit : get cache call.key = some fingerprint
    · rw [if_pos hit]
      have safe := validated_iff platform (holds.get hit) made
      constructor
      · intro same other own _
        obtain rfl := Option.some.inj own
        refine safe.mp ?_
        cases answer : validationIsUnsafe platform call with
        | none => rw [answer] at same; cases same
        | some verdict =>
          cases verdict with
          | false => rfl
          | true => rw [answer] at same; cases same
      · intro completes
        rw [safe.mpr (completes fingerprint rfl hit)]
        dsimp only
        rw [if_neg (not_not.mpr rfl)]
    · rw [if_neg hit]
      refine iff_of_true ?_ ?_
      · cases validationIsUnsafe platform call with
        | none => rfl
        | some verdict =>
          cases verdict with
          | false => dsimp only; rw [if_neg (not_not.mpr rfl), if_neg (not_not.mpr rfl)]
          | true => rfl
      · rintro _ ⟨⟩ found
        exact absurd found hit

/-- In every sequence of calls, with the files as each call finds them, the cache changes no answer if and only if no call
that finds its fingerprint in it would have been kept from listing the configuration. -/
theorem safety_cache_transparent_iff (calls : List Call) :
    Run.Guarded (step platform) (Transparent platform) [] calls ↔
      Run.Guarded (step platform) (HitCompletes platform) [] calls := by
  have agree (cache : Cache κ) (call : Call) (holds : Holds (Validated platform) cache) :=
    transparent_iff platform holds call
  have preserved (cache : Cache κ) (call : Call) (holds : Holds (Validated platform) cache)
      (_ : HitCompletes platform cache call) := holds_step platform holds call
  exact Run.guarded_iff agree preserved Holds.nil calls

end Runs

section Samples

/-- A git that lists a file's content as it is, and texts of ASCII characters. -/
def samplePlatform : Platform (List UInt8) where
  list bytes := (0, bytes)
  decode bytes := some (bytes.map fun byte => Char.ofNat byte.toNat)
  casefold text := text.map Char.toLower
  urlsplit _ := none
  digest := id
  digest_injective := Function.injective_id

/-- A repository whose configuration names a user. -/
def sampleFiles : FileSystem := fun path =>
  if path = ["repo", ".git", "config"] then
    .regular ⟨1, 1, 14, 0, 0, 33188⟩ (some (("user.name\nana".toList.map fun c => c.toNat.toUInt8) ++ [0]))
  else .missing

def sampleCall (maxOutputBytes : Int) : Call :=
  ⟨sampleFiles, ["repo", ".git"], ["repo", ".git"], 30, maxOutputBytes, true, true⟩

/-- A call with a smaller limit on the output is answered from the cache, which without it is refused. -/
theorem smaller_limit_answered :
    ((configurationIsUnsafe samplePlatform (step samplePlatform [] (sampleCall 1000)) (sampleCall 5)).2,
      (configurationIsUnsafe samplePlatform [] (sampleCall 5)).2) = (some false, some true) ∧
    ¬ Run.Guarded (step samplePlatform) (Transparent samplePlatform) [] [sampleCall 1000, sampleCall 5] := by
  have answers : ((configurationIsUnsafe samplePlatform (step samplePlatform [] (sampleCall 1000)) (sampleCall 5)).2,
      (configurationIsUnsafe samplePlatform [] (sampleCall 5)).2) = (some false, some true) := by decide +kernel
  refine ⟨answers, fun guarded => ?_⟩
  have second := guarded.2.1
  rw [Transparent, (Prod.mk.inj answers).1, (Prod.mk.inj answers).2] at second
  cases second

end Samples

end OpenTulpa.Evolution.GitSecurity
