import Mathlib
import OpenTulpa.Library.Outcome
import OpenTulpa.Library.Run
import OpenTulpa.Library.Splitting

/-! The extraction of an uploaded archive into files of the workspace. The names are those of plain relative paths, and both the
single file and the whole are bounded by what is really read. A member that can not be read is skipped, unless reading it
fails in one of two ways that the loop does not catch. -/

namespace OpenTulpa.DeepAgent.ZipExtraction

open Library Library.Outcome Library.Run Library.Splitting

section Model

/-- What opening an archive or reading a member can raise. -/
inductive ZipError where
  | badZipFile
  | notImplementedError
  | osError
  | runtimeError
  | zlibError
  | eofError
  deriving DecidableEq

/-- The handler around the reading of a member -/
def ZipError.caught : ZipError → Bool
  | .badZipFile | .notImplementedError | .osError | .runtimeError => true
  | .zlibError | .eofError => false

/-- A member as the directory of the archive lists it, with what reading it up to a number of bytes gives. -/
structure ZipInfo where
  filename : String
  flagBits : Nat
  fileSize : Int
  externalAttr : Nat
  read : Nat → Except ZipError (List UInt8)

structure Limits where
  maxFileBytes : Nat
  maxEntries : Nat := 512
  maxExpandedBytes : Nat := 128 * 1024 * 1024

structure ExtractedZip where
  files : List (String × List UInt8)
  skipped : List String

inductive ExtractionError where
  | valueError (message : String)
  | raised (error : ZipError)

def ZipInfo.isDir (info : ZipInfo) : Bool := ['/'].isSuffixOf info.filename.toList

/-- `info.filename or "unnamed member"` -/
def ZipInfo.label (info : ZipInfo) : String := if info.filename = "" then "unnamed member" else info.filename

/-- The parts of a relative `PurePosixPath` -/
def pathParts (raw : List Char) : List (List Char) :=
  (split ['/'] raw).filter fun part => part ≠ [] ∧ part ≠ ['.']

def fileType (externalAttr : Nat) : Nat := externalAttr >>> 16 &&& 0o170000

/-- `_safe_member_name` -/
def safeMemberName (info : ZipInfo) : Option String :=
  let raw := info.filename.toList.map fun c => if c = '\\' then '/' else c
  if raw = [] ∨ 4096 < raw.length ∨ raw.any (·.toNat < 32) then none
  else
    let parts := pathParts raw
    if raw.head? = some '/' ∨ parts = [] ∨ parts.contains ['.', '.'] then none
    else if (parts.head?.getD []).getLast? = some ':' ∨ 64 < parts.length then none
    else if fileType info.externalAttr ∉ [0, 0o100000] then none
    else some (String.ofList (['/'].intercalate parts))

/-- The lists of the loop; `contents` holds what the reads returned, for the statements. -/
structure Staging extends ExtractedZip where
  seen : List String
  expandedBytes : Nat
  contents : List (List UInt8)

def Staging.empty : Staging := ⟨⟨[], []⟩, [], 0, []⟩

def Staging.skip (staging : Staging) (name : String) : Staging := { staging with skipped := staging.skipped ++ [name] }

def Staging.read (staging : Staging) (content : List UInt8) : Staging :=
  { staging with
    expandedBytes := staging.expandedBytes + content.length
    contents := staging.contents ++ [content] }

def Staging.keep (staging : Staging) (name : String) (content : List UInt8) : Staging :=
  { staging with
    files := staging.files ++ [(name, content)]
    seen := staging.seen ++ [name] }

/-- `min(max_file_bytes + 1, max_expanded_bytes - expanded_bytes + 1)` -/
def Limits.readLimit (limits : Limits) (expandedBytes : Nat) : Nat :=
  min (limits.maxFileBytes + 1) (limits.maxExpandedBytes - expandedBytes + 1)

/-- One pass of the loop -/
def stageEntry (limits : Limits) (staging : Staging) (info : ZipInfo) : Except ExtractionError Staging :=
  if info.isDir then .ok staging
  else
    match safeMemberName info with
    | none => .ok (staging.skip info.label)
    | some memberName =>
      if memberName ∈ staging.seen then .ok (staging.skip info.label)
      else if info.flagBits % 2 = 1 ∨ limits.maxFileBytes < info.fileSize then .ok (staging.skip memberName)
      else
        match info.read (limits.readLimit staging.expandedBytes) with
        | .error error => if error.caught then .ok (staging.skip memberName) else .error (.raised error)
        | .ok content =>
          let staging := staging.read content
          if limits.maxExpandedBytes < staging.expandedBytes then
            .error (.valueError "ZIP archive expands beyond the sandbox limit")
          else if limits.maxFileBytes < content.length then .ok (staging.skip memberName)
          else .ok (staging.keep memberName content)

def stageEntries (limits : Limits) : Staging → List ZipInfo → Except ExtractionError Staging
  | staging, [] => .ok staging
  | staging, info :: infos => do
    let staging ← stageEntry limits staging info
    stageEntries limits staging infos

/-- `extract_zip_files` up to its result; the archive is its members, or what opening it raises. -/
def stageArchive (limits : Limits) (archive : Except ZipError (List ZipInfo)) : Except ExtractionError Staging :=
  match archive with
  | .error .badZipFile => .error (.valueError "attachment is not a valid ZIP archive")
  | .error error => .error (.raised error)
  | .ok infos =>
    if limits.maxEntries < infos.length then
      .error (.valueError s!"ZIP archive has more than {limits.maxEntries} entries")
    else if limits.maxExpandedBytes < (infos.map fun info => max 0 info.fileSize).sum then
      .error (.valueError "ZIP archive expands beyond the sandbox limit")
    else stageEntries limits .empty infos

/-- `extract_zip_files` -/
def extractZipFiles (limits : Limits) (archive : Except ZipError (List ZipInfo)) : Except ExtractionError ExtractedZip :=
  (stageArchive limits archive).map Staging.toExtractedZip

end Model

section Names

/-- A relative path with plain components only. -/
structure SafeName (name : String) : Prop where
  relative : name.toList.head? ≠ some '/'
  plain : ∀ part ∈ split ['/'] name.toList, part ≠ [] ∧ part ≠ ['.'] ∧ part ≠ ['.', '.']
  visible : ∀ c ∈ name.toList, 32 ≤ c.toNat

theorem mem_pathParts {raw part : List Char} (member : part ∈ pathParts raw) :
    (part ≠ [] ∧ part ≠ ['.']) ∧ '/' ∉ part ∧ part ⊆ raw := by
  obtain ⟨listed, plain⟩ := List.mem_filter.mp member
  exact ⟨by simpa using plain, mem_split_single listed⟩

theorem mem_intercalate {c d : Char} {parts : List (List Char)} (member : d ∈ [c].intercalate parts) :
    d = c ∨ ∃ part ∈ parts, d ∈ part := by
  induction parts with
  | nil => cases member
  | cons part parts ih =>
    cases parts with
    | nil => exact Or.inr ⟨part, List.mem_cons_self, by simpa using member⟩
    | cons second parts =>
      rw [List.intercalate_cons_cons, List.append_assoc, List.mem_append, List.singleton_append, List.mem_cons] at member
      rcases member with own | rfl | later
      · exact Or.inr ⟨part, List.mem_cons_self, own⟩
      · exact Or.inl rfl
      · exact (ih later).imp_right fun ⟨other, listed, inside⟩ => ⟨other, List.mem_cons_of_mem _ listed, inside⟩

theorem safeName_of_parts {raw : List Char} (filled : pathParts raw ≠ []) (up : ['.', '.'] ∉ pathParts raw)
    (visible : ∀ c ∈ raw, 32 ≤ c.toNat) : SafeName (String.ofList (['/'].intercalate (pathParts raw))) := by
  have whole : split ['/'] (['/'].intercalate (pathParts raw)) = pathParts raw :=
    split_intercalate filled fun part member => (mem_pathParts member).2.1
  refine ⟨?_, ?_, ?_⟩ <;> rw [String.toList_ofList]
  · obtain ⟨part, parts, same⟩ := List.exists_cons_of_ne_nil filled
    have own := mem_pathParts (same ▸ List.mem_cons_self : part ∈ pathParts raw)
    obtain ⟨c, rest, rfl⟩ := List.exists_cons_of_ne_nil own.1.1
    have first : (['/'].intercalate ((c :: rest) :: parts)).head? = some c := by
      cases parts <;> simp [List.intercalate_cons_cons]
    rw [same, first]
    rintro slash
    obtain rfl := Option.some.inj slash
    exact own.2.1 List.mem_cons_self
  · rw [whole]
    intro part member
    have own := (mem_pathParts member).1
    exact ⟨own.1, own.2, fun double => up (double ▸ member)⟩
  · intro c member
    rcases mem_intercalate member with rfl | ⟨part, listed, inside⟩
    · decide
    · exact visible c ((mem_pathParts listed).2.2 inside)

theorem safeMemberName_safe {info : ZipInfo} {name : String} (named : safeMemberName info = some name) : SafeName name := by
  simp only [safeMemberName] at named
  split_ifs at named with unfit absolute drive special
  obtain rfl := Option.some.inj named
  rw [not_or, not_or] at unfit absolute
  rw [List.contains_iff_mem] at absolute
  refine safeName_of_parts absolute.2.1 absolute.2.2 fun c member => ?_
  have below := unfit.2.2
  simp only [List.any_eq_true, decide_eq_true_eq, not_exists, not_and, Nat.not_lt] at below
  exact below c member

end Names

section Passes

/-- A member goes to the files, under its name and with what was read, or to the skipped, under its name or its label. -/
def AccountsFor (info : ZipInfo) : (String × List UInt8) ⊕ String → Prop
  | .inl (name, content) => safeMemberName info = some name ∧ ∃ limit, info.read limit = .ok content
  | .inr label => label = info.label ∨ safeMemberName info = some label

variable (limits : Limits)

/-- What holds of the lists after every pass. -/
structure Staging.Sound (staging : Staging) : Prop where
  seen : staging.seen = staging.files.map Prod.fst
  distinct : staging.seen.Nodup
  safe : ∀ name ∈ staging.seen, SafeName name
  fits : ∀ file ∈ staging.files, file.2.length ≤ limits.maxFileBytes
  counted : staging.expandedBytes = (staging.contents.map List.length).sum
  bounded : staging.expandedBytes ≤ limits.maxExpandedBytes

theorem sound_empty : Staging.empty.Sound limits :=
  ⟨rfl, List.nodup_nil, nofun, nofun, rfl, Nat.zero_le _⟩

/-- The entries that stand for themselves. -/
def members (infos : List ZipInfo) : List ZipInfo := infos.filter fun info => !info.isDir

/-- The name under which a pass asks for the bytes of a member, when the names were kept before. -/
def asked (names : List String) (info : ZipInfo) : Option String :=
  if info.isDir then none
  else (safeMemberName info).filter fun name =>
    decide (name ∉ names ∧ ¬ (info.flagBits % 2 = 1 ∨ limits.maxFileBytes < info.fileSize))

variable {limits} {staging next : Staging} {info : ZipInfo}

/-- The ways a pass can go, with the request it makes. -/
inductive Pass (limits : Limits) (staging : Staging) (info : ZipInfo) : Except ExtractionError Staging → Prop where
  | directory (isDir : info.isDir = true) (unasked : asked limits staging.seen info = none) : Pass limits staging info (.ok staging)
  | refused (label : String) (own : AccountsFor info (.inr label)) (unasked : asked limits staging.seen info = none)
      (member : info.isDir = false) : Pass limits staging info (.ok (staging.skip label))
  | unread (name : String) (asks : asked limits staging.seen info = some name) (error : ZipError)
      (fails : info.read (limits.readLimit staging.expandedBytes) = .error error) (caught : error.caught = true) :
      Pass limits staging info (.ok (staging.skip name))
  | escaped (name : String) (asks : asked limits staging.seen info = some name) (error : ZipError)
      (fails : info.read (limits.readLimit staging.expandedBytes) = .error error) (uncaught : error.caught = false) :
      Pass limits staging info (.error (.raised error))
  | exhausted (name : String) (asks : asked limits staging.seen info = some name) (content : List UInt8)
      (reads : info.read (limits.readLimit staging.expandedBytes) = .ok content)
      (beyond : limits.maxExpandedBytes < staging.expandedBytes + content.length) (message : String) :
      Pass limits staging info (.error (.valueError message))
  | oversized (name : String) (asks : asked limits staging.seen info = some name) (content : List UInt8)
      (reads : info.read (limits.readLimit staging.expandedBytes) = .ok content)
      (within : staging.expandedBytes + content.length ≤ limits.maxExpandedBytes)
      (long : limits.maxFileBytes < content.length) : Pass limits staging info (.ok ((staging.read content).skip name))
  | kept (name : String) (asks : asked limits staging.seen info = some name) (content : List UInt8)
      (reads : info.read (limits.readLimit staging.expandedBytes) = .ok content)
      (within : staging.expandedBytes + content.length ≤ limits.maxExpandedBytes)
      (fits : content.length ≤ limits.maxFileBytes) : Pass limits staging info (.ok ((staging.read content).keep name content))

theorem stageEntry_pass : Pass limits staging info (stageEntry limits staging info) := by
  unfold stageEntry
  split
  · rename_i isDir
    exact .directory isDir (if_pos isDir)
  · rename_i member
    have member : info.isDir = false := by simpa using member
    have request : asked limits staging.seen info = (safeMemberName info).filter fun name =>
        decide (name ∉ staging.seen ∧ ¬ (info.flagBits % 2 = 1 ∨ limits.maxFileBytes < info.fileSize)) := by
      rw [asked, if_neg (by simp [member])]
    split
    · rename_i unnamed
      exact .refused _ (Or.inl rfl) (by rw [request, unnamed]; rfl) member
    · rename_i name named
      rw [named] at request
      split_ifs with twice plain
      · exact .refused _ (Or.inl rfl) (by simp [request, twice]) member
      · exact .refused _ (Or.inr named) (by simp [request, plain]) member
      · have asks : asked limits staging.seen info = some name := by
          rw [request, Option.filter_some, if_pos (by simp [twice, plain])]
        split
        · rename_i error fails
          split
          · exact .unread name asks error fails ‹_›
          · exact .escaped name asks error fails (by simpa using ‹¬ error.caught = true›)
        · rename_i content reads
          dsimp only
          split
          · rename_i beyond
            exact .exhausted name asks content reads beyond _
          · rename_i within
            split
            · rename_i long
              exact .oversized name asks content reads (Nat.not_lt.mp within) long
            · rename_i fits
              exact .kept name asks content reads (Nat.not_lt.mp within) (Nat.not_lt.mp fits)

theorem named_of_asked {names : List String} {name : String} (asks : asked limits names info = some name) :
    info.isDir = false ∧ safeMemberName info = some name ∧ name ∉ names := by
  unfold asked at asks
  split at asks
  · cases asks
  · rename_i member
    obtain ⟨named, fresh⟩ := Option.filter_eq_some_iff.mp asks
    exact ⟨by simpa using member, named, (of_decide_eq_true fresh).1⟩

theorem Staging.Sound.pass (sound : staging.Sound limits) {result : Except ExtractionError Staging}
    (pass : Pass limits staging info result) (done : result = .ok next) : next.Sound limits := by
  obtain ⟨seen, distinct, safe, fits, counted, bounded⟩ := sound
  cases pass with
  | directory | refused | unread => 
    obtain rfl := Except.ok.inj done
    exact ⟨seen, distinct, safe, fits, counted, bounded⟩
  | escaped | exhausted => cases done
  | oversized name asks content reads within long =>
    obtain rfl := Except.ok.inj done
    refine ⟨seen, distinct, safe, fits, ?_, within⟩
    simp [Staging.read, Staging.skip, counted]
  | kept name asks content reads within short =>
    obtain rfl := Except.ok.inj done
    obtain ⟨-, named, fresh⟩ := named_of_asked asks
    refine ⟨by simp [Staging.keep, Staging.read, seen], ?_, ?_, ?_, by simp [Staging.keep, Staging.read, counted], within⟩
    · exact List.Nodup.append distinct (List.nodup_singleton name) (by simpa [Staging.read] using fresh)
    · exact List.forall_mem_append.mpr ⟨safe, by simpa using safeMemberName_safe named⟩
    · exact List.forall_mem_append.mpr ⟨fits, by simpa using short⟩

/-- The accounts of the members that were passed explain what came to the lists. -/
def Accounted (infos : List ZipInfo) (staging next : Staging) : Prop :=
  ∃ accounts, List.Forall₂ AccountsFor (members infos) accounts ∧
    next.files = staging.files ++ accounts.filterMap Sum.getLeft? ∧
    next.skipped = staging.skipped ++ accounts.filterMap Sum.getRight?

theorem accounted_pass {result : Except ExtractionError Staging} (pass : Pass limits staging info result)
    (done : result = .ok next) : Accounted [info] staging next := by
  have member {name : String} (asks : asked limits staging.seen info = some name) : members [info] = [info] := by
    simp [members, (named_of_asked asks).1]
  cases pass with
  | directory isDir =>
    obtain rfl := Except.ok.inj done
    exact ⟨[], by simp [members, isDir], by simp, by simp⟩
  | refused label own unasked plain =>
    obtain rfl := Except.ok.inj done
    exact ⟨[.inr label], by simp [members, plain, own], by simp [Staging.skip], by simp [Staging.skip]⟩
  | unread name asks =>
    obtain rfl := Except.ok.inj done
    have own : AccountsFor info (.inr name) := Or.inr (named_of_asked asks).2.1
    exact ⟨[.inr name], by simp [member asks, own], by simp [Staging.skip], by simp [Staging.skip]⟩
  | escaped | exhausted => cases done
  | oversized name asks content =>
    obtain rfl := Except.ok.inj done
    have own : AccountsFor info (.inr name) := Or.inr (named_of_asked asks).2.1
    exact ⟨[.inr name], by simp [member asks, own], by simp [Staging.skip, Staging.read], by simp [Staging.skip, Staging.read]⟩
  | kept name asks content reads =>
    obtain rfl := Except.ok.inj done
    have own : AccountsFor info (.inl (name, content)) := ⟨(named_of_asked asks).2.1, _, reads⟩
    exact ⟨[.inl (name, content)], by simp [member asks, own], by simp [Staging.keep, Staging.read],
      by simp [Staging.keep, Staging.read]⟩

theorem Accounted.trans {first second : List ZipInfo} {middle : Staging} (before : Accounted first staging middle)
    (after : Accounted second middle next) : Accounted (first ++ second) staging next := by
  obtain ⟨accounts, own, files, skipped⟩ := before
  obtain ⟨accounts', own', files', skipped'⟩ := after
  refine ⟨accounts ++ accounts', ?_, ?_, ?_⟩
  · rw [members, List.filter_append]
    exact List.rel_append own own'
  · rw [files', files, List.filterMap_append, List.append_assoc]
  · rw [skipped', skipped, List.filterMap_append, List.append_assoc]

/-- What a whole run of the loop leaves. -/
theorem stageEntries_ok {infos : List ZipInfo} (sound : staging.Sound limits)
    (done : stageEntries limits staging infos = .ok next) : next.Sound limits ∧ Accounted infos staging next := by
  induction infos generalizing staging with
  | nil =>
    obtain rfl := Except.ok.inj done
    exact ⟨sound, [], List.Forall₂.nil, by simp, by simp⟩
  | cons info infos ih =>
    obtain ⟨middle, first, rest⟩ := bind_eq_ok done
    obtain ⟨still, accounted⟩ := ih (sound.pass stageEntry_pass first) rest
    exact ⟨still, (accounted_pass stageEntry_pass first).trans accounted⟩

end Passes

section Escapes

variable (limits : Limits)

/-- The names kept and the bytes read so far, whether or not they exceed the bound. -/
structure Progress where
  names : List String
  bytes : Nat

/-- What a member adds to them. -/
def advance (progress : Progress) (info : ZipInfo) : Progress :=
  match asked limits progress.names info with
  | none => progress
  | some name =>
    match info.read (limits.readLimit progress.bytes) with
    | .error _ => progress
    | .ok content =>
      ⟨if content.length ≤ limits.maxFileBytes then progress.names ++ [name] else progress.names,
        progress.bytes + content.length⟩

/-- While the bound is kept, a member that is asked for can be read, or fails in a way that is caught. -/
def ReadOrCaught (progress : Progress) (info : ZipInfo) : Prop :=
  progress.bytes ≤ limits.maxExpandedBytes → asked limits progress.names info ≠ none →
    ∀ error, info.read (limits.readLimit progress.bytes) = .error error → error.caught = true

def Staging.progress (staging : Staging) : Progress := ⟨staging.seen, staging.expandedBytes⟩

variable {limits}

theorem bytes_le_advance (progress : Progress) (info : ZipInfo) : progress.bytes ≤ (advance limits progress info).bytes := by
  unfold advance
  split
  · exact Nat.le_refl _
  · split
    · exact Nat.le_refl _
    · exact Nat.le_add_right _ _

/-- Beyond the bound nothing is asked any more. -/
theorem guarded_beyond {progress : Progress} (beyond : limits.maxExpandedBytes < progress.bytes) (infos : List ZipInfo) :
    Guarded (advance limits) (ReadOrCaught limits) progress infos := by
  induction infos generalizing progress with
  | nil => trivial
  | cons info infos ih =>
    exact ⟨fun within => absurd within (Nat.not_le.mpr beyond), ih (Nat.lt_of_lt_of_le beyond (bytes_le_advance progress info))⟩

theorem progress_pass {staging next : Staging} {info : ZipInfo} {result : Except ExtractionError Staging}
    (pass : Pass limits staging info result) (done : result = .ok next) :
    next.progress = advance limits staging.progress info ∧ ReadOrCaught limits staging.progress info := by
  cases pass with
  | directory isDir unasked =>
    obtain rfl := Except.ok.inj done
    exact ⟨by simp [advance, Staging.progress, unasked], fun _ asks => absurd unasked asks⟩
  | refused label own unasked =>
    obtain rfl := Except.ok.inj done
    exact ⟨by simp [advance, Staging.progress, Staging.skip, unasked], fun _ asks => absurd unasked asks⟩
  | unread name asks error fails caught =>
    obtain rfl := Except.ok.inj done
    refine ⟨by simp [advance, Staging.progress, Staging.skip, asks, fails], fun _ _ other same => ?_⟩
    obtain rfl := Except.error.inj (fails.symm.trans same)
    exact caught
  | escaped | exhausted => cases done
  | oversized name asks content reads within long =>
    obtain rfl := Except.ok.inj done
    refine ⟨by simp [advance, Staging.progress, Staging.skip, Staging.read, asks, reads, Nat.not_le.mpr long], ?_⟩
    exact fun _ _ error fails => absurd (reads.symm.trans fails) nofun
  | kept name asks content reads within short =>
    obtain rfl := Except.ok.inj done
    refine ⟨by simp [advance, Staging.progress, Staging.keep, Staging.read, asks, reads, short], ?_⟩
    exact fun _ _ error fails => absurd (reads.symm.trans fails) nofun

/-- The loop lets no error of a read out exactly when every read that it comes to succeeds or is caught. -/
theorem raised_iff {staging : Staging} (sound : staging.Sound limits) (infos : List ZipInfo) :
    (∀ error, stageEntries limits staging infos ≠ .error (.raised error)) ↔
      Guarded (advance limits) (ReadOrCaught limits) staging.progress infos := by
  induction infos generalizing staging with
  | nil => exact ⟨fun _ => trivial, fun _ _ => nofun⟩
  | cons info infos ih =>
    have pass : Pass limits staging info (stageEntry limits staging info) := stageEntry_pass
    rw [stageEntries]
    cases first : stageEntry limits staging info with
    | ok next =>
      obtain ⟨same, own⟩ := progress_pass pass first
      rw [ok_bind, ih (sound.pass pass first), same]
      exact ⟨fun later => ⟨own, later⟩, fun whole => whole.2⟩
    | error stopped =>
      rw [first] at pass
      rw [error_bind]
      cases pass with
      | escaped name asks error fails uncaught =>
        refine ⟨fun none_ => absurd rfl (none_ error), fun whole => ?_⟩
        have caught := whole.1 sound.bounded (fun empty => by rw [Staging.progress, asks] at empty; cases empty) error fails
        rw [uncaught] at caught
        cases caught
      | exhausted name asks content reads beyond message =>
        refine ⟨fun _ => ⟨fun _ _ error fails => absurd (reads.symm.trans fails) nofun, guarded_beyond ?_ infos⟩, fun _ _ => nofun⟩
        simpa [advance, Staging.progress, asks, reads] using beyond

end Escapes

section Results

variable (limits : Limits) (archive : Except ZipError (List ZipInfo))

/-- What an extraction may come to: a `ValueError`, or a result that accounts for every member once, with distinct safe names
and contents within the bounds of a file and of the whole. -/
def Staged : Prop :=
  match stageArchive limits archive with
  | .error (.valueError _) => True
  | .error (.raised _) => False
  | .ok staging => ∃ infos, archive = .ok infos ∧ extractZipFiles limits archive = .ok staging.toExtractedZip ∧
    Accounted infos .empty staging ∧
    (staging.files.map Prod.fst).Nodup ∧ (∀ file ∈ staging.files, SafeName file.1) ∧
    (∀ file ∈ staging.files, file.2.length ≤ limits.maxFileBytes) ∧
    (staging.contents.map List.length).sum ≤ limits.maxExpandedBytes

/-- Opening the archive fails as for a file that is none, if it fails. Where the listed entries are within the bounds, each read
that the loop comes to succeeds or is caught. -/
def ErrorsCaught : Prop :=
  match archive with
  | .error error => error = .badZipFile
  | .ok infos => infos.length ≤ limits.maxEntries →
    (infos.map fun info => max 0 info.fileSize).sum ≤ limits.maxExpandedBytes →
    Guarded (advance limits) (ReadOrCaught limits) ⟨[], 0⟩ infos

variable {limits} {infos : List ZipInfo}

/-- What the loop returns on the listed entries is sound. -/
theorem staged_of_ok {staging : Staging} (done : stageArchive limits (.ok infos) = .ok staging) :
    Staged limits (.ok infos) := by
  have loop : stageEntries limits .empty infos = .ok staging := by
    simp only [stageArchive] at done
    split_ifs at done
    exact done
  obtain ⟨sound, accounted⟩ := stageEntries_ok (sound_empty limits) loop
  rw [Staged, done]
  refine ⟨infos, rfl, by rw [extractZipFiles, done]; rfl, accounted, sound.seen ▸ sound.distinct, fun file member => ?_,
    sound.fits, sound.counted ▸ sound.bounded⟩
  exact sound.safe file.1 (sound.seen ▸ List.mem_map_of_mem member)

theorem raised_of_staged (staged : Staged limits archive) (error : ZipError) : stageArchive limits archive ≠ .error (.raised error) := by
  intro raised
  rw [Staged, raised] at staged
  exact staged

theorem staged_of_not_raised (none_ : ∀ error, stageArchive limits (.ok infos) ≠ .error (.raised error)) :
    Staged limits (.ok infos) := by
  cases result : stageArchive limits (.ok infos) with
  | ok staging => exact staged_of_ok result
  | error stopped =>
    cases stopped with
    | valueError message =>
      rw [Staged, result]
      trivial
    | raised error => exact absurd result (none_ error)

end Results

section Samples

def damaged : ZipInfo where
  filename := "notes.txt"
  flagBits := 0
  fileSize := 12
  externalAttr := 0
  read _ := .error .zlibError

end Samples

end OpenTulpa.DeepAgent.ZipExtraction
