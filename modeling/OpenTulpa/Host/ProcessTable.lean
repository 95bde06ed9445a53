import OpenTulpa.Library.Caching
import OpenTulpa.Library.Characters
import OpenTulpa.Library.Outcome
import OpenTulpa.Library.Words

/-! The table of the processes of a machine. The status record of a process holds its name, which the process chooses, as
free bytes between parentheses; the record is read as ASCII text, and the scan catches no error of that decoding. -/

namespace OpenTulpa.Host.ProcessTable

open Library Library.Text Library.Words

section Model

inductive OsError where
  | fileNotFound
  | other (errorType : String) (errno : Int)
  deriving DecidableEq

inductive InspectionError where
  | os (error : OsError)
  | runtimeUnavailable (message : String)
  | unicodeDecode
  deriving DecidableEq

structure LinuxProcessMetadata where
  parentPid : Nat
  processGroup : Nat
  processBirth : String
  procUid : Nat
  deriving DecidableEq

/-- `bytes.decode("ascii")` -/
def decodeAscii (content : List UInt8) : Except InspectionError (List Char) :=
  if content.all fun byte => byte < 128 then .ok (content.map fun byte => Char.ofNat byte.toNat) else .error .unicodeDecode

/-- The line ends of a file that is read as text. -/
def universalNewlines : List Char → List Char
  | [] => []
  | '\r' :: '\n' :: rest => '\n' :: universalNewlines rest
  | '\r' :: rest => '\n' :: universalNewlines rest
  | c :: rest => c :: universalNewlines rest

/-- `read_text(encoding="ascii")` of a file with the content, if it can be read. -/
def readText (file : Except OsError (List UInt8)) : Except InspectionError (List Char) :=
  match file with
  | .error error => .error (.os error)
  | .ok content => (decodeAscii content).map universalNewlines

def isdigit (text : List Char) : Bool := !text.isEmpty && text.all Char.isDigit

def int (digits : List Char) : Nat := Nat.ofDigitChars 10 digits 0

/-- `_linux_process_metadata` -/
def linuxProcessMetadata (stat : Except OsError (List UInt8)) : Except InspectionError (Nat × Nat × String) := do
  let rawStat ← readText stat
  let fields := ((afterLast ')' rawStat).map fun rest => words (rest.drop 1)).getD []
  match fields[1]?, fields[2]?, fields[19]? with
  | some parentPid, some processGroup, some startTime =>
    if isdigit parentPid && isdigit processGroup && isdigit startTime then
      .ok (int parentPid, int processGroup, "linux:" ++ String.ofList startTime)
    else .error (.runtimeUnavailable "runtime process start time is invalid")
  | _, _, _ => .error (.runtimeUnavailable "runtime process start time is invalid")

/-- `_process_inspection_error` -/
def processInspectionError : InspectionError → String
  | .os .fileNotFound => "FileNotFoundError, errno=2"
  | .os (.other errorType errno) => errorType ++ ", errno=" ++ toString errno
  | .runtimeUnavailable _ => "RuntimeUnavailableError"
  | .unicodeDecode => "UnicodeDecodeError"

/-- An entry of the directory, with what reading its status record and its owner gives. -/
structure ProcEntry where
  name : List Char
  stat : Except OsError (List UInt8)
  uid : Except OsError Nat

def entryMetadata (entry : ProcEntry) : Except InspectionError LinuxProcessMetadata := do
  let (parentPid, processGroup, processBirth) ← linuxProcessMetadata entry.stat
  match entry.uid with
  | .error error => .error (.os error)
  | .ok procUid => .ok ⟨parentPid, processGroup, processBirth, procUid⟩

def scanEntries : List (Nat × LinuxProcessMetadata) → List ProcEntry →
    Except InspectionError (List (Nat × LinuxProcessMetadata))
  | processes, [] => .ok processes
  | processes, entry :: entries =>
    if !isdigit entry.name then scanEntries processes entries
    else
      match entryMetadata entry with
      | .ok metadata => scanEntries (Caching.store processes (int entry.name) metadata) entries
      | .error (.os .fileNotFound) => scanEntries processes entries
      | .error .unicodeDecode => .error .unicodeDecode
      | .error error =>
        .error (.runtimeUnavailable ("Linux process table containment could not be proven for pid " ++
          String.ofList entry.name ++ " (" ++ processInspectionError error ++ ")"))

/-- `_linux_process_table` -/
def linuxProcessTable (listing : Except OsError (List ProcEntry)) :
    Except InspectionError (List (Nat × LinuxProcessMetadata)) :=
  match listing with
  | .error _ => .error (.runtimeUnavailable "Linux process table could not be enumerated")
  | .ok entries => scanEntries [] entries

end Model

section Kernel

/-- A number as the kernel writes it. -/
def decimal : Int → List Char
  | .ofNat number => Nat.toDigits 10 number
  | .negSucc number => '-' :: Nat.toDigits 10 (number + 1)

/-- The status record of a process: between its group and its start time stand sixteen numbers, and more behind. -/
structure StatRecord where
  pid : Nat
  comm : List UInt8
  state : Char
  ppid : Nat
  pgrp : Nat
  between : List Int
  starttime : Nat
  behind : List Int
  named : (0 : UInt8) ∉ comm
  letter : state.isAlpha = true
  sixteen : between.length = 16

namespace StatRecord

/-- The fields behind the name. -/
def fields (record : StatRecord) : List (List Char) :=
  [record.state] :: Nat.toDigits 10 record.ppid :: Nat.toDigits 10 record.pgrp :: record.between.map decimal ++
    Nat.toDigits 10 record.starttime :: record.behind.map decimal

def ascii (text : List Char) : List UInt8 := text.map fun c => UInt8.ofNat c.toNat

/-- `pid (comm) state ppid pgrp ...` -/
def content (record : StatRecord) : List UInt8 :=
  ascii (Nat.toDigits 10 record.pid ++ [' ', '(']) ++ record.comm ++
    ascii (')' :: (record.fields.flatMap (' ' :: ·) ++ ['\n']))

/-- Every byte of the name is a character of ASCII. -/
def Ascii (record : StatRecord) : Prop := ∀ byte ∈ record.comm, byte < 128

variable (record : StatRecord)

theorem toNat_decodedAscii {c : Char} (low : c.toNat < 128) : Char.ofNat (UInt8.ofNat c.toNat).toNat = c := by
  have fits : c.toNat % 256 = c.toNat := Nat.mod_eq_of_lt (by omega)
  rw [UInt8.toNat_ofNat', fits, Char.ofNat_toNat]

theorem decode_ascii {text : List Char} (low : ∀ c ∈ text, c.toNat < 128) :
    (ascii text).map (fun byte => Char.ofNat byte.toNat) = text := by
  rw [ascii, List.map_map]
  exact (List.map_congr_left fun c member => toNat_decodedAscii (low c member)).trans (List.map_id text)

theorem ascii_lt {text : List Char} (low : ∀ c ∈ text, c.toNat < 128) : ∀ byte ∈ ascii text, byte < 128 := by
  intro byte member
  obtain ⟨c, inside, rfl⟩ := List.mem_map.mp member
  have small := low c inside
  have fits : c.toNat % 256 = c.toNat := Nat.mod_eq_of_lt (by omega)
  rw [UInt8.lt_iff_toNat_lt, UInt8.toNat_ofNat', fits]
  exact small

/-- A character of the fields: visible, of ASCII, and no parenthesis. -/
structure FieldChar (c : Char) : Prop where
  low : c.toNat < 128
  visible : isSpace c = false
  apart : c ≠ ')'

theorem fieldChar_of_isDigit {c : Char} (digit : c.isDigit = true) : FieldChar c where
  low := by
    have bounds := Char.isDigit_iff_toNat.mp digit
    have high : ('9' : Char).toNat = 57 := rfl
    omega
  visible := isSpace_of_isDigit digit
  apart := by
    rintro rfl
    cases digit

theorem fieldChar_of_isAlpha {c : Char} (letter : c.isAlpha = true) : FieldChar c := by
  rw [Characters.isAlpha_eq, Bool.or_eq_true, Characters.isUpper_iff, Characters.isLower_iff] at letter
  refine ⟨by omega, ?_, ?_⟩
  · simp only [isSpace, Bool.or_eq_false_iff, Bool.and_eq_false_iff, decide_eq_false_iff_not, beq_eq_false_iff_ne]
    omega
  · rintro rfl
    have paren : (')' : Char).toNat = 41 := rfl
    omega

theorem isDigit_of_mem_toDigits {number : Nat} {c : Char} (member : c ∈ Nat.toDigits 10 number) : c.isDigit = true :=
  Nat.isDigit_of_mem_toDigits (by decide) (by decide) member

theorem decimal_spec (number : Int) : decimal number ≠ [] ∧ ∀ c ∈ decimal number, FieldChar c := by
  cases number with
  | ofNat number => exact ⟨Nat.toDigits_ne_nil, fun c member => fieldChar_of_isDigit (isDigit_of_mem_toDigits member)⟩
  | negSucc number =>
    refine ⟨List.cons_ne_nil _ _, fun c member => ?_⟩
    rcases List.mem_cons.mp member with rfl | digit
    · exact ⟨by decide, by decide, by decide⟩
    · exact fieldChar_of_isDigit (isDigit_of_mem_toDigits digit)

theorem fields_spec : ∀ field ∈ record.fields, field ≠ [] ∧ ∀ c ∈ field, FieldChar c := by
  have digits (number : Nat) : Nat.toDigits 10 number ≠ [] ∧ ∀ c ∈ Nat.toDigits 10 number, FieldChar c :=
    decimal_spec (.ofNat number)
  intro field member
  simp only [fields, List.mem_cons, List.mem_append, List.mem_map] at member
  rcases member with (rfl | rfl | rfl | ⟨number, -, rfl⟩) | rfl | ⟨number, -, rfl⟩
  · refine ⟨List.cons_ne_nil _ _, fun c member => ?_⟩
    rw [List.mem_singleton.mp member]
    exact fieldChar_of_isAlpha record.letter
  · exact digits record.ppid
  · exact digits record.pgrp
  · exact decimal_spec number
  · exact digits record.starttime
  · exact decimal_spec number

/-- What stands behind the last parenthesis. -/
def rest : List Char := record.fields.flatMap (' ' :: ·) ++ ['\n']

theorem rest_spec : ∀ c ∈ record.rest, c.toNat < 128 ∧ c ≠ ')' ∧ c ≠ '\r' := by
  intro c member
  rcases List.mem_append.mp member with inside | last
  · obtain ⟨field, listed, held⟩ := List.mem_flatMap.mp inside
    rcases List.mem_cons.mp held with rfl | own
    · decide
    · have char := (record.fields_spec field listed).2 c own
      refine ⟨char.low, char.apart, ?_⟩
      rintro rfl
      exact absurd char.visible (by decide)
  · rw [List.mem_singleton.mp last]
    decide

theorem words_rest : words record.rest = record.fields :=
  wordsFrom_separated (fun field listed => ⟨(record.fields_spec field listed).1,
    fun c member => ((record.fields_spec field listed).2 c member).visible⟩) (by decide) (by decide) []

theorem words_drop_rest : words (record.rest.drop 1) = record.fields := by
  have blank : ∀ text : List Char, words (' ' :: text) = words text := fun text => rfl
  rw [← words_rest]
  exact (blank (record.rest.drop 1)).symm

end StatRecord

theorem universalNewlines_of_not_mem {text : List Char} (absent : '\r' ∉ text) : universalNewlines text = text := by
  induction text using universalNewlines.induct with
  | case1 => rfl
  | case2 => simp at absent
  | case3 => simp at absent
  | case4 c rest _ _ ih =>
    rw [List.mem_cons, not_or] at absent
    rw [universalNewlines.eq_4, ih absent.2]
    · rintro _ rfl
      exact absurd rfl absent.1
    · rintro rfl
      exact absurd rfl absent.1

theorem universalNewlines_append (front rest : List Char) {c : Char} (inner : c ≠ '\n') :
    universalNewlines (front ++ c :: rest) = universalNewlines front ++ universalNewlines (c :: rest) := by
  induction front using universalNewlines.induct with
  | case1 => rfl
  | case2 front ih => simp [universalNewlines, ih]
  | case3 front apart ih =>
    have still : ∀ later, front ++ c :: rest ≠ '\n' :: later := by
      intro later same
      cases front with
      | nil => exact inner (List.cons.inj same).1
      | cons d front => exact apart front (by rw [(List.cons.inj same).1])
    rw [List.cons_append, universalNewlines.eq_3 _ still, universalNewlines.eq_3 _ apart, ih, List.cons_append]
  | case4 d front paired single ih =>
    have still : ∀ later, d = '\r' → front ++ c :: rest = '\n' :: later → False := fun _ same _ => single same
    rw [List.cons_append, universalNewlines.eq_4 _ _ still single, universalNewlines.eq_4 _ _ paired single, ih,
      List.cons_append]

theorem decodeAscii_of_lt {content : List UInt8} (low : ∀ byte ∈ content, byte < 128) :
    decodeAscii content = .ok (content.map fun byte => Char.ofNat byte.toNat) :=
  if_pos (by simpa using low)

theorem decodeAscii_of_not {content : List UInt8} (high : ¬ ∀ byte ∈ content, byte < 128) :
    decodeAscii content = .error .unicodeDecode :=
  if_neg (by simpa using high)

variable {record : StatRecord}

/-- A name outside of ASCII is not decoded. -/
theorem metadata_of_not_ascii (high : ¬ record.Ascii) :
    linuxProcessMetadata (.ok record.content) = .error .unicodeDecode := by
  have undecoded : ¬ ∀ byte ∈ record.content, byte < 128 := fun low =>
    high fun byte member => low byte (by simp [StatRecord.content, member])
  rw [linuxProcessMetadata, readText, decodeAscii_of_not undecoded]
  rfl

/-- Whatever characters of ASCII are in the name, what is read begins behind its last parenthesis. -/
theorem readText_content (low : record.Ascii) :
    ∃ front, readText (.ok record.content) = .ok (front ++ ')' :: record.rest) := by
  have before : ∀ c ∈ Nat.toDigits 10 record.pid ++ [' ', '('], c.toNat < 128 := by
    intro c member
    rcases List.mem_append.mp member with digit | opening
    · exact (StatRecord.fieldChar_of_isDigit (StatRecord.isDigit_of_mem_toDigits digit)).low
    · have listed : ∀ c ∈ [' ', '('], c.toNat < 128 := by decide
      exact listed c opening
  have behind : ∀ c ∈ ')' :: record.rest, c.toNat < 128 :=
    List.forall_mem_cons.mpr ⟨by decide, fun c member => (record.rest_spec c member).1⟩
  have decoded : ∀ byte ∈ record.content, byte < 128 := by
    intro byte member
    rcases List.mem_append.mp member with first | last
    · rcases List.mem_append.mp first with opening | named
      · exact StatRecord.ascii_lt before byte opening
      · exact low byte named
    · exact StatRecord.ascii_lt behind byte last
  have plain : universalNewlines (')' :: record.rest) = ')' :: record.rest := by
    refine universalNewlines_of_not_mem ?_
    rw [List.mem_cons, not_or]
    exact ⟨by decide, fun member => (record.rest_spec _ member).2.2 rfl⟩
  refine ⟨universalNewlines (Nat.toDigits 10 record.pid ++ [' ', '('] ++
    record.comm.map fun byte => Char.ofNat byte.toNat), ?_⟩
  rw [readText, decodeAscii_of_lt decoded, StatRecord.content, List.map_append, List.map_append,
    StatRecord.decode_ascii before, ← StatRecord.rest, StatRecord.decode_ascii behind]
  exact congrArg Except.ok ((universalNewlines_append _ _ (by decide)).trans (congrArg _ plain))

theorem isdigit_toDigits (number : Nat) : isdigit (Nat.toDigits 10 number) = true := by
  have filled : Nat.toDigits 10 number ≠ [] := Nat.toDigits_ne_nil
  simp only [isdigit, Bool.and_eq_true, Bool.not_eq_true', List.isEmpty_eq_false_iff, List.all_eq_true]
  exact ⟨filled, fun c member => StatRecord.isDigit_of_mem_toDigits member⟩

theorem int_toDigits (number : Nat) : int (Nat.toDigits 10 number) = number :=
  Nat.ofDigitChars_toDigits (by decide) (by decide)

theorem metadata_of_ascii (low : record.Ascii) : linuxProcessMetadata (.ok record.content) =
    .ok (record.ppid, record.pgrp, "linux:" ++ String.ofList (Nat.toDigits 10 record.starttime)) := by
  obtain ⟨front, read⟩ := readText_content low
  have apart : ')' ∉ record.rest := fun member => (record.rest_spec _ member).2.1 rfl
  have parent : record.fields[1]? = some (Nat.toDigits 10 record.ppid) := rfl
  have group : record.fields[2]? = some (Nat.toDigits 10 record.pgrp) := rfl
  have start : record.fields[19]? = some (Nat.toDigits 10 record.starttime) := by
    simp [StatRecord.fields, record.sixteen]
  rw [linuxProcessMetadata, read, Outcome.ok_bind, afterLast_append apart, Option.map_some, record.words_drop_rest,
    Option.getD_some]
  simp only [parent, group, start, isdigit_toDigits, int_toDigits, Bool.and_self, if_true]

end Kernel

section Table

/-- What the scan meets: an entry that is no process, a process that has gone, or one whose record was read, with its owner
unless it went then. -/
inductive Encounter where
  | other (entry : ProcEntry) (plain : isdigit entry.name = false)
  | gone (pid : Nat)
  | read (record : StatRecord) (uid : Option Nat)

namespace Encounter

def entry : Encounter → ProcEntry
  | .other entry _ => entry
  | .gone pid => ⟨Nat.toDigits 10 pid, .error .fileNotFound, .error .fileNotFound⟩
  | .read record uid =>
    ⟨Nat.toDigits 10 record.pid, .ok record.content, (uid.map Except.ok).getD (.error .fileNotFound)⟩

/-- The name that was read, if one was, is ASCII. -/
def Ascii : Encounter → Prop
  | .other _ _ | .gone _ => True
  | .read record _ => record.Ascii

/-- The process enters the table with what its record says. -/
def record (processes : List (Nat × LinuxProcessMetadata)) : Encounter → List (Nat × LinuxProcessMetadata)
  | .read record (some uid) =>
    Caching.store processes record.pid
      ⟨record.ppid, record.pgrp, "linux:" ++ String.ofList (Nat.toDigits 10 record.starttime), uid⟩
  | _ => processes

end Encounter

variable (processes : List (Nat × LinuxProcessMetadata)) (met : List Encounter)

theorem scan_entry {first : Encounter} (low : first.Ascii) (entries : List ProcEntry) :
    scanEntries processes (first.entry :: entries) = scanEntries (first.record processes) entries := by
  cases first with
  | other entry plain => simp [scanEntries, Encounter.entry, Encounter.record, plain]
  | gone pid => simp [scanEntries, Encounter.entry, Encounter.record, isdigit_toDigits, entryMetadata, linuxProcessMetadata, readText]
  | read record uid =>
    have read : linuxProcessMetadata (.ok record.content) = _ := metadata_of_ascii low
    cases uid with
    | none => simp [scanEntries, Encounter.entry, Encounter.record, isdigit_toDigits, entryMetadata, read]
    | some uid =>
      simp [scanEntries, Encounter.entry, Encounter.record, isdigit_toDigits, entryMetadata, read, int_toDigits]

theorem scan_of_ascii (low : ∀ first ∈ met, first.Ascii) :
    scanEntries processes (met.map Encounter.entry) = .ok (met.foldl Encounter.record processes) := by
  induction met generalizing processes with
  | nil => rfl
  | cons first met ih =>
    obtain ⟨own, later⟩ := List.forall_mem_cons.mp low
    rw [List.map_cons, scan_entry processes own, ih _ later, List.foldl_cons]

/-- One name outside of ASCII ends the scan with an error that nobody handles. -/
theorem scan_of_not_ascii (high : ¬ ∀ first ∈ met, first.Ascii) :
    scanEntries processes (met.map Encounter.entry) = .error .unicodeDecode := by
  induction met generalizing processes with
  | nil => exact absurd (List.forall_mem_nil _) high
  | cons first met ih =>
    by_cases own : first.Ascii
    · have later : ¬ ∀ first ∈ met, first.Ascii := fun low => high (List.forall_mem_cons.mpr ⟨own, low⟩)
      rw [List.map_cons, scan_entry processes own, ih _ later]
    · cases first with
      | other entry plain => exact absurd trivial own
      | gone pid => exact absurd trivial own
      | read record uid =>
        have undecoded : linuxProcessMetadata (.ok record.content) = _ := metadata_of_not_ascii own
        simp [scanEntries, Encounter.entry, isdigit_toDigits, entryMetadata, undecoded]

end Table

section Samples

/-- A process that named itself `café`. -/
def cafeRecord : StatRecord where
  pid := 42
  comm := [99, 97, 102, 0xC3, 0xA9]
  state := 'S'
  ppid := 1
  pgrp := 42
  between := List.replicate 16 0
  starttime := 9000
  behind := [4096, -1]
  named := by decide
  letter := by decide
  sixteen := by decide

end Samples

end OpenTulpa.Host.ProcessTable
