import OpenTulpa.Library.Splitting
import OpenTulpa.Library.Utf8

/-! The filters that leave the untracked `.env` out of the status of a working tree. One reads the bytes that Git printed, the
other the text they are decoded to. An entry for a renamed or copied file has a second field, which may look like any entry. -/

namespace OpenTulpa.Host.DirtyTree

open Library.Splitting Library.Utf8

section Model

variable {α : Type*} [DecidableEq α] (sym : Char → α)

/-- The loop over the parts of a status; `sym` writes the characters of the literals. -/
def dirtyParts : List (List α) → List (List α)
  | [] => []
  | entry :: parts =>
    if entry.isEmpty then dirtyParts parts
    else
      let code := entry.take 2
      let path := if 3 < entry.length then entry.drop 3 else []
      if code = ['?', '?'].map sym ∧ path = ['.', 'e', 'n', 'v'].map sym then dirtyParts parts
      else
        let paired := [[sym 'R'], [sym 'C']]
        if code.take 1 ∈ paired ∨ (code.drop 1).take 1 ∈ paired then
          match parts with
          | [] => [entry]
          | second :: parts => entry :: second :: dirtyParts parts
        else entry :: dirtyParts parts

def withoutUntrackedRuntimeEnv (status : List α) : List α :=
  [sym '\x00'].intercalate (dirtyParts sym (split [sym '\x00'] status))

/-- The byte of a character of a bytes literal. -/
def byteOf (c : Char) : UInt8 := UInt8.ofNat c.toNat

/-- `_status_without_untracked_runtime_env` of the source evolution, over bytes -/
def Evolution.statusWithoutUntrackedRuntimeEnv (status : List UInt8) : List UInt8 :=
  withoutUntrackedRuntimeEnv byteOf status

/-- `RuntimeSupervisor._status_without_untracked_runtime_env`, over text -/
def RuntimeSupervisor.statusWithoutUntrackedRuntimeEnv (status : List Char) : List Char :=
  withoutUntrackedRuntimeEnv id status

end Model

section Porcelain

/-- An entry of `git status --porcelain=v1 -z`: the letters of the index and of the working tree, the path, and behind the entry
of a file renamed or copied on either side the path it had. -/
structure Entry where
  index : UInt8
  worktree : UInt8
  path : List UInt8
  orig : Option (List UInt8)
  letters : index.toNat < 0x80 ∧ worktree.toNat < 0x80
  unbroken : 0 ∉ index :: worktree :: path ∧ ∀ second ∈ orig, 0 ∉ second
  paired : orig.isSome = true ↔ index ∈ ascii ['R', 'C'] ∨ worktree ∈ ascii ['R', 'C']

namespace Entry

variable (entry : Entry)

def text : List UInt8 := entry.index :: entry.worktree :: 0x20 :: entry.path

def fields : List (List UInt8) := entry.text :: entry.orig.toList

/-- The untracked file `.env` -/
def RuntimeEnv : Prop :=
  [entry.index, entry.worktree] = ascii ['?', '?'] ∧ entry.path = ascii ['.', 'e', 'n', 'v']

instance decidableRuntimeEnv : Decidable entry.RuntimeEnv :=
  inferInstanceAs (Decidable (_ ∧ _))

theorem fields_unbroken : ∀ field ∈ entry.fields, 0 ∉ field := by
  refine List.forall_mem_cons.mpr ⟨?_, fun second member => entry.unbroken.2 second (Option.mem_toList.mp member)⟩
  have own := entry.unbroken.1
  simp only [text, List.mem_cons, not_or] at own ⊢
  exact ⟨own.1, own.2.1, by decide, own.2.2⟩

theorem orig_of_runtimeEnv (env : entry.RuntimeEnv) : entry.orig = none := by
  have codes : entry.index = 0x3F ∧ entry.worktree = 0x3F := by simpa [RuntimeEnv, ascii] using env.1
  rw [Option.eq_none_iff_forall_not_mem]
  intro second member
  have either := entry.paired.mp (Option.isSome_of_mem member)
  rw [codes.1, codes.2] at either
  exact absurd either (by decide)

end Entry

/-- What Git prints: a NUL ends each field. -/
def render (entries : List Entry) : List UInt8 := (entries.flatMap Entry.fields).flatMap (· ++ [0])

/-- The entries that make a tree dirty. -/
def dirty (entries : List Entry) : List Entry := entries.filter fun entry => ¬ entry.RuntimeEnv

end Porcelain

section Reading

/-- A way of reading bytes that reads every byte of ASCII as its own symbol, wherever it stands, and nothing else as that. -/
structure Reading (α : Type*) where
  sym : Char → α
  read : List UInt8 → List α
  append_ascii : ∀ (front : List UInt8) (byte : UInt8) (rest : List UInt8), byte.toNat < 0x80 →
    read (front ++ byte :: rest) = read front ++ sym (Char.ofNat byte.toNat) :: read rest
  mem_ascii : ∀ (bytes : List UInt8) (c : Char), c.toNat < 0x80 → sym c ∈ read bytes → UInt8.ofNat c.toNat ∈ bytes
  exact : ∀ (bytes : List UInt8) (text : List Char), (∀ c ∈ text, c.toNat < 0x80) →
    (read bytes = text.map sym ↔ bytes = ascii text)

def asBytes : Reading UInt8 where
  sym := byteOf
  read := id
  append_ascii front byte rest low := by rw [byteOf, ofNat_toNat_ofNat low]; rfl
  mem_ascii _ _ _ member := member
  exact _ _ _ := Iff.rfl

def asText : Reading Char where
  sym := id
  read := decode
  append_ascii front byte rest low := decode_append_ascii front rest low
  mem_ascii _ _ low member := mem_of_mem_decode member low
  exact bytes text low := by rw [List.map_id, decode_eq_iff low]

variable {α : Type*} (reading : Reading α)

theorem Reading.read_nil : reading.read [] = [] := (reading.exact [] [] (List.forall_mem_nil _)).mpr rfl

/-- The symbol of a byte of ASCII -/
def Reading.symOf (byte : UInt8) : α := reading.sym (Char.ofNat byte.toNat)

theorem Reading.read_cons {byte : UInt8} (low : byte.toNat < 0x80) (rest : List UInt8) :
    reading.read (byte :: rest) = reading.symOf byte :: reading.read rest := by
  have whole := reading.append_ascii [] byte rest low
  rwa [reading.read_nil] at whole

theorem Reading.read_text (entry : Entry) : reading.read entry.text =
    reading.symOf entry.index :: reading.symOf entry.worktree :: reading.symOf 0x20 :: reading.read entry.path := by
  rw [Entry.text, reading.read_cons entry.letters.1, reading.read_cons entry.letters.2, reading.read_cons (by decide)]

theorem Reading.paired_iff {byte : UInt8} (low : byte.toNat < 0x80) :
    [reading.symOf byte] ∈ [[reading.sym 'R'], [reading.sym 'C']] ↔ byte ∈ ascii ['R', 'C'] := by
  have letter (c : Char) (small : c.toNat < 0x80) : [reading.symOf byte] = [reading.sym c] ↔ byte = byteOf c := by
    have one := reading.exact [byte] [c] (by simpa using small)
    rw [reading.read_cons low, reading.read_nil] at one
    exact one.trans List.singleton_inj
  rw [List.mem_pair, letter 'R' (by decide), letter 'C' (by decide)]
  exact List.mem_pair.symm

theorem Reading.untracked_iff (entry : Entry) :
    [reading.symOf entry.index, reading.symOf entry.worktree] = ['?', '?'].map reading.sym ∧
      reading.read entry.path = ['.', 'e', 'n', 'v'].map reading.sym ↔ entry.RuntimeEnv := by
  have codes := reading.exact [entry.index, entry.worktree] ['?', '?'] (by decide)
  rw [reading.read_cons entry.letters.1, reading.read_cons entry.letters.2, reading.read_nil] at codes
  rw [codes, reading.exact _ _ (by decide), Entry.RuntimeEnv]

theorem Reading.read_terminated (fields : List (List UInt8)) :
    reading.read (fields.flatMap (· ++ [0])) = (fields.map reading.read).flatMap (· ++ [reading.sym '\x00']) := by
  induction fields with
  | nil => exact reading.read_nil
  | cons field fields ih =>
    rw [List.flatMap_cons, List.append_assoc, List.singleton_append, reading.append_ascii _ _ _ (by decide), ih, List.map_cons,
      List.flatMap_cons, List.append_assoc, List.singleton_append]
    rfl

theorem Reading.read_intercalate (fields : List (List UInt8)) :
    reading.read ([0].intercalate fields) = [reading.sym '\x00'].intercalate (fields.map reading.read) := by
  induction fields with
  | nil => exact reading.read_nil
  | cons field fields ih =>
    cases fields with
    | nil => simp
    | cons second fields =>
      rw [List.intercalate_cons_cons, List.append_assoc, List.singleton_append, reading.append_ascii _ _ _ (by decide), ih,
        List.map_cons, List.map_cons, List.map_cons, List.intercalate_cons_cons, List.append_assoc, List.singleton_append]
      rfl

variable [DecidableEq α]

/-- What the loop does at an entry with a path. -/
theorem dirtyParts_cons (sym : Char → α) (index worktree blank : α) (path : List α) (parts : List (List α)) :
    dirtyParts sym ((index :: worktree :: blank :: path) :: parts) =
      if [index, worktree] = ['?', '?'].map sym ∧ path = ['.', 'e', 'n', 'v'].map sym then dirtyParts sym parts
      else if [index] ∈ [[sym 'R'], [sym 'C']] ∨ [worktree] ∈ [[sym 'R'], [sym 'C']] then
        (index :: worktree :: blank :: path) :: (parts.take 1 ++ dirtyParts sym (parts.drop 1))
      else (index :: worktree :: blank :: path) :: dirtyParts sym parts := by
  have behind : (if 3 < (index :: worktree :: blank :: path).length then path else []) = path := by
    cases path <;> simp
  rw [dirtyParts.eq_def]
  simp only [List.take_succ_cons, List.take_zero, List.drop_succ_cons, List.drop_zero, behind]
  cases parts <;> simp [dirtyParts]

/-- Each entry is passed with the fields it takes. -/
theorem dirtyParts_entry (entry : Entry) (parts : List (List α)) :
    dirtyParts reading.sym (entry.fields.map reading.read ++ parts) =
      (if entry.RuntimeEnv then [] else entry.fields.map reading.read) ++ dirtyParts reading.sym parts := by
  rw [Entry.fields, List.map_cons, List.cons_append, reading.read_text, dirtyParts_cons, ← reading.read_text]
  by_cases env : entry.RuntimeEnv
  · rw [if_pos ((reading.untracked_iff entry).mpr env), if_pos env, entry.orig_of_runtimeEnv env]
    rfl
  · rw [if_neg (mt (reading.untracked_iff entry).mp env), if_neg env]
    have paired := entry.paired
    rw [← reading.paired_iff entry.letters.1, ← reading.paired_iff entry.letters.2] at paired
    cases orig : entry.orig with
    | none =>
      rw [orig] at paired
      rw [if_neg (mt paired.mpr Bool.false_ne_true)]
      rfl
    | some second =>
      rw [orig] at paired
      rw [if_pos (paired.mp rfl)]
      rfl

/-- The loop keeps the fields of the entries that make the tree dirty. -/
theorem dirtyParts_entries (entries : List Entry) :
    dirtyParts reading.sym ((entries.flatMap Entry.fields).map reading.read ++ [[]]) =
      ((dirty entries).flatMap Entry.fields).map reading.read := by
  induction entries with
  | nil => rfl
  | cons entry entries ih =>
    rw [List.flatMap_cons, List.map_append, List.append_assoc, dirtyParts_entry, ih]
    by_cases env : entry.RuntimeEnv <;> simp [dirty, env]

/-- The parts of what is printed are its fields, read one by one, and an empty part behind them. -/
theorem split_render (entries : List Entry) : split [reading.sym '\x00'] (reading.read (render entries)) =
    (entries.flatMap Entry.fields).map reading.read ++ [[]] := by
  rw [render, reading.read_terminated, split_terminated]
  intro piece member
  obtain ⟨field, listed, rfl⟩ := List.mem_map.mp member
  obtain ⟨entry, _, own⟩ := List.mem_flatMap.mp listed
  exact fun nul => entry.fields_unbroken field own (reading.mem_ascii field '\x00' (by decide) nul)

theorem withoutUntrackedRuntimeEnv_render (entries : List Entry) :
    withoutUntrackedRuntimeEnv reading.sym (reading.read (render entries)) =
      [reading.sym '\x00'].intercalate (((dirty entries).flatMap Entry.fields).map reading.read) := by
  rw [withoutUntrackedRuntimeEnv, split_render, dirtyParts_entries]

end Reading

section Results

variable (entries : List Entry)

theorem dirty_eq_nil_iff : dirty entries = [] ↔ ∀ entry ∈ entries, entry.RuntimeEnv := by
  simp [dirty]

theorem kept_eq_nil_iff {α : Type*} [DecidableEq α] (reading : Reading α) :
    [reading.sym '\x00'].intercalate (((dirty entries).flatMap Entry.fields).map reading.read) = [] ↔
      ∀ entry ∈ entries, entry.RuntimeEnv := by
  rw [← dirty_eq_nil_iff]
  cases dirty entries with
  | nil => simp [List.intercalate]
  | cons entry later =>
    rw [List.flatMap_cons, Entry.fields, List.cons_append, List.map_cons, reading.read_text]
    cases ((entry.orig.toList ++ later.flatMap Entry.fields).map reading.read) <;> simp [List.intercalate, List.intersperse]

/-- On every status that Git prints, over its bytes and over their decoding, the filters keep the same: the fields of the entries
other than the untracked `.env`, in their order. Nothing is left exactly when there is no other entry. -/
theorem filters_exact :
    Evolution.statusWithoutUntrackedRuntimeEnv (render entries) = [0].intercalate ((dirty entries).flatMap Entry.fields) ∧
      RuntimeSupervisor.statusWithoutUntrackedRuntimeEnv (decode (render entries)) =
        ['\x00'].intercalate (((dirty entries).flatMap Entry.fields).map decode) ∧
      RuntimeSupervisor.statusWithoutUntrackedRuntimeEnv (decode (render entries)) =
        decode (Evolution.statusWithoutUntrackedRuntimeEnv (render entries)) ∧
      (Evolution.statusWithoutUntrackedRuntimeEnv (render entries) = [] ↔ ∀ entry ∈ entries, entry.RuntimeEnv) ∧
      (RuntimeSupervisor.statusWithoutUntrackedRuntimeEnv (decode (render entries)) = [] ↔
        ∀ entry ∈ entries, entry.RuntimeEnv) := by
  have bytes : Evolution.statusWithoutUntrackedRuntimeEnv (render entries) =
      [0].intercalate ((dirty entries).flatMap Entry.fields) :=
    (withoutUntrackedRuntimeEnv_render asBytes entries).trans (congrArg _ (List.map_id _))
  have text : RuntimeSupervisor.statusWithoutUntrackedRuntimeEnv (decode (render entries)) =
      ['\x00'].intercalate (((dirty entries).flatMap Entry.fields).map decode) :=
    withoutUntrackedRuntimeEnv_render asText entries
  refine ⟨bytes, text, ?_, ?_, ?_⟩
  · rw [bytes, text]
    exact (asText.read_intercalate _).symm
  · have none_ := kept_eq_nil_iff entries asBytes
    rwa [← withoutUntrackedRuntimeEnv_render] at none_
  · have none_ := kept_eq_nil_iff entries asText
    rwa [← withoutUntrackedRuntimeEnv_render] at none_

/-- A renamed file that was called like the entry of an untracked `.env`. -/
example : RuntimeSupervisor.statusWithoutUntrackedRuntimeEnv "R  a\x00?? .env\x00?? .env\x00".toList =
    "R  a\x00?? .env".toList := by decide +kernel

end Results

end OpenTulpa.Host.DirtyTree
