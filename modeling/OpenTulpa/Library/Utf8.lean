import Mathlib.Data.Char
import Mathlib.Data.Nat.Basic
import Mathlib.Tactic.SplitIfs

/-! Decoding of bytes as UTF-8 where each longest part that can not go on is read as one replacement character. Bytes of ASCII
are read wherever they stand, and nothing else is read as a character of ASCII. -/

namespace OpenTulpa.Library.Utf8

section Machine

def replacement : Char := '\uFFFD'

/-- A character begun: its bits so far, the bytes owed behind the next one, and the bounds of the next one. -/
structure Pending where
  value : Nat
  owed : Nat
  lower : Nat
  upper : Nat
  deriving DecidableEq

def lead (byte : Nat) : Option Pending :=
  if 0xC2 ≤ byte ∧ byte ≤ 0xDF then some ⟨byte - 0xC0, 0, 0x80, 0xBF⟩
  else if byte = 0xE0 then some ⟨0, 1, 0xA0, 0xBF⟩
  else if byte = 0xED then some ⟨0xD, 1, 0x80, 0x9F⟩
  else if 0xE1 ≤ byte ∧ byte ≤ 0xEF then some ⟨byte - 0xE0, 1, 0x80, 0xBF⟩
  else if byte = 0xF0 then some ⟨0, 2, 0x90, 0xBF⟩
  else if 0xF1 ≤ byte ∧ byte ≤ 0xF3 then some ⟨byte - 0xF0, 2, 0x80, 0xBF⟩
  else if byte = 0xF4 then some ⟨4, 2, 0x80, 0x8F⟩
  else none

/-- The byte between characters. -/
def start (byte : Nat) : List Char × Option Pending :=
  if byte < 0x80 then ([Char.ofNat byte], none)
  else
    match lead byte with
    | some pending => ([], some pending)
    | none => ([replacement], none)

def Pending.take (pending : Pending) (byte : Nat) : List Char × Option Pending :=
  let value := pending.value * 64 + (byte - 0x80)
  match pending.owed with
  | 0 => ([Char.ofNat value], none)
  | owed + 1 => ([], some ⟨value, owed, 0x80, 0xBF⟩)

def advance (pending : Option Pending) (byte : Nat) : List Char × Option Pending :=
  match pending with
  | none => start byte
  | some pending =>
    if pending.lower ≤ byte ∧ byte ≤ pending.upper then pending.take byte
    else (replacement :: (start byte).1, (start byte).2)

/-- What a character begun gives when no byte of it follows. -/
def flush (pending : Option Pending) : List Char := if pending.isSome then [replacement] else []

def decodeFrom : Option Pending → List UInt8 → List Char
  | pending, [] => flush pending
  | pending, byte :: rest =>
    (advance pending byte.toNat).1 ++ decodeFrom (advance pending byte.toNat).2 rest

/-- `bytes.decode("utf-8", errors="replace")` -/
def decode (bytes : List UInt8) : List Char := decodeFrom none bytes

/-- The bytes of a text of ASCII. -/
def ascii (text : List Char) : List UInt8 := text.map fun c => UInt8.ofNat c.toNat

example : decode [0x61, 0xC3, 0xA9, 0xE2, 0x82, 0xAC, 0xF0, 0x9F, 0x98, 0x80] = ['a', 'é', '€', '😀'] := by decide
example : decode [0xE1, 0x80, 0x61, 0xE0, 0x80, 0xED, 0xA0, 0xF4, 0x8F, 0xBF] =
    [replacement, 'a', replacement, replacement, replacement, replacement, replacement] := by decide

end Machine

section Ascii

/-- Whatever bytes follow, the character is one beyond ASCII. -/
def Scalars : Nat → Nat → Nat → Nat → Prop
  | 0, value, lower, upper => ∀ byte, lower ≤ byte → byte ≤ upper →
    0x80 ≤ value * 64 + (byte - 0x80) ∧ (value * 64 + (byte - 0x80)).isValidChar
  | owed + 1, value, lower, upper => ∀ byte, lower ≤ byte → byte ≤ upper →
    Scalars owed (value * 64 + (byte - 0x80)) 0x80 0xBF

structure Pending.Sound (pending : Pending) : Prop where
  continues : 0x80 ≤ pending.lower
  scalars : Scalars pending.owed pending.value pending.lower pending.upper

theorem toNat_ofNat {number : Nat} (valid : number.isValidChar) : (Char.ofNat number).toNat = number := by
  rw [Char.ofNat, dif_pos valid]
  rfl

theorem lead_sound {byte : Nat} {pending : Pending} (leads : lead byte = some pending) : pending.Sound := by
  unfold lead at leads
  split_ifs at leads <;> obtain rfl := Option.some.inj leads <;>
    exact ⟨by simp, by simp only [Scalars, Nat.isValidChar]; omega⟩

def SoundAt (pending : Option Pending) : Prop := ∀ begun, pending = some begun → begun.Sound

theorem soundAt_none : SoundAt none := nofun

/-- Beyond ASCII: the characters read, if any, and the character begun, if none was read. -/
structure High (read : List Char × Option Pending) : Prop where
  chars : ∀ c ∈ read.1, 0x80 ≤ c.toNat
  sound : SoundAt read.2
  begun : read.1 = [] → read.2 ≠ none

theorem high_replacement : 0x80 ≤ replacement.toNat := by decide

theorem start_high {byte : Nat} (high : 0x80 ≤ byte) : High (start byte) := by
  rw [start, if_neg (by omega)]
  cases leads : lead byte with
  | none => exact ⟨by simpa using high_replacement, nofun, nofun⟩
  | some pending => exact ⟨nofun, fun _ same => Option.some.inj same ▸ lead_sound leads, nofun⟩

theorem take_high {pending : Pending} (sound : pending.Sound) {byte : Nat} (least : pending.lower ≤ byte)
    (most : byte ≤ pending.upper) : High (pending.take byte) := by
  obtain ⟨continues, scalars⟩ := sound
  unfold Pending.take
  cases owes : pending.owed with
  | zero =>
    rw [owes] at scalars
    obtain ⟨beyond, valid⟩ := scalars byte least most
    refine ⟨fun c member => ?_, nofun, nofun⟩
    rwa [List.mem_singleton.mp member, toNat_ofNat valid]
  | succ owed =>
    rw [owes] at scalars
    exact ⟨nofun, fun _ same => Option.some.inj same ▸ ⟨Nat.le_refl _, scalars byte least most⟩, nofun⟩

variable {pending : Option Pending}

theorem advance_high (sound : SoundAt pending) {byte : Nat} (high : 0x80 ≤ byte) :
    High (advance pending byte) := by
  cases pending with
  | none => exact start_high high
  | some begun =>
    rw [advance]
    split
    · rename_i bounds
      exact take_high (sound begun rfl) bounds.1 bounds.2
    · obtain ⟨chars, later, _⟩ := start_high high
      exact ⟨List.forall_mem_cons.mpr ⟨high_replacement, chars⟩, later, nofun⟩

/-- A byte of ASCII ends what was begun. -/
theorem advance_ascii (sound : SoundAt pending) {byte : Nat} (low : byte < 0x80) :
    advance pending byte = (flush pending ++ [Char.ofNat byte], none) := by
  cases pending with
  | none => exact if_pos low
  | some begun =>
    have continues := (sound begun rfl).continues
    rw [advance, if_neg (by omega), start, if_pos low]
    rfl

theorem flush_high {c : Char} (member : c ∈ flush pending) : 0x80 ≤ c.toNat := by
  unfold flush at member
  split at member
  · rw [List.mem_singleton.mp member]
    exact high_replacement
  · cases member

/-- Text in front of a byte of ASCII and text behind it are read apart. -/
theorem decodeFrom_append_ascii (sound : SoundAt pending) (front rest : List UInt8) {byte : UInt8}
    (low : byte.toNat < 0x80) :
    decodeFrom pending (front ++ byte :: rest) = decodeFrom pending front ++ Char.ofNat byte.toNat :: decode rest := by
  induction front generalizing pending with
  | nil => simp [decodeFrom, advance_ascii sound low, decode]
  | cons first front ih =>
    have later : SoundAt (advance pending first.toNat).2 := by
      rcases Nat.lt_or_ge first.toNat 0x80 with small | high
      · rw [advance_ascii sound small]
        exact soundAt_none
      · exact (advance_high sound high).sound
    rw [List.cons_append, decodeFrom, ih later, decodeFrom, List.append_assoc]

theorem decode_append_ascii (front rest : List UInt8) {byte : UInt8} (low : byte.toNat < 0x80) :
    decode (front ++ byte :: rest) = decode front ++ Char.ofNat byte.toNat :: decode rest :=
  decodeFrom_append_ascii soundAt_none front rest low

theorem decode_cons_ascii (rest : List UInt8) {byte : UInt8} (low : byte.toNat < 0x80) :
    decode (byte :: rest) = Char.ofNat byte.toNat :: decode rest :=
  decode_append_ascii [] rest low

theorem ofNat_toNat_ofNat {byte : UInt8} (low : byte.toNat < 0x80) : UInt8.ofNat (Char.ofNat byte.toNat).toNat = byte := by
  have valid : byte.toNat.isValidChar := Or.inl (by omega)
  rw [toNat_ofNat valid, UInt8.ofNat_toNat]

/-- A character of ASCII is read from its byte. -/
theorem mem_of_mem_decodeFrom (sound : SoundAt pending) {bytes : List UInt8} {c : Char}
    (member : c ∈ decodeFrom pending bytes) (low : c.toNat < 0x80) : UInt8.ofNat c.toNat ∈ bytes := by
  induction bytes generalizing pending with
  | nil => exact absurd (flush_high member) (by omega)
  | cons byte bytes ih =>
    rw [decodeFrom, List.mem_append] at member
    rcases Nat.lt_or_ge byte.toNat 0x80 with small | high
    · rw [advance_ascii sound small, List.mem_append, List.mem_singleton] at member
      rcases member with (begun | rfl) | later
      · exact absurd (flush_high begun) (by omega)
      · rw [ofNat_toNat_ofNat small]
        exact List.mem_cons_self
      · exact List.mem_cons_of_mem _ (ih soundAt_none later)
    · have beyond := advance_high sound high
      rcases member with now | later
      · exact absurd (beyond.chars c now) (by omega)
      · exact List.mem_cons_of_mem _ (ih beyond.sound later)

theorem mem_of_mem_decode {bytes : List UInt8} {c : Char} (member : c ∈ decode bytes) (low : c.toNat < 0x80) :
    UInt8.ofNat c.toNat ∈ bytes :=
  mem_of_mem_decodeFrom soundAt_none member low

theorem flush_eq_nil_iff : flush pending = [] ↔ pending = none := by
  cases pending <;> simp [flush]

/-- A text of ASCII is read from its bytes only. -/
theorem eq_ascii_of_decodeFrom (sound : SoundAt pending) {bytes : List UInt8}
    (low : ∀ c ∈ decodeFrom pending bytes, c.toNat < 0x80) :
    pending = none ∧ bytes = ascii (decodeFrom pending bytes) := by
  have empty {text : List Char} (high : ∀ c ∈ text, 0x80 ≤ c.toNat) (below : ∀ c ∈ text, c.toNat < 0x80) : text = [] :=
    List.eq_nil_iff_forall_not_mem.mpr fun c member => Nat.not_lt.mpr (high c member) (below c member)
  have flushed (below : ∀ c ∈ flush pending, c.toNat < 0x80) : pending = none :=
    flush_eq_nil_iff.mp (empty (fun _ => flush_high) below)
  induction bytes generalizing pending with
  | nil =>
    obtain rfl := flushed low
    exact ⟨rfl, rfl⟩
  | cons byte bytes ih =>
    rw [decodeFrom] at low ⊢
    obtain ⟨now, later⟩ := List.forall_mem_append.mp low
    rcases Nat.lt_or_ge byte.toNat 0x80 with small | high
    · rw [advance_ascii sound small] at now later ⊢
      obtain rfl := flushed (List.forall_mem_append.mp now).1
      have behind := (ih soundAt_none later fun _ => rfl).2
      refine ⟨rfl, ?_⟩
      rw [ascii, List.map_append, ← ascii, ← ascii, ← behind]
      simp [flush, ascii, ofNat_toNat_ofNat small]
    · have beyond := advance_high sound high
      have none_ := beyond.begun (empty beyond.chars now)
      exact absurd (ih beyond.sound later fun below => flush_eq_nil_iff.mp (empty (fun _ => flush_high) below)).1 none_

theorem decode_ascii {text : List Char} (low : ∀ c ∈ text, c.toNat < 0x80) : decode (ascii text) = text := by
  induction text with
  | nil => rfl
  | cons c text ih =>
    obtain ⟨own, later⟩ := List.forall_mem_cons.mp low
    have fits : (UInt8.ofNat c.toNat).toNat = c.toNat := by
      rw [UInt8.toNat_ofNat']
      omega
    rw [ascii, List.map_cons, ← ascii, decode_cons_ascii _ (by omega), fits, Char.ofNat_toNat, ih later]

theorem decode_eq_iff {bytes : List UInt8} {text : List Char} (low : ∀ c ∈ text, c.toNat < 0x80) :
    decode bytes = text ↔ bytes = ascii text := by
  constructor
  · rintro rfl
    exact (eq_ascii_of_decodeFrom soundAt_none low).2
  · rintro rfl
    exact decode_ascii low

end Ascii

end OpenTulpa.Library.Utf8
