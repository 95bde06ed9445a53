import OpenTulpa.Library.Calendar
import OpenTulpa.Library.Outcome
import OpenTulpa.Library.Splitting

/-! The commit that is published through the proxy of the forge: a raw commit object is read into a payload, and the
forge writes a commit object of its own from it. -/

namespace OpenTulpa.Repositories.CommitPayload

open Library Calendar Numerals Outcome Splitting

section Model

structure IdentityPayload where
  name : List Char
  email : List Char
  date : List Char
  deriving DecidableEq

structure Payload where
  message : List Char
  tree : List Char
  parents : List (List Char)
  author : IdentityPayload
  committer : IdentityPayload
  deriving DecidableEq

/-- `bytes.decode("utf-8", errors="strict")` -/
def decode (bytes : List UInt8) : Option (List Char) := (String.fromUTF8? ⟨bytes.toArray⟩).map String.toList

def utf8 (text : List Char) : List UInt8 := (String.ofList text).toByteArray.data.toList

def commitNotSupported : String := "repository commit is not supported"

def extendedCommit : String := "signed or extended commits require a direct GitHub token"

/-- The groups of `_GIT_IDENTITY_RE`. -/
structure Groups where
  name : List Char
  email : List Char
  timestamp : List Char
  sign : Char
  hours : Char × Char
  minutes : Char × Char
  deriving DecidableEq

/-- `_GIT_IDENTITY_RE.fullmatch`, from the end of the text. -/
def matchIdentity (value : List Char) : Option Groups :=
  match value.reverse with
  | m₂ :: m₁ :: h₂ :: h₁ :: sign :: ' ' :: dated =>
    match dated.dropWhile Char.isDigit with
    | ' ' :: '>' :: addressed =>
      match addressed.dropWhile fun c => c != '<' && c != '>' with
      | '<' :: ' ' :: named =>
        let groups : Groups := ⟨named.reverse, (addressed.takeWhile fun c => c != '<' && c != '>').reverse,
          (dated.takeWhile Char.isDigit).reverse, sign, (h₁, h₂), (m₁, m₂)⟩
        if [h₁, h₂, m₁, m₂].all Char.isDigit && (sign == '+' || sign == '-') && !groups.email.isEmpty &&
            !groups.timestamp.isEmpty && !groups.name.contains '\n' then some groups
        else none
      | _ => none
    | _ => none
  | _ => none

/-- The offset of a match, in minutes. -/
def Groups.offset (groups : Groups) : Int :=
  let minutes : Int := readTwo groups.hours.1 groups.hours.2 * 60 + readTwo groups.minutes.1 groups.minutes.2
  if groups.sign = '+' then minutes else -minutes

/-- The most digits that `int` reads. -/
def maxStrDigits : Nat := 4300

/-- `_git_identity_payload` -/
def gitIdentityPayload (value : List Char) : Except String IdentityPayload :=
  match matchIdentity value with
  | none => .error "repository commit identity is not supported"
  | some groups =>
    if 1440 ≤ groups.offset.natAbs ∨ maxStrDigits < groups.timestamp.length then
      .error "repository commit date is not supported"
    else match fromTimestamp (Nat.ofDigitChars 10 groups.timestamp 0) groups.offset with
      | none => .error "repository commit date is not supported"
      | some stamp => .ok ⟨groups.name, groups.email, stamp.isoformat⟩

abbrev Header := List Char × List Char

def headerKeys : List (List Char) := ["tree".toList, "parent".toList, "author".toList, "committer".toList]

def readHeaders : List (List Char) → Except String (List Header)
  | [] => .ok []
  | line :: lines => match cut [' '] line with
    | none => .error commitNotSupported
    | some header => readHeaders lines >>= fun headers => .ok (header :: headers)

def valuesOf (headers : List Header) (key : String) : List (List Char) :=
  headers.filterMap fun header => if header.1 = key.toList then some header.2 else none

/-- The payload of a commit by its decoded headers and its message. -/
def readCommit (expectedTree expectedParent : List Char) (lines : List (List Char)) (rawMessage : List UInt8) :
    Except String Payload :=
  if lines.any fun line => " ".toList.isPrefixOf line || "\t".toList.isPrefixOf line then .error extendedCommit
  else do
    let headers ← readHeaders lines
    if !(headers.all fun header => headerKeys.contains header.1) ||
        !(headerKeys.all fun key => headers.any fun header => header.1 == key) then .error extendedCommit
    else if valuesOf headers "tree" ≠ [expectedTree] ∨ valuesOf headers "parent" ≠ [expectedParent] then
      .error "repository commit lineage changed"
    else match decode rawMessage with
      | none => .error "non-UTF-8 commits require a direct GitHub token"
      | some message => do
        let author ← gitIdentityPayload ((valuesOf headers "author").headD [])
        let committer ← gitIdentityPayload ((valuesOf headers "committer").headD [])
        return ⟨message, expectedTree, [expectedParent], author, committer⟩

/-- `_commit_payload`, of what git prints for the commit. -/
def commitPayload (expectedTree expectedParent : List Char) (raw : List UInt8) : Except String Payload :=
  match cut [10, 10] raw with
  | none => .error commitNotSupported
  | some (rawHeaders, rawMessage) => match decode rawHeaders with
    | none => .error commitNotSupported
    | some text => readCommit expectedTree expectedParent (splitlines text) rawMessage

end Model

section Encoding

def offsetText (offset : Int) : List Char :=
  signOf offset :: twoDigits (offset.natAbs / 60) ++ twoDigits (offset.natAbs % 60)

def identityText (name email timestamp offset : List Char) : List Char :=
  name ++ " <".toList ++ email ++ "> ".toList ++ timestamp ++ ' ' :: offset

/-- An identity as git writes it, with the time and the offset that its date denotes. -/
def encodeIdentity (identity : IdentityPayload) : Option (List Char) :=
  (readIso identity.date).map fun stamp =>
    identityText identity.name identity.email (Nat.toDigits 10 stamp.timestamp.toNat) (offsetText stamp.offset)

def headerLine (key : String) (value : List Char) : List Char := key.toList ++ ' ' :: value

def headerText (tree : List Char) (parents : List (List Char)) (author committer : List Char) : List Char :=
  headerLine "tree" tree ++ (parents.flatMap fun parent => '\n' :: headerLine "parent" parent) ++
    '\n' :: headerLine "author" author ++ '\n' :: headerLine "committer" committer

/-- The commit object that git makes of a payload. -/
def encode (payload : Payload) : Option (List UInt8) :=
  (encodeIdentity payload.author).bind fun author =>
    (encodeIdentity payload.committer).map fun committer =>
      utf8 (headerText payload.tree payload.parents author committer) ++ [10, 10] ++ utf8 payload.message

/-- An identity that survives: its timestamp has no leading zero, and its offset has less than an hour of minutes and is
not the negative zero. -/
def CanonicalIdentity (value : List Char) : Prop :=
  ∃ groups, matchIdentity value = some groups ∧ (groups.timestamp = ['0'] ∨ groups.timestamp.head? ≠ some '0') ∧
    readTwo groups.minutes.1 groups.minutes.2 < 60 ∧ (groups.sign = '-' → groups.offset ≠ 0)

/-- The headers stand once each in the order of git, on lines that only newlines part, with identities that survive. -/
def Canonical (tree parent : List Char) (raw : List UInt8) : Prop :=
  ∃ author committer message, OneLine author ∧ OneLine committer ∧ CanonicalIdentity author ∧
    CanonicalIdentity committer ∧ cut [10, 10] raw = some (utf8 (headerText tree [parent] author committer), message)

end Encoding

section Texts

theorem utf8_injective : Function.Injective utf8 := by
  intro first second same
  have arrays : (String.ofList first).toByteArray.data = (String.ofList second).toByteArray.data :=
    Array.toList_inj.mp same
  have bytes : (String.ofList first).toByteArray = (String.ofList second).toByteArray := ByteArray.ext arrays
  have texts := String.toByteArray_inj.mp bytes
  rw [← String.toList_ofList (l := first), texts, String.toList_ofList]

theorem decode_eq_some {bytes : List UInt8} {text : List Char} : decode bytes = some text ↔ utf8 text = bytes := by
  rw [decode, String.fromUTF8?]
  constructor
  · split
    next valid =>
      rintro same
      obtain rfl := Option.some.inj same
      rw [utf8, String.ofList_toList]
      rfl
    next =>
      intro same
      cases same
  · rintro rfl
    have valid : ByteArray.IsValidUTF8 ⟨(utf8 text).toArray⟩ := by
      rw [utf8, Array.toArray_toList]
      exact (String.ofList text).isValidUTF8
    have same : String.fromUTF8 ⟨(utf8 text).toArray⟩ valid = String.ofList text := by
      rw [← String.toByteArray_inj]
      rfl
    rw [dif_pos valid, Option.map_some, same, String.toList_ofList]

theorem matchIdentity_spec {value : List Char} {groups : Groups} (matched : matchIdentity value = some groups) :
    value = identityText groups.name groups.email groups.timestamp
        [groups.sign, groups.hours.1, groups.hours.2, groups.minutes.1, groups.minutes.2] ∧
      (groups.hours.1.isDigit = true ∧ groups.hours.2.isDigit = true) ∧
        (groups.minutes.1.isDigit = true ∧ groups.minutes.2.isDigit = true) ∧
          (groups.sign = '+' ∨ groups.sign = '-') ∧ groups.timestamp ≠ [] ∧ ∀ c ∈ groups.timestamp, c.isDigit = true := by
  rw [matchIdentity] at matched
  split at matched
  next m₂ m₁ h₂ h₁ sign dated reversed =>
    split at matched
    next addressed dates =>
      split at matched
      next named addresses =>
        dsimp only at matched
        split at matched
        next checked =>
          cases matched
          simp only [List.all_cons, List.all_nil, Bool.and_true, Bool.and_eq_true, Bool.or_eq_true, beq_iff_eq,
            Bool.not_eq_true', List.isEmpty_eq_false_iff] at checked
          obtain ⟨⟨⟨⟨⟨hour, hour', minute, minute'⟩, signed⟩, _⟩, filled⟩, _⟩ := checked
          refine ⟨?_, ⟨hour, hour'⟩, ⟨minute, minute'⟩, signed, filled, fun c member =>
            List.mem_takeWhile_imp (List.mem_reverse.mp member)⟩
          have date : dated = dated.takeWhile Char.isDigit ++ ' ' :: '>' :: addressed := by
            rw [← dates, List.takeWhile_append_dropWhile]
          have address : addressed = addressed.takeWhile (fun c => c != '<' && c != '>') ++ '<' :: ' ' :: named := by
            rw [← addresses, List.takeWhile_append_dropWhile]
          have whole : value.reverse = m₂ :: m₁ :: h₂ :: h₁ :: sign :: ' ' :: (dated.takeWhile Char.isDigit ++
              ' ' :: '>' :: (addressed.takeWhile (fun c => c != '<' && c != '>') ++ '<' :: ' ' :: named)) := by
            rw [← address, ← date, reversed]
          rw [← List.reverse_reverse value, whole]
          simp [identityText]
        · cases matched
      · cases matched
    · cases matched
  · cases matched

end Texts

section Identities

theorem identityText_inj {name email timestamp other offset otherOffset : List Char}
    (lengths : offset.length = otherOffset.length) :
    identityText name email timestamp offset = identityText name email other otherOffset ↔
      timestamp = other ∧ offset = otherOffset := by
  constructor
  · intro same
    simp only [identityText, List.append_assoc, List.append_cancel_left_eq] at same
    obtain ⟨dates, offsets⟩ := List.append_inj' same (by simp [lengths])
    exact ⟨dates, (List.cons.inj offsets).2⟩
  · rintro ⟨rfl, rfl⟩
    rfl

/-- An offset is written as it was when its minutes are less than an hour and it is not the negative zero. -/
theorem offsetText_offset {groups : Groups} (hours : groups.hours.1.isDigit = true ∧ groups.hours.2.isDigit = true)
    (minutes : groups.minutes.1.isDigit = true ∧ groups.minutes.2.isDigit = true)
    (signed : groups.sign = '+' ∨ groups.sign = '-') :
    offsetText groups.offset =
        [groups.sign, groups.hours.1, groups.hours.2, groups.minutes.1, groups.minutes.2] ↔
      readTwo groups.minutes.1 groups.minutes.2 < 60 ∧ (groups.sign = '-' → groups.offset ≠ 0) := by
  have size : groups.offset.natAbs =
      readTwo groups.hours.1 groups.hours.2 * 60 + readTwo groups.minutes.1 groups.minutes.2 := by
    rw [Groups.offset]
    split_ifs <;> omega
  constructor
  · intro same
    simp only [offsetText, twoDigits, List.cons_append, List.nil_append, List.cons.injEq, and_true] at same
    obtain ⟨sign, _, _, tens, ones⟩ := same
    have read := readTwo_twoDigits (groups.offset.natAbs % 60)
    rw [tens, ones] at read
    refine ⟨by omega, fun negative zero => ?_⟩
    rw [negative, zero] at sign
    exact absurd sign (by decide)
  · rintro ⟨within, nonzero⟩
    have quotient : groups.offset.natAbs / 60 = readTwo groups.hours.1 groups.hours.2 := by omega
    have remainder : groups.offset.natAbs % 60 = readTwo groups.minutes.1 groups.minutes.2 := by omega
    have sign : signOf groups.offset = groups.sign := by
      rw [signOf]
      rcases signed with plus | minus
      · have positive : ¬ groups.offset < 0 := by
          rw [Groups.offset, plus, if_pos rfl]
          omega
        rw [if_neg positive, plus]
      · have negative : groups.offset < 0 := by
          have other := nonzero minus
          rw [Groups.offset, if_neg (by rw [minus]; decide)] at other ⊢
          omega
        rw [if_pos negative, minus]
    rw [offsetText, quotient, remainder, sign, twoDigits_readTwo hours.1 hours.2, twoDigits_readTwo minutes.1 minutes.2]
    rfl

theorem isLineBreak_of_isDigit {c : Char} (digit : c.isDigit = true) : isLineBreak c = false := by
  have bounds := Char.isDigit_iff_toNat.mp digit
  have first : ('0' : Char).toNat = 48 := rfl
  have last : ('9' : Char).toNat = 57 := rfl
  simp only [isLineBreak, Bool.or_eq_false_iff, Bool.and_eq_false_iff, decide_eq_false_iff_not, beq_eq_false_iff_ne]
  omega

theorem oneLine_append {first second : List Char} : OneLine (first ++ second) ↔ OneLine first ∧ OneLine second :=
  List.forall_mem_append

theorem oneLine_cons {c : Char} {text : List Char} : OneLine (c :: text) ↔ isLineBreak c = false ∧ OneLine text :=
  List.forall_mem_cons

theorem oneLine_twoDigits (number : Nat) : OneLine (twoDigits number) := by
  have listed : ∀ n : Nat, n < 10 → isLineBreak (Nat.digitChar n) = false := by decide
  rw [twoDigits]
  exact oneLine_cons.mpr ⟨listed _ (Nat.mod_lt _ (by decide)),
    oneLine_cons.mpr ⟨listed _ (Nat.mod_lt _ (by decide)), List.forall_mem_nil _⟩⟩

theorem oneLine_offsetText (offset : Int) : OneLine (offsetText offset) := by
  have sign : isLineBreak (signOf offset) = false := by
    rw [signOf]
    split <;> decide
  exact oneLine_append.mpr ⟨oneLine_cons.mpr ⟨sign, oneLine_twoDigits _⟩, oneLine_twoDigits _⟩

theorem oneLine_toDigits (number : Nat) : OneLine (Nat.toDigits 10 number) := fun _ member =>
  isLineBreak_of_isDigit (Nat.isDigit_of_mem_toDigits (by decide) (Nat.le_refl 10) member)

/-- An accepted identity is written back in one line, and as it was exactly when it is one that survives. -/
theorem encode_gitIdentityPayload {value : List Char} {identity : IdentityPayload}
    (accepted : gitIdentityPayload value = .ok identity) :
    ∃ text, encodeIdentity identity = some text ∧ (text = value ↔ CanonicalIdentity value) ∧
      (OneLine value → OneLine text) := by
  rw [gitIdentityPayload] at accepted
  split at accepted
  · cases accepted
  next groups matched =>
    obtain ⟨whole, hours, minutes, signed, filled, numeric⟩ := matchIdentity_spec matched
    split at accepted
    · cases accepted
    next readable =>
      have short : groups.offset.natAbs < 1440 := by omega
      split at accepted
      · cases accepted
      next stamp made =>
        cases accepted
        obtain ⟨seconds, offset⟩ := timestamp_fromTimestamp (by omega) made
        refine ⟨identityText groups.name groups.email
          (Nat.toDigits 10 (Nat.ofDigitChars 10 groups.timestamp 0)) (offsetText groups.offset), ?_, ?_, ?_⟩
        · rw [encodeIdentity, readIso_isoformat (written_fromTimestamp short made), Option.map_some, seconds, offset,
            Int.toNat_natCast]
        · conv_lhs => rw [whole]
          rw [identityText_inj (by simp [offsetText, twoDigits]), toDigits_ofDigitChars filled numeric,
            offsetText_offset hours minutes signed, CanonicalIdentity, matched]
          simp
        · intro oneLine
          rw [whole] at oneLine
          simp only [identityText, oneLine_append, oneLine_cons] at oneLine ⊢
          obtain ⟨⟨front, _⟩, blank, _⟩ := oneLine
          exact ⟨⟨front, oneLine_toDigits _⟩, blank, oneLine_offsetText _⟩

end Identities

section Headers

variable {tree parent author committer : List Char}

theorem oneLine_headerLine {key : String} {value : List Char} (keyLine : OneLine key.toList) (valueLine : OneLine value) :
    OneLine (headerLine key value) :=
  oneLine_append.mpr ⟨keyLine, oneLine_cons.mpr ⟨by decide, valueLine⟩⟩

theorem splitlines_headerText (treeLine : OneLine tree) (parentLine : OneLine parent) (authorLine : OneLine author)
    (committerLine : OneLine committer) :
    splitlines (headerText tree [parent] author committer) =
      [headerLine "tree" tree, headerLine "parent" parent, headerLine "author" author, headerLine "committer" committer] := by
  have shape : headerText tree [parent] author committer =
      headerLine "tree" tree ++ '\n' :: (headerLine "parent" parent ++ '\n' :: (headerLine "author" author ++
        '\n' :: headerLine "committer" committer)) := by
    simp only [headerText, List.flatMap_cons, List.flatMap_nil, List.append_assoc, List.cons_append, List.append_nil]
  have filled : headerLine "committer" committer ≠ [] := List.append_ne_nil_of_right_ne_nil _ (List.cons_ne_nil _ _)
  rw [shape, splitlines_newline (oneLine_headerLine (by decide +kernel) treeLine),
    splitlines_newline (oneLine_headerLine (by decide +kernel) parentLine),
    splitlines_newline (oneLine_headerLine (by decide +kernel) authorLine),
    splitlines_oneLine (oneLine_headerLine (by decide +kernel) committerLine) filled]

theorem cut_headerLine {key : String} (free : Free [' '] key.toList) (value : List Char) :
    cut [' '] (headerLine key value) = some (key.toList, value) := by
  have whole := cut_append (List.cons_ne_nil ' ' []) free value
  rwa [List.append_assoc] at whole

theorem readHeaders_cons {key : String} (free : Free [' '] key.toList) (value : List Char) (lines : List (List Char)) :
    readHeaders (headerLine key value :: lines) =
      readHeaders lines >>= fun headers => .ok ((key.toList, value) :: headers) := by
  rw [readHeaders, cut_headerLine free]

theorem readHeaders_headerText (tree parent author committer : List Char) :
    readHeaders [headerLine "tree" tree, headerLine "parent" parent, headerLine "author" author,
      headerLine "committer" committer] =
        .ok [("tree".toList, tree), ("parent".toList, parent), ("author".toList, author), ("committer".toList, committer)] := by
  rw [readHeaders_cons (by decide +kernel), readHeaders_cons (by decide +kernel), readHeaders_cons (by decide +kernel),
    readHeaders_cons (by decide +kernel)]
  rfl

theorem mem_readHeaders {lines : List (List Char)} {headers : List Header} (read : readHeaders lines = .ok headers)
    {header : Header} (member : header ∈ headers) : ∃ line ∈ lines, cut [' '] line = some header := by
  induction lines generalizing headers with
  | nil =>
    cases read
    cases member
  | cons line lines ih =>
    rw [readHeaders] at read
    split at read
    · cases read
    next own split =>
      obtain ⟨rest, later, built⟩ := bind_eq_ok read
      cases built
      rcases List.mem_cons.mp member with rfl | below
      · exact ⟨line, List.mem_cons_self, split⟩
      · obtain ⟨other, inside, same⟩ := ih later below
        exact ⟨other, List.mem_cons_of_mem _ inside, same⟩

/-- The values of a header stand within a line. -/
theorem oneLine_of_mem_valuesOf {text : List Char} {headers : List Header} (read : readHeaders (splitlines text) = .ok headers)
    {key : String} {value : List Char} (member : value ∈ valuesOf headers key) : OneLine value := by
  obtain ⟨header, inside, same⟩ := List.mem_filterMap.mp member
  split at same
  · cases same
    obtain ⟨line, listed, parts⟩ := mem_readHeaders read inside
    have whole := oneLine_of_mem_splitlines listed
    rw [cut_eq_some parts] at whole
    exact (oneLine_append.mp whole).2
  · cases same

theorem oneLine_headD {text : List Char} {headers : List Header} (read : readHeaders (splitlines text) = .ok headers)
    (key : String) : OneLine ((valuesOf headers key).headD []) := by
  cases values : valuesOf headers key with
  | nil => exact List.forall_mem_nil _
  | cons value rest => exact oneLine_of_mem_valuesOf read (values ▸ List.mem_cons_self)

theorem readCommit_ok {lines : List (List Char)} {rawMessage : List UInt8} {payload : Payload}
    (accepted : readCommit tree parent lines rawMessage = .ok payload) :
    ∃ headers message authorPayload committerPayload, readHeaders lines = .ok headers ∧
      valuesOf headers "tree" = [tree] ∧ valuesOf headers "parent" = [parent] ∧ decode rawMessage = some message ∧
        gitIdentityPayload ((valuesOf headers "author").headD []) = .ok authorPayload ∧
          gitIdentityPayload ((valuesOf headers "committer").headD []) = .ok committerPayload ∧
            payload = ⟨message, tree, [parent], authorPayload, committerPayload⟩ := by
  rw [readCommit] at accepted
  split at accepted
  · cases accepted
  · obtain ⟨headers, read, checking⟩ := bind_eq_ok accepted
    split_ifs at checking with _ lineage
    simp only [not_or, not_not] at lineage
    split at checking
    · cases checking
    next message decoded =>
      obtain ⟨authorPayload, first, rest⟩ := bind_eq_ok checking
      obtain ⟨committerPayload, second, built⟩ := bind_eq_ok rest
      cases built
      exact ⟨headers, message, authorPayload, committerPayload, read, lineage.1, lineage.2, decoded, first, second, rfl⟩

end Headers

section Faithful

variable {tree parent : List Char}

theorem author_headerText (tree parent author committer : List Char) :
    (valuesOf [("tree".toList, tree), ("parent".toList, parent), ("author".toList, author),
      ("committer".toList, committer)] "author").headD [] = author := by
  rfl

theorem committer_headerText (tree parent author committer : List Char) :
    (valuesOf [("tree".toList, tree), ("parent".toList, parent), ("author".toList, author),
      ("committer".toList, committer)] "committer").headD [] = committer := by
  rfl

/-- The commit that git makes of an accepted payload is the commit that was read exactly when that one is canonical. -/
theorem encode_commitPayload {raw : List UInt8} {payload : Payload}
    (accepted : commitPayload tree parent raw = .ok payload) : encode payload = some raw ↔ Canonical tree parent raw := by
  rw [commitPayload] at accepted
  split at accepted
  · cases accepted
  next rawHeaders rawMessage parts =>
    split at accepted
    · cases accepted
    next text decoded =>
      obtain ⟨headers, message, authorPayload, committerPayload, read, treeValue, parentValue, messageDecoded, authored,
        committed, rfl⟩ := readCommit_ok accepted
      obtain ⟨author, authorEncoded, authorSame, authorLine⟩ := encode_gitIdentityPayload authored
      obtain ⟨committer, committerEncoded, committerSame, committerLine⟩ := encode_gitIdentityPayload committed
      have treeLine : OneLine tree := oneLine_of_mem_valuesOf read (treeValue ▸ List.mem_cons_self)
      have parentLine : OneLine parent := oneLine_of_mem_valuesOf read (parentValue ▸ List.mem_cons_self)
      have encoded : encode ⟨message, tree, [parent], authorPayload, committerPayload⟩ =
          some (utf8 (headerText tree [parent] author committer) ++ [10, 10] ++ rawMessage) := by
        rw [encode, authorEncoded, committerEncoded, Option.bind_some, Option.map_some, decode_eq_some.mp messageDecoded]
      have whole : raw = utf8 text ++ [10, 10] ++ rawMessage := by
        rw [decode_eq_some.mp decoded]
        exact cut_eq_some parts
      rw [encoded]
      constructor
      · intro same
        have texts : headerText tree [parent] author committer = text := by
          have bytes := Option.some.inj same
          rw [whole] at bytes
          exact utf8_injective (List.append_cancel_right (List.append_cancel_right bytes))
        have authorOne := authorLine (oneLine_headD read "author")
        have committerOne := committerLine (oneLine_headD read "committer")
        rw [← texts, splitlines_headerText treeLine parentLine authorOne committerOne, readHeaders_headerText] at read
        cases read
        rw [author_headerText] at authorSame
        rw [committer_headerText] at committerSame
        refine ⟨author, committer, rawMessage, authorOne, committerOne, authorSame.mp rfl, committerSame.mp rfl, ?_⟩
        rw [parts, texts, decode_eq_some.mp decoded]
      · rintro ⟨ownAuthor, ownCommitter, ownMessage, authorOne, committerOne, authorKept, committerKept, own⟩
        rw [own] at parts
        cases parts
        have texts : text = headerText tree [parent] ownAuthor ownCommitter := utf8_injective (decode_eq_some.mp decoded)
        rw [texts, splitlines_headerText treeLine parentLine authorOne committerOne, readHeaders_headerText] at read
        cases read
        rw [author_headerText] at authorSame
        rw [committer_headerText] at committerSame
        rw [authorSame.mpr authorKept, committerSame.mpr committerKept, whole, texts]

end Faithful

section Publishing

/-- What a changed path brings: an error, an entry of the tree only, or a blob. -/
inductive Change where
  | unreadable (error : String)
  | entry
  | blob (content : List UInt8)
  deriving DecidableEq

/-- An object that the forge is asked to create. -/
inductive Object where
  | blob (content : List UInt8)
  | tree (sha : List Char)
  | commit (payload : Payload)
  deriving DecidableEq

/-- The state of a checkout that is published, with what git prints for its commit. -/
structure Checkout where
  changes : List Change
  baseTree : List Char
  headTree : List Char
  baseSha : List Char
  rawCommit : List UInt8
  deriving DecidableEq

variable (preserves : Object → Bool)

def postBlobs : List Change → List Object × Option String
  | [] => ([], none)
  | .unreadable error :: _ => ([], some error)
  | .entry :: changes => postBlobs changes
  | .blob content :: changes =>
    if preserves (.blob content) then
      let later := postBlobs changes
      (.blob content :: later.1, later.2)
    else ([.blob content], some "GitHub did not preserve a repository blob")

def postTree (checkout : Checkout) : List Object × Option String :=
  if checkout.headTree = checkout.baseTree then ([], none)
  else ([.tree checkout.headTree],
    if preserves (.tree checkout.headTree) then none else some "GitHub did not preserve the repository tree")

def postCommit (checkout : Checkout) : List Object × Option String :=
  match commitPayload checkout.headTree checkout.baseSha checkout.rawCommit with
  | .error error => ([], some error)
  | .ok payload => ([.commit payload],
    if preserves (.commit payload) then none else some "GitHub did not preserve the approved commit")

/-- The second step after the first, unless that one has raised. -/
def after (first second : List Object × Option String) : List Object × Option String :=
  if first.2.isSome then first else (first.1 ++ second.1, second.2)

/-- The objects that `_publish_via_github_proxy` asks for, and the error it ends with before the branch is made. -/
def publishObjects (checkout : Checkout) : List Object × Option String :=
  after (postBlobs preserves checkout.changes) (after (postTree preserves checkout) (postCommit preserves checkout))

/-- The forge makes the commit that was approved, and is asked for nothing when the commit is refused. -/
structure Faithful (checkout : Checkout) : Prop where
  encoded : ∀ payload, commitPayload checkout.headTree checkout.baseSha checkout.rawCommit = .ok payload →
    encode payload = some checkout.rawCommit
  refused : ∀ error, commitPayload checkout.headTree checkout.baseSha checkout.rawCommit = .error error →
    (publishObjects preserves checkout).1 = []

/-- Changes that end or pass before there is a blob, and then no tree that differs. -/
def Quiet (sameTree : Prop) : List Change → Prop
  | [] => sameTree
  | .unreadable _ :: _ => True
  | .entry :: changes => Quiet sameTree changes
  | .blob _ :: _ => False

theorem after_fst_eq_nil {first second : List Object × Option String} :
    (after first second).1 = [] ↔ first.1 = [] ∧ (first.2 = none → second.1 = []) := by
  obtain ⟨objects, error⟩ := first
  cases error <;> simp [after]

theorem postTree_fst_eq_nil {checkout : Checkout} :
    (postTree preserves checkout).1 = [] ↔ checkout.headTree = checkout.baseTree := by
  rw [postTree]
  split <;> simp [*]

theorem publishObjects_refused {checkout : Checkout} {error : String}
    (refused : commitPayload checkout.headTree checkout.baseSha checkout.rawCommit = .error error) :
    (publishObjects preserves checkout).1 = [] ↔ Quiet (checkout.headTree = checkout.baseTree) checkout.changes := by
  have commit : (postCommit preserves checkout).1 = [] := by rw [postCommit, refused]
  rw [publishObjects]
  generalize checkout.changes = changes
  rw [after_fst_eq_nil, after_fst_eq_nil, postTree_fst_eq_nil, commit]
  induction changes with
  | nil => simp [postBlobs, Quiet]
  | cons change changes ih =>
    cases change with
    | unreadable raised => simp [postBlobs, Quiet]
    | entry => exact ih
    | blob content =>
      rw [postBlobs, Quiet]
      split <;> simp

/-- An accepted commit is made as it was approved exactly when it is canonical; and a refused one leaves nothing at the
forge exactly when no blob and no tree goes before it. -/
theorem publishing_faithful_iff (preserves : Object → Bool) (checkout : Checkout) :
    Faithful preserves checkout ↔
      (∀ payload, commitPayload checkout.headTree checkout.baseSha checkout.rawCommit = .ok payload →
        Canonical checkout.headTree checkout.baseSha checkout.rawCommit) ∧
      ∀ error, commitPayload checkout.headTree checkout.baseSha checkout.rawCommit = .error error →
        Quiet (checkout.headTree = checkout.baseTree) checkout.changes := by
  constructor
  · rintro ⟨encoded, refused⟩
    exact ⟨fun payload accepted => (encode_commitPayload accepted).mp (encoded payload accepted),
      fun error raised => (publishObjects_refused preserves raised).mp (refused error raised)⟩
  · rintro ⟨canonical, quiet⟩
    exact ⟨fun payload accepted => (encode_commitPayload accepted).mpr (canonical payload accepted),
      fun error raised => (publishObjects_refused preserves raised).mpr (quiet error raised)⟩

def sampleHeaders : List Char :=
  headerText "1a".toList ["2b".toList] "Ada <a@b.c> 0 -0000".toList "Ada <a@b.c> 0 +0000".toList

def sampleCheckout : Checkout where
  changes := []
  baseTree := "1a".toList
  headTree := "1a".toList
  baseSha := "2b".toList
  rawCommit := utf8 sampleHeaders ++ [10, 10] ++ utf8 ['m']

def samplePayload : Payload :=
  ⟨['m'], "1a".toList, ["2b".toList], ⟨"Ada".toList, "a@b.c".toList, "1970-01-01T00:00:00+00:00".toList⟩,
    ⟨"Ada".toList, "a@b.c".toList, "1970-01-01T00:00:00+00:00".toList⟩⟩

/-- The offset -0000 becomes +0000. -/
theorem negative_zero_changes : ¬ Faithful (fun _ => true) sampleCheckout := by
  intro faithful
  have parts : cut [10, 10] sampleCheckout.rawCommit = some (utf8 sampleHeaders, utf8 ['m']) :=
    cut_append (List.cons_ne_nil 10 [10]) (by decide +kernel) (utf8 ['m'])
  have read : readCommit "1a".toList "2b".toList (splitlines sampleHeaders) (utf8 ['m']) = .ok samplePayload := by
    rw [readCommit, decode_eq_some.mpr rfl]
    decide +kernel
  have accepted : commitPayload "1a".toList "2b".toList sampleCheckout.rawCommit = .ok samplePayload := by
    rw [commitPayload, parts]
    dsimp only
    rw [decode_eq_some.mpr rfl]
    exact read
  have encoded := faithful.encoded samplePayload accepted
  exact absurd encoded (by decide +kernel)

end Publishing

end OpenTulpa.Repositories.CommitPayload
