import OpenTulpa.Library.Dict
import OpenTulpa.Library.Json
import OpenTulpa.Library.Outcome
import OpenTulpa.Library.Spaces
import OpenTulpa.Library.Splitting

/-! The runtime `.env` file as it is read and as one variable of it is written. A payload that is not UTF-8 is refused
at once, so a payload is the text it decodes to. -/

namespace OpenTulpa.Host.Dotenv

open Library Library.Text Library.Spaces Library.Splitting

section Reading

structure RuntimeEnvironmentError where
  code : String
  publicMessage : String
  stage : String
  deriving DecidableEq

def dotenvMaxBytes : Nat := 256 * 1024

def dotenvMaxValueBytes : Nat := 64 * 1024

def dotenvMaxKeys : Nat := 512

def isNameChar (c : Char) : Bool := c.isAlphanum || c == '_'

def isEnvName : List Char → Bool
  | [] => false
  | c :: rest => (c.isAlpha || c == '_') && rest.all isNameChar && decide (rest.length ≤ 127)

def isWritableChar (c : Char) : Bool := c.isUpper || c.isDigit || c == '_'

def isWritableEnvName : List Char → Bool
  | [] => false
  | c :: rest => (c.isUpper || c == '_') && rest.all isWritableChar && decide (rest.length ≤ 127)

def isRawChar (c : Char) : Bool := c.isAlphanum || c ∈ ['_', '.', '/', ':', '@', '%', '+', '=', ',', '-']

/-- What is wrong with a line. -/
inductive Problem where
  | noAssignment
  | key
  | unterminated
  | escape
  | value
  deriving DecidableEq

def Problem.message (index : Nat) : Problem → String
  | .noAssignment => s!"Runtime .env line {index} is invalid."
  | .key => s!"Runtime .env line {index} has an invalid key."
  | .unterminated => s!"Runtime .env line {index} has an unterminated quoted value."
  | .escape => s!"Runtime .env line {index} has an invalid escape."
  | .value => s!"Runtime .env line {index} value is invalid."

def fileInvalid (message stage : String) : RuntimeEnvironmentError := ⟨"runtime_env_file_invalid", message, stage⟩

def unescaped : Char → Char
  | 'n' => '\n'
  | 'r' => '\r'
  | 't' => '\t'
  | c => c

/-- What follows is decoded; the flag says that a backslash stands in front of it. -/
def decodeFrom : Bool → List Char → Option (List Char)
  | false, [] => some []
  | true, [] => none
  | true, c :: rest => (decodeFrom false rest).map (unescaped c :: ·)
  | false, c :: rest => if c = '\\' then decodeFrom true rest else (decodeFrom false rest).map (c :: ·)

def stripCommentFrom : Option Char → List Char → List Char
  | _, [] => []
  | before, c :: rest =>
    if c = '#' ∧ before.all isSpace = true then [] else c :: stripCommentFrom (some c) rest

def stripUnquotedComment (value : List Char) : List Char := stripCommentFrom none value

/-- A text of at least two characters between two of the same kind. -/
def inside (quote : Char) (text : List Char) : Option (List Char) :=
  if 2 ≤ text.length ∧ text.head? = some quote ∧ text.getLast? = some quote then some text.tail.dropLast else none

def parseDotenvValue (raw : List Char) : Except Problem (List Char) :=
  match inside '\'' raw with
  | some value => .ok value
  | none =>
    match inside '"' raw with
    | some quoted =>
      match decodeFrom false quoted with
      | some value => .ok value
      | none => .error .escape
    | none =>
      if raw.head? = some '\'' ∨ raw.head? = some '"' then .error .unterminated
      else .ok (stripChars (stripUnquotedComment raw))

def withoutExport (line : List Char) : List Char :=
  if "export ".toList.isPrefixOf line then (line.drop 7).dropWhile isSpace else line

/-- A line of the file: nothing, or a variable with its value. -/
def parseLine (rawLine : List Char) : Except Problem (Option (List Char × List Char)) :=
  let line := stripChars rawLine
  if line.isEmpty || line.head? == some '#' then .ok none
  else
    match cut ['='] (withoutExport line) with
    | none => .error .noAssignment
    | some (rawKey, rawValue) =>
      let key := stripChars rawKey
      if isEnvName key then
        match parseDotenvValue (stripChars rawValue) with
        | .error problem => .error problem
        | .ok value =>
          if '\x00' ∈ value ∨ dotenvMaxValueBytes < Json.encodedSize value then .error .value else .ok (some (key, value))
      else .error .key

/-- The variables of a file in the order of their names. -/
abbrev Values := List (String × List Char)

def parseLines : Nat → List (List Char) → Values → Except RuntimeEnvironmentError Values
  | _, [], values => .ok values
  | index, line :: rest, values =>
    match parseLine line with
    | .error problem => .error (fileInvalid (problem.message index) "env_read")
    | .ok none => parseLines (index + 1) rest values
    | .ok (some (key, value)) =>
      let values := Dict.insert (String.ofList key) value values
      if dotenvMaxKeys < values.length then .error (fileInvalid "Runtime .env file has too many keys." "env_read")
      else parseLines (index + 1) rest values

def parseDotenvPayload (payload : List Char) : Except RuntimeEnvironmentError Values := parseLines 1 (splitlines payload) []

end Reading

section Writing

def dotenvLineKey (line : List Char) : Option (List Char) :=
  let stripped := stripChars line
  if stripped.isEmpty || stripped.head? == some '#' then none
  else
    match cut ['='] (withoutExport stripped) with
    | none => none
    | some (rawKey, _) => if isEnvName (stripChars rawKey) then some (stripChars rawKey) else none

def replaceChar (old : Char) (new text : List Char) : List Char := text.flatMap fun c => if c = old then new else [c]

def escaped (value : List Char) : List Char :=
  replaceChar '\n' ['\\', 'n'] (replaceChar '\r' ['\\', 'r'] (replaceChar '\t' ['\\', 't']
    (replaceChar '"' ['\\', '"'] (replaceChar '\\' ['\\', '\\'] value))))

def formatDotenvValue (value : List Char) : List Char :=
  if value.all isRawChar then value else '"' :: escaped value ++ ['"']

def protectedKeys : List String :=
  ["CONDA_PREFIX", "DYLD_INSERT_LIBRARIES", "GIT_CONFIG_GLOBAL", "GIT_CONFIG_NOSYSTEM", "GIT_CONFIG_SYSTEM", "HOME", "HOST",
    "LD_PRELOAD", "PATH", "PORT", "PYTHONDONTWRITEBYTECODE", "PYTHONHOME", "PYTHONNOUSERSITE", "PYTHONPATH",
    "UV_PROJECT_ENVIRONMENT", "VIRTUAL_ENV", "OPENTULPA_APPLICATION_ROOT", "OPENTULPA_DATA_ROOT", "OPENTULPA_DYNAMIC_HOST",
    "OPENTULPA_INTERNAL_AGENT_API_URL", "OPENTULPA_LAUNCH_NONCE", "OPENTULPA_LIVE_SOURCE_ROOT",
    "OPENTULPA_OWNER_CUSTOMER_ID", "OPENTULPA_OWNER_TOKEN", "OPENTULPA_RAILWAY_SANDBOX_BRIDGE_PATH",
    "OPENTULPA_SOURCE_COMMIT", "OPENTULPA_TELEGRAM_OWNER_ID", "OPENTULPA_TELEGRAM_PAIRING_CODE"]

def protectedPrefixes : List String := ["OPENTULPA_BOOTSTRAP_", "OPENTULPA_SANDBOX_RPC_"]

def runtimeEnvKeyIsProtected (key : List Char) : Bool :=
  let value := stripChars key
  protectedKeys.any (fun name => name.toList == value) || protectedPrefixes.any fun start => start.toList.isPrefixOf value

def validateWritableName (name : List Char) : Except RuntimeEnvironmentError (List Char) :=
  let safe := stripChars name
  if !isWritableEnvName safe then
    .error ⟨"runtime_env_name_invalid", "Runtime .env variable name is invalid.", "env_write"⟩
  else if runtimeEnvKeyIsProtected safe then
    .error ⟨"runtime_env_key_protected", "Runtime .env variable is owned by the host.", "env_write"⟩
  else .ok safe

def isOpening (c : Char) : Bool := c == '[' || c == '<' || c == '('

def isClosing (c : Char) : Bool := c == ']' || c == ')' || c == '>'

/-- A placeholder that stands for a value which is not shown, with punctuation behind it. -/
def isRedacted (text : List Char) : Bool :=
  let core := (stripChars text).rdropWhile fun c => c ∈ ['.', ',', ';', ':', '!', '?']
  let word := "redacted".toList
  core.map Char.toLower == word ||
    (core.head?.any isOpening && core.getLast?.any isClosing && (stripChars core.tail.dropLast).map Char.toLower == word) ||
      (core.all (· == '*') && decide (3 ≤ core.length))

def validateValue (value : List Char) : Except RuntimeEnvironmentError (List Char) :=
  if '\x00' ∈ value ∨ '\n' ∈ value ∨ '\r' ∈ value ∨ dotenvMaxValueBytes < Json.encodedSize value then
    .error ⟨"runtime_env_value_invalid", "Runtime .env variable value is invalid.", "env_write"⟩
  else if isRedacted value then
    .error ⟨"runtime_env_value_redacted", "A redacted placeholder cannot be stored as a runtime value.", "env_write"⟩
  else .ok value

/-- The lines with the first definition of the variable replaced and the later ones left out. -/
def rewriteLines (name entry : List Char) : Bool → List (List Char) → List (List Char)
  | _, [] => []
  | replaced, line :: rest =>
    if dotenvLineKey line ≠ some name then line :: rewriteLines name entry replaced rest
    else if replaced then rewriteLines name entry true rest
    else entry :: rewriteLines name entry true rest

def entryLine (name value : List Char) : List Char := name ++ '=' :: formatDotenvValue value

def outputLines (name value : List Char) (lines : List (List Char)) : List (List Char) :=
  let output := rewriteLines name (entryLine name value) false lines
  if lines.any fun line => dotenvLineKey line == some name then output
  else
    output ++ (if output.getLast?.any fun line => !(stripChars line).isEmpty then [[]] else []) ++ [entryLine name value]

def updatedPayload (previous : Option (List Char)) (name value : List Char) : Except RuntimeEnvironmentError (List Char) :=
  let output := outputLines name value (splitlines (previous.getD []))
  let payload := (['\n'].intercalate output).rdropWhile (· == '\n') ++ ['\n']
  if dotenvMaxBytes < Json.encodedSize payload then
    .error (fileInvalid "Runtime .env file would exceed its size limit." "env_write")
  else
    match parseDotenvPayload payload with
    | .error failure => .error failure
    | .ok verified =>
      if Dict.get verified (String.ofList name) = some value then .ok payload
      else .error (fileInvalid "Runtime .env update could not be verified." "env_write")

def filteredRuntimeDotenv (values : Values) : Values :=
  values.filter fun entry => isEnvName entry.1.toList && !runtimeEnvKeyIsProtected entry.1.toList

end Writing

end OpenTulpa.Host.Dotenv
