import OpenTulpa.Host.Dotenv

/-! The environment a runtime is launched with: variables the host fills in, with those of the runtime's `.env` file
between them. Two files leave every protected variable the same. -/

namespace OpenTulpa.Host.ChildEnvironment

open Library Library.Text Dotenv

section Model

abbrev Environment := List (String × List Char)

/-- The names on the way from the root. -/
abbrev Path := List (List Char)

def Path.text (path : Path) : List Char := if path.isEmpty then ['/'] else path.flatMap ('/' :: ·)

def Path.parent (path : Path) : Path := path.dropLast

structure HostConfig where
  apiKey : List Char
  baseUrl : List Char
  model : List Char
  telegramBotToken : Option (List Char)
  telegramUserId : Option Int
  internalRuntimeToken : List Char
  telegramPairingCode : Option (List Char)
  deriving DecidableEq

structure RuntimeLiveSourceSpec where
  sourceCommit : List Char
  pythonInterpreterPath : Path
  deriving DecidableEq

structure RuntimeSupervisor where
  inherited : Environment
  dataRoot : Path
  applicationRoot : Path
  projectRoot : Path
  railwaySandboxBridge : Option Path
  evolutionUrl : Option (List Char)
  evolutionToken : Option (List Char)
  sandboxUrl : Option (List Char)
  sandboxToken : Option (List Char)
  dotenvPayload : Option (List Char)
  deriving DecidableEq

def platformEnvironmentAllowlist : List String := ["LANG", "LC_ALL", "LC_CTYPE", "TEMP", "TMP", "TMPDIR", "TZ"]

def trustedSystemPath : String := "/usr/local/sbin:/usr/local/bin:/usr/sbin:/usr/bin:/sbin:/bin"

def digits (n : Nat) : List Char := (toString n).toList

def loadRuntimeDotenv : Option (List Char) → Except RuntimeEnvironmentError Values
  | none => .ok []
  | some payload => parseDotenvPayload payload

def runtimeDotenv (payload : Option (List Char)) : Except RuntimeEnvironmentError Values :=
  (loadRuntimeDotenv payload).map filteredRuntimeDotenv

/-- The inherited text without white space around it, or what stands in for an empty one. -/
def inheritedOr (inherited : Environment) (name : String) (other : List Char) : List Char :=
  let value := stripChars ((Dict.get inherited name).getD [])
  if value.isEmpty then other else value

def platformVariables (inherited : Environment) : Environment :=
  platformEnvironmentAllowlist.filterMap fun key =>
    ((Dict.get inherited key).filter fun value => '\x00' ∉ value).map fun value => (key, value)

variable (supervisor : RuntimeSupervisor) (config : HostConfig) (port : Nat) (liveSource : RuntimeLiveSourceSpec)
  (launchNonce : Option (List Char))

/-- The variables that are filled in before those of the file. -/
def baseVariables : Environment :=
  let hostPort := inheritedOr supervisor.inherited "PORT" (digits port)
  let internalAgentApiUrl := inheritedOr supervisor.inherited "OPENTULPA_INTERNAL_AGENT_API_URL"
    ("http://127.0.0.1:".toList ++ hostPort)
  [("HOST", "127.0.0.1".toList),
    ("PORT", digits port),
    ("OPENTULPA_DATA_ROOT", supervisor.dataRoot.text),
    ("OPENAI_COMPATIBLE_API_KEY", config.apiKey),
    ("OPENAI_COMPATIBLE_BASE_URL", config.baseUrl),
    ("LLM_MODEL", config.model),
    ("OPENTULPA_OWNER_TOKEN", config.internalRuntimeToken),
    ("OPENTULPA_OWNER_CUSTOMER_ID", inheritedOr supervisor.inherited "OPENTULPA_OWNER_CUSTOMER_ID" "owner".toList),
    ("OPENTULPA_INTERNAL_AGENT_API_URL", internalAgentApiUrl),
    ("OPENTULPA_DYNAMIC_HOST", ['1']),
    ("HOME", supervisor.applicationRoot.text),
    ("PATH", liveSource.pythonInterpreterPath.parent.text ++ ':' :: trustedSystemPath.toList)]

/-- The variables that are filled in after those of the file. -/
def hostVariables : Environment :=
  [("OPENTULPA_APPLICATION_ROOT", supervisor.applicationRoot.text),
    ("PYTHONDONTWRITEBYTECODE", ['1']),
    ("PYTHONNOUSERSITE", ['1']),
    ("OPENTULPA_LIVE_SOURCE_ROOT", supervisor.projectRoot.text),
    ("OPENTULPA_SOURCE_COMMIT", liveSource.sourceCommit),
    ("PYTHONPATH", Path.text (supervisor.projectRoot ++ ["src".toList]))] ++
  (launchNonce.map fun nonce => ("OPENTULPA_LAUNCH_NONCE", nonce)).toList ++
  (supervisor.railwaySandboxBridge.map fun path => ("OPENTULPA_RAILWAY_SANDBOX_BRIDGE_PATH", path.text)).toList ++
  (match supervisor.evolutionUrl, supervisor.evolutionToken with
    | some url, some token => [("EVOLUTION_ENABLED", "true".toList), ("OPENTULPA_BOOTSTRAP_EVOLUTION_URL", url),
        ("OPENTULPA_BOOTSTRAP_EVOLUTION_TOKEN", token)]
    | _, _ => []) ++
  (match supervisor.sandboxUrl, supervisor.sandboxToken with
    | some url, some token => [("OPENTULPA_SANDBOX_RPC_URL", url), ("OPENTULPA_SANDBOX_RPC_TOKEN", token)]
    | _, _ => []) ++
  (config.telegramPairingCode.map fun code => ("OPENTULPA_TELEGRAM_PAIRING_CODE", code)).toList ++
  (config.telegramBotToken.map fun _ =>
    ("OPENTULPA_TELEGRAM_OWNER_ID", (config.telegramUserId.map fun id => (toString id).toList).getD [])).toList

def childEnvironment (given : Option Values) : Except RuntimeEnvironmentError Environment := do
  let dotenv ← match given with
    | some values => .ok values
    | none => runtimeDotenv supervisor.dotenvPayload
  let environment := Dict.update (Dict.update [] (platformVariables supervisor.inherited))
    (baseVariables supervisor config port liveSource)
  .ok (Dict.update (Dict.update environment dotenv) (hostVariables supervisor config liveSource launchNonce))

end Model

section Protection

theorem filtered_not_mem {values : Values} {name : String} (owned : runtimeEnvKeyIsProtected name.toList = true) :
    name ∉ Dict.keys (filteredRuntimeDotenv values) := by
  intro member
  obtain ⟨entry, inside, rfl⟩ := List.mem_map.mp member
  have kept := (List.mem_filter.mp inside).2
  rw [owned, Bool.not_true, Bool.and_false] at kept
  cases kept

variable {supervisor : RuntimeSupervisor} {config : HostConfig} {port : Nat} {liveSource : RuntimeLiveSourceSpec}
  {launchNonce : Option (List Char)}

/-- A protected variable has the value it has without a file. -/
theorem get_childEnvironment {payload : Option (List Char)} {values : Values} {environment : Environment}
    (read : runtimeDotenv payload = .ok values)
    (built : childEnvironment supervisor config port liveSource launchNonce (some values) = .ok environment) {name : String}
    (owned : runtimeEnvKeyIsProtected name.toList = true) : Dict.get environment name =
      Dict.get (Dict.update (Dict.update (Dict.update [] (platformVariables supervisor.inherited))
        (baseVariables supervisor config port liveSource)) (hostVariables supervisor config liveSource launchNonce)) name := by
  obtain rfl := Except.ok.inj built
  obtain ⟨parsed, _, rfl⟩ : ∃ parsed, loadRuntimeDotenv payload = .ok parsed ∧ filteredRuntimeDotenv parsed = values := by
    cases loaded : loadRuntimeDotenv payload with
    | error failure => rw [runtimeDotenv, loaded] at read; cases read
    | ok parsed => rw [runtimeDotenv, loaded] at read; exact ⟨parsed, rfl, Except.ok.inj read⟩
  exact Dict.get_update_congr (Dict.get_update_of_not_mem (filtered_not_mem owned) _) _

/-- Two files leave every protected variable the same. -/
theorem childEnvironment_protected {first second : Option (List Char)} {firstValues secondValues : Values}
    {firstEnvironment secondEnvironment : Environment} (readFirst : runtimeDotenv first = .ok firstValues)
    (readSecond : runtimeDotenv second = .ok secondValues)
    (builtFirst : childEnvironment supervisor config port liveSource launchNonce (some firstValues) = .ok firstEnvironment)
    (builtSecond : childEnvironment supervisor config port liveSource launchNonce (some secondValues) = .ok secondEnvironment)
    (name : String) (owned : runtimeEnvKeyIsProtected name.toList = true) :
    Dict.get firstEnvironment name = Dict.get secondEnvironment name :=
  (get_childEnvironment readFirst builtFirst owned).trans (get_childEnvironment readSecond builtSecond owned).symm

def sampleSupervisor : RuntimeSupervisor :=
  ⟨[("LANG", ['C'])], ["data".toList], ["app".toList], ["app".toList, "live".toList], none, none, none, none, none, none⟩

def sampleConfig : HostConfig := ⟨"key".toList, "https://llm".toList, "model".toList, none, none, "token".toList, none⟩

def sampleLiveSource : RuntimeLiveSourceSpec := ⟨"c0ffee".toList, ["venv".toList, "bin".toList, "python".toList]⟩

theorem childEnvironment_protected_path :
    runtimeDotenv (some "PATH=/tmp\nexport OPENTULPA_SANDBOX_RPC_URL=x\nA=1\n".toList) = .ok [("A", ['1'])] ∧
    runtimeDotenv none = .ok [] ∧ ∃ first second,
      childEnvironment sampleSupervisor sampleConfig 80 sampleLiveSource none (some [("A", ['1'])]) = .ok first ∧
      childEnvironment sampleSupervisor sampleConfig 80 sampleLiveSource none (some []) = .ok second ∧
      Dict.get first "PATH" = Dict.get second "PATH" := by
  have readFirst : runtimeDotenv (some "PATH=/tmp\nexport OPENTULPA_SANDBOX_RPC_URL=x\nA=1\n".toList) =
      .ok [("A", ['1'])] := by decide
  have readSecond : runtimeDotenv none = .ok [] := rfl
  exact ⟨readFirst, readSecond, _, _, rfl, rfl,
    childEnvironment_protected readFirst readSecond rfl rfl "PATH" (by decide)⟩

end Protection

end OpenTulpa.Host.ChildEnvironment
