import OpenTulpa.Secrets.Grants

/-! The configuration store of the stable host. Its rows hold the secrets of each revision encrypted
under the host key; seen through the cipher they are a plain ledger of configurations, of which one
at most is active. What `stage` inherits it reads before its transaction, so that other operations
may come in between. -/

namespace OpenTulpa.Host.ConfigStore

open Library Outcome Text Secrets.Vault
open Secrets.Grants (clearCipher)

inductive ConfigStatus where
  | staged
  | active
  | inactive
  | failed
  deriving DecidableEq

inductive HostConfigError where
  | conflict (message : String)
  | value (message : String)
  | cipher
  | corrupt
  | incomplete
  | integrity
  deriving DecidableEq

/-- Secret values are plain texts here. -/
structure HostConfigInput where
  expectedRevision : Option Nat
  apiKey : Option String
  baseUrl : String
  model : String
  telegramBotToken : Option String
  telegramUserId : Option Nat
  deriving DecidableEq

structure HostConfig where
  revision : Nat
  status : ConfigStatus
  apiKey : String
  baseUrl : String
  model : String
  telegramBotToken : Option String
  telegramUserId : Option Nat
  internalRuntimeToken : String
  telegramPairingCode : Option String
  createdAt : Int
  error : Option String
  deriving DecidableEq

/-- The object of `secrets_json`. -/
structure SealedSecrets where
  apiKey : Option EncryptedSecret
  internalRuntimeToken : Option EncryptedSecret
  telegramBotToken : Option EncryptedSecret
  telegramPairingCode : Option EncryptedSecret
  deriving DecidableEq

/-- A row of `host_config_revisions`. -/
structure ConfigRow where
  revision : Nat
  status : ConfigStatus
  baseUrl : String
  model : String
  telegramUserId : Option Nat
  secrets : SealedSecrets
  createdAt : Int
  error : Option String
  deriving DecidableEq

/-- The table, and the last number its `AUTOINCREMENT` has given. -/
structure ConfigTable where
  rows : List ConfigRow
  allocated : Nat
  deriving DecidableEq

/-- `if value` on a text that may be missing. -/
def filled (value : Option String) : Option String := value.filter fun text => !text.isEmpty

section Model

variable (cipher : HostKeySecretCipher)

/-- `_associated_data` -/
def associatedData (revision : Nat) (name : String) : ByteArray :=
  ("opentulpa-host-config:" ++ toString revision ++ ":" ++ name).toUTF8

/-- `_encrypt` -/
def encrypt (revision : Nat) (name : String) (nonce : ByteArray) (value : Option String) : Option EncryptedSecret :=
  value.map fun text => cipher.encrypt nonce text.toUTF8 (associatedData revision name)

/-- `_decrypt` -/
def decrypt (revision : Nat) (name : String) : Option EncryptedSecret → Except HostConfigError (Option String)
  | none => .ok none
  | some encrypted =>
    match cipher.decrypt encrypted (associatedData revision name) with
    | none => .error .cipher
    | some bytes =>
      match String.fromUTF8? bytes with
      | none => .error .corrupt
      | some text => .ok (some text)

/-- The configuration of a row with its secrets, if it has the two that it needs. -/
def assemble (row : ConfigRow) (apiKey internal telegram pairing : Option String) : Except HostConfigError HostConfig :=
  match filled apiKey, filled internal with
  | some apiKey, some internal =>
    .ok ⟨row.revision, row.status, apiKey, row.baseUrl, row.model, filled telegram, row.telegramUserId, internal,
      filled pairing, row.createdAt, row.error⟩
  | _, _ => .error .incomplete

/-- `_decode` -/
def decode (row : ConfigRow) : Except HostConfigError HostConfig := do
  let apiKey ← decrypt cipher row.revision "api_key" row.secrets.apiKey
  let internal ← decrypt cipher row.revision "internal_runtime_token" row.secrets.internalRuntimeToken
  let telegram ← decrypt cipher row.revision "telegram_bot_token" row.secrets.telegramBotToken
  let pairing ← decrypt cipher row.revision "telegram_pairing_code" row.secrets.telegramPairingCode
  assemble row apiKey internal telegram pairing

/-- `self._decode(row) if row else None` -/
def decodeFound : Option ConfigRow → Except HostConfigError (Option HostConfig)
  | none => .ok none
  | some row => (decode cipher row).map some

def ConfigTable.active (table : ConfigTable) : Except HostConfigError (Option HostConfig) :=
  decodeFound cipher (table.rows.find? fun row => row.status == .active)

def ConfigTable.get (table : ConfigTable) (revision : Nat) : Except HostConfigError (Option HostConfig) :=
  decodeFound cipher (table.rows.find? fun row => row.revision == revision)

/-- What `stage` has worked out when its transaction begins. -/
structure Plan where
  apiKey : String
  baseUrl : String
  model : String
  telegramToken : Option String
  telegramUserId : Option Nat
  named : apiKey ≠ ""

/-- The first part of `stage`, over the configuration that it found active. -/
def plan (active : Option HostConfig) (value : HostConfigInput) : Except HostConfigError Plan :=
  if active.isNone ∧ value.expectedRevision.isSome then .error (.conflict "no active configuration exists")
  else if active.isSome ∧ value.expectedRevision ≠ active.map HostConfig.revision then
    .error (.conflict "active configuration revision changed")
  else
    let apiKey := ((filled value.apiKey).or (active.map HostConfig.apiKey)).getD ""
    if named : apiKey ≠ "" then
      let telegramToken := value.telegramBotToken.or (active.bind HostConfig.telegramBotToken)
      if telegramToken = none ∧ value.telegramUserId.isSome then
        .error (.value "Telegram bot token is required when a user ID is configured")
      else .ok ⟨apiKey, value.baseUrl, value.model, telegramToken, value.telegramUserId, named⟩
    else .error (.value "api_key is required for the first configuration")

/-- What `stage` draws at random, and the nonces of the cipher. -/
structure Draws where
  internalToken : String
  pairingCode : String
  nonces : Fin 4 → ByteArray
  issued : internalToken ≠ ""

def pairingCode (plan : Plan) (drawn : String) : Option String :=
  (filled plan.telegramToken).map fun token =>
    if plan.telegramUserId = none then String.ofList (token.toList.drop (token.length - 8)) else drawn

def sealSecrets (revision : Nat) (plan : Plan) (draws : Draws) : SealedSecrets where
  apiKey := encrypt cipher revision "api_key" (draws.nonces 0) (some plan.apiKey)
  internalRuntimeToken := encrypt cipher revision "internal_runtime_token" (draws.nonces 1) (some draws.internalToken)
  telegramBotToken := encrypt cipher revision "telegram_bot_token" (draws.nonces 2) plan.telegramToken
  telegramPairingCode :=
    encrypt cipher revision "telegram_pairing_code" (draws.nonces 3) (pairingCode plan draws.pairingCode)

/-- The transaction of `stage`. -/
def ConfigTable.stage (table : ConfigTable) (plan : Plan) (draws : Draws) (now : Int) : ConfigTable where
  rows := table.rows ++ [⟨table.allocated + 1, .staged, plan.baseUrl, plan.model, plan.telegramUserId,
    sealSecrets cipher (table.allocated + 1) plan draws, now, none⟩]
  allocated := table.allocated + 1

/-- The two updates of `activate`. -/
def ConfigTable.activated (table : ConfigTable) (revision : Nat) : List ConfigRow :=
  Rows.update (fun row => row.revision == revision) (fun row => { row with status := .active, error := none })
    (Rows.update (fun row => row.status == .active) (fun row => { row with status := .inactive }) table.rows)

/-- `activate`, under the unique index `host_one_active_config`. -/
def ConfigTable.activate (table : ConfigTable) (revision : Nat) : Except HostConfigError ConfigTable :=
  match table.rows.find? fun row => row.revision == revision with
  | none => .error (.conflict "configuration is not staged")
  | some row =>
    if row.status ≠ .staged then .error (.conflict "configuration is not staged")
    else if 1 < (table.activated revision).countP fun row => row.status == .active then .error .integrity
    else .ok { table with rows := table.activated revision }

/-- `str(error or "configuration activation failed").strip()[:1_000]` -/
def safeError (error : String) : String :=
  String.ofList ((strip (if error.isEmpty then "configuration activation failed" else error)).toList.take 1000)

def ConfigTable.fail (table : ConfigTable) (revision : Nat) (error : String) : ConfigTable :=
  { table with
    rows := Rows.update (fun row => row.revision == revision && row.status == .staged)
      (fun row => { row with status := .failed, error := some (safeError error) }) table.rows }

/-- The table, and the calls of `stage` that have worked out their plan. -/
structure System where
  table : ConfigTable
  plans : List Plan

def System.start : System := ⟨⟨[], 0⟩, []⟩

inductive Op where
  | begin (value : HostConfigInput)
  | stage (i : Nat) (draws : Draws) (now : Int)
  | activate (revision : Nat)
  | fail (revision : Nat) (error : String)

/-- A call that raises changes nothing. -/
def step (s : System) : Op → System
  | .begin value =>
    match (s.table.active cipher).bind fun active => plan active value with
    | .ok plan => { s with plans := s.plans ++ [plan] }
    | .error _ => s
  | .stage i draws now =>
    match s.plans[i]? with
    | some plan => ⟨s.table.stage cipher plan draws now, s.plans.eraseIdx i⟩
    | none => s
  | .activate revision =>
    match s.table.activate revision with
    | .ok table => { s with table := table }
    | .error _ => s
  | .fail revision error => { s with table := s.table.fail revision error }

end Model

section Ledger

/-- What the store is for: configurations in the order of their revisions, nothing of them hidden. -/
structure Ledger where
  configs : List HostConfig
  plans : List Plan

def Ledger.start : Ledger := ⟨[], []⟩

def Ledger.active (ledger : Ledger) : Option HostConfig := ledger.configs.find? fun config => config.status == .active

def Ledger.get (ledger : Ledger) (revision : Nat) : Option HostConfig :=
  ledger.configs.find? fun config => config.revision == revision

def staged (revision : Nat) (plan : Plan) (draws : Draws) (now : Int) : HostConfig :=
  ⟨revision, .staged, plan.apiKey, plan.baseUrl, plan.model, filled plan.telegramToken, plan.telegramUserId,
    draws.internalToken, filled (pairingCode plan draws.pairingCode), now, none⟩

def HostConfig.retire (config : HostConfig) : HostConfig := { config with status := .inactive }

def HostConfig.serve (config : HostConfig) : HostConfig := { config with status := .active, error := none }

def HostConfig.refuse (error : String) (config : HostConfig) : HostConfig :=
  { config with status := .failed, error := some (safeError error) }

def Ledger.activate (ledger : Ledger) (revision : Nat) : List HostConfig :=
  Rows.update (fun config => config.revision == revision) HostConfig.serve
    (Rows.update (fun config => config.status == .active) HostConfig.retire ledger.configs)

def Ledger.step (ledger : Ledger) : Op → Ledger
  | .begin value =>
    match plan ledger.active value with
    | .ok plan => { ledger with plans := ledger.plans ++ [plan] }
    | .error _ => ledger
  | .stage i draws now =>
    match ledger.plans[i]? with
    | some plan => ⟨ledger.configs ++ [staged (ledger.configs.length + 1) plan draws now], ledger.plans.eraseIdx i⟩
    | none => ledger
  | .activate revision =>
    if (ledger.get revision).any fun config => config.status == .staged then
      { ledger with configs := ledger.activate revision }
    else ledger
  | .fail revision error =>
    { ledger with
      configs := Rows.update (fun config => config.revision == revision && config.status == .staged)
        (HostConfig.refuse error) ledger.configs }

/-- The ledger is numbered, and one configuration at most is active. -/
structure Ledger.Sound (ledger : Ledger) : Prop where
  numbered : ledger.configs.map HostConfig.revision = List.range' 1 ledger.configs.length
  single : (ledger.configs.countP fun config => config.status == .active) ≤ 1

/-- How a status may go on. -/
inductive Moves : ConfigStatus → ConfigStatus → Prop
  | stays (status : ConfigStatus) : Moves status status
  | activated : Moves .staged .active
  | retired : Moves .active .inactive
  | replaced : Moves .staged .inactive
  | refused : Moves .staged .failed

theorem Moves.trans {first second third : ConfigStatus} (left : Moves first second) (right : Moves second third) :
    Moves first third := by
  cases left with
  | stays => exact right
  | activated =>
    cases right with
    | stays => exact .activated
    | retired => exact .replaced
  | retired =>
    cases right
    exact .retired
  | replaced =>
    cases right
    exact .replaced
  | refused =>
    cases right
    exact .refused

/-- The later configuration is the earlier one, with a status that may follow. -/
def Goes (before after : HostConfig) : Prop :=
  Moves before.status after.status ∧
    after = { before with status := after.status, error := after.error }

theorem Goes.refl (config : HostConfig) : Goes config config := ⟨.stays _, rfl⟩

theorem Goes.trans {first second third : HostConfig} (left : Goes first second) (right : Goes second third) :
    Goes first third := by
  refine ⟨left.1.trans right.1, ?_⟩
  rw [right.2, left.2]

variable {ledger : Ledger}

theorem get_update {chosen : HostConfig → Bool} {change : HostConfig → HostConfig}
    (kept : ∀ config, (change config).revision = config.revision) (configs : List HostConfig) (revision : Nat) :
    ((Rows.update chosen change configs).find? fun config => config.revision == revision) =
      (configs.find? fun config => config.revision == revision).map fun config =>
        if chosen config then change config else config :=
  Rows.find_update _ _ _ _ fun config _ => by rw [kept config]

/-- A configuration stays where it is, with a status that may follow. -/
theorem Ledger.step_goes (ledger : Ledger) (op : Op) {revision : Nat} {config : HostConfig}
    (found : ledger.get revision = some config) :
    ∃ later, (ledger.step op).get revision = some later ∧ Goes config later := by
  have number : config.revision = revision := by simpa using List.find?_some found
  cases op with
  | begin value =>
    refine ⟨config, ?_, .refl config⟩
    rw [Ledger.step]
    split <;> exact found
  | stage i draws now =>
    refine ⟨config, ?_, .refl config⟩
    rw [Ledger.step]
    split
    · rw [Ledger.get, List.find?_append]
      rw [Ledger.get] at found
      rw [found, Option.some_or]
    · exact found
  | activate target =>
    rw [Ledger.step]
    split
    · rename_i chosen
      have retired : (if config.status == .active then config.retire else config).revision = revision := by
        split <;> exact number
      have after : Ledger.get { ledger with configs := ledger.activate target } revision =
          some (if revision == target then (if config.status == .active then config.retire else config).serve
            else if config.status == .active then config.retire else config) := by
        rw [Ledger.get, Ledger.activate, get_update (by intro _; rfl), get_update (by intro _; rfl)]
        rw [Ledger.get] at found
        rw [found, Option.map_some, Option.map_some, retired]
      refine ⟨_, after, ?_⟩
      by_cases same : revision = target
      · subst same
        rw [found] at chosen
        have waiting : config.status = .staged := by simpa using chosen
        rw [if_pos (beq_self_eq_true revision), waiting]
        exact ⟨by rw [waiting]; exact .activated, rfl⟩
      · rw [if_neg (by simpa using same)]
        split
        · rename_i now
          exact ⟨by rw [eq_of_beq now]; exact .retired, rfl⟩
        · exact .refl config
    · exact ⟨config, found, .refl config⟩
  | fail target error =>
    have after : (ledger.step (.fail target error)).get revision =
        some (if config.revision == target && config.status == .staged then config.refuse error else config) := by
      rw [Ledger.get, Ledger.step, get_update (by intro _; rfl)]
      rw [Ledger.get] at found
      rw [found, Option.map_some]
    refine ⟨_, after, ?_⟩
    split
    · rename_i chosen
      have waiting : config.status = .staged := by
        simp only [Bool.and_eq_true, beq_iff_eq] at chosen
        exact chosen.2
      exact ⟨by rw [waiting]; exact .refused, rfl⟩
    · exact .refl config

theorem Ledger.Sound.activated (sound : ledger.Sound) (revision : Nat) :
    ((ledger.activate revision).countP fun config => config.status == .active) ≤ 1 := by
  have few : ledger.configs.countP (fun config => config.revision == revision) ≤ 1 := by
    have distinct : (ledger.configs.map HostConfig.revision).Nodup := by
      rw [sound.numbered]
      exact List.nodup_range'
    have counted := Rows.countP_key distinct revision fun _ => true
    simp only [Bool.and_true] at counted
    rw [counted]
    split <;> omega
  refine le_trans ?_ few
  rw [Ledger.activate, Rows.update, Rows.update, List.map_map, List.countP_map]
  apply List.countP_mono_left
  intro config _ active
  by_cases same : config.revision = revision
  · simpa using same
  · by_cases now : config.status = .active <;> simp [now, same, HostConfig.retire] at active

theorem Ledger.step_sound (sound : ledger.Sound) (op : Op) : (ledger.step op).Sound := by
  cases op with
  | begin value =>
    rw [Ledger.step]
    split <;> exact ⟨sound.numbered, sound.single⟩
  | stage i draws now =>
    rw [Ledger.step]
    split
    · refine ⟨Rows.numbered_append sound.numbered rfl, ?_⟩
      rw [List.countP_append]
      exact sound.single
    · exact sound
  | activate target =>
    rw [Ledger.step]
    split
    · refine ⟨?_, sound.activated target⟩
      have kept : (ledger.activate target).map HostConfig.revision = ledger.configs.map HostConfig.revision := by
        rw [Ledger.activate, Rows.map_update HostConfig.revision (by intro _ _; rfl),
          Rows.map_update HostConfig.revision (by intro _ _; rfl)]
      have long : (ledger.activate target).length = ledger.configs.length := by
        simpa using congrArg List.length kept
      rw [kept, long, sound.numbered]
    · exact sound
  | fail target error =>
    rw [Ledger.step]
    refine ⟨?_, ?_⟩
    · rw [Rows.map_update HostConfig.revision (by intro _ _; rfl), sound.numbered, Rows.update, List.length_map]
    · refine le_trans ?_ sound.single
      rw [Rows.update, List.countP_map]
      apply List.countP_mono_left
      intro config _ active
      rw [Function.comp_apply] at active
      split at active
      · cases active
      · exact active

end Ledger

section Simulation

variable {cipher : HostKeySecretCipher} {s : System} {ledger : Ledger}

/-- The row holds the configuration, under the key of the host. -/
def Holds (cipher : HostKeySecretCipher) (row : ConfigRow) (config : HostConfig) : Prop := decode cipher row = .ok config

theorem decrypt_encrypt (revision : Nat) (name : String) (nonce : ByteArray) (value : Option String) :
    decrypt cipher revision name (encrypt cipher revision name nonce value) = .ok value := by
  cases value with
  | none => rfl
  | some text =>
    have read : String.fromUTF8? text.toUTF8 = some text := by
      rw [String.fromUTF8?, String.toUTF8_eq_toByteArray, dif_pos text.isValidUTF8]
      rfl
    simp only [encrypt, Option.map_some, decrypt, cipher.inverts, read]

theorem assemble_eq_ok {row : ConfigRow} {apiKey internal telegram pairing : Option String} {config : HostConfig}
    (done : assemble row apiKey internal telegram pairing = .ok config) :
    (config.revision = row.revision ∧ config.status = row.status ∧ config.error = row.error) ∧
      ∀ status error, assemble { row with status := status, error := error } apiKey internal telegram pairing =
        .ok { config with status := status, error := error } := by
  unfold assemble at done ⊢
  split at done
  · cases done
    exact ⟨⟨rfl, rfl, rfl⟩, fun _ _ => rfl⟩
  · cases done

/-- What a row holds shows its number and status, and keeps its secrets under another status. -/
theorem Holds.spec {row : ConfigRow} {config : HostConfig} (holds : Holds cipher row config) :
    (config.revision = row.revision ∧ config.status = row.status ∧ config.error = row.error) ∧
      ∀ status error, Holds cipher { row with status := status, error := error }
        { config with status := status, error := error } := by
  obtain ⟨apiKey, first, rest⟩ := bind_eq_ok holds
  obtain ⟨internal, second, rest⟩ := bind_eq_ok rest
  obtain ⟨telegram, third, rest⟩ := bind_eq_ok rest
  obtain ⟨pairing, fourth, rest⟩ := bind_eq_ok rest
  obtain ⟨shown, restated⟩ := assemble_eq_ok rest
  refine ⟨shown, fun status error => ?_⟩
  simp only [Holds, decode, first, second, third, fourth, ok_bind]
  exact restated status error

theorem filled_of_ne {text : String} (shown : text ≠ "") : filled (some text) = some text := by
  simp [filled, Option.filter, shown]

theorem holds_staged (revision : Nat) (plan : Plan) (draws : Draws) (now : Int) :
    Holds cipher ⟨revision, .staged, plan.baseUrl, plan.model, plan.telegramUserId,
      sealSecrets cipher revision plan draws, now, none⟩ (staged revision plan draws now) := by
  simp only [Holds, decode, sealSecrets, decrypt_encrypt, ok_bind, assemble, filled_of_ne plan.named,
    filled_of_ne draws.issued]
  rfl

/-- The table is the ledger under the cipher, and the calls in progress are the same. -/
structure Shows (cipher : HostKeySecretCipher) (s : System) (ledger : Ledger) : Prop where
  holds : List.Forall₂ (Holds cipher) s.table.rows ledger.configs
  plans : s.plans = ledger.plans
  allocated : s.table.allocated = ledger.configs.length

theorem decodeFound_eq {row : Option ConfigRow} {config : Option HostConfig} (related : Option.Rel (Holds cipher) row config) :
    decodeFound cipher row = .ok config := by
  cases related with
  | none => rfl
  | some holds => rw [decodeFound, holds, Except.map]

theorem Holds.revision {row : ConfigRow} {config : HostConfig} (holds : Holds cipher row config) (revision : Nat) :
    (row.revision == revision) = (config.revision == revision) := by
  rw [holds.spec.1.1]

theorem Holds.status {row : ConfigRow} {config : HostConfig} (holds : Holds cipher row config) (status : ConfigStatus) :
    (row.status == status) = (config.status == status) := by
  rw [holds.spec.1.2.1]

theorem Shows.active (shows : Shows cipher s ledger) : s.table.active cipher = .ok ledger.active :=
  decodeFound_eq (Rows.find_related shows.holds fun _ _ holds => holds.status .active)

theorem Shows.get (shows : Shows cipher s ledger) (revision : Nat) :
    s.table.get cipher revision = .ok (ledger.get revision) :=
  decodeFound_eq (Rows.find_related shows.holds fun _ _ holds => holds.revision revision)

theorem Shows.activated (shows : Shows cipher s ledger) (revision : Nat) :
    List.Forall₂ (Holds cipher) (s.table.activated revision) (ledger.activate revision) := by
  refine Rows.forall₂_update (Rows.forall₂_update shows.holds (fun _ _ holds => holds.status .active) ?_)
    (fun _ _ holds => holds.revision revision) fun _ _ holds => holds.spec.2 .active none
  intro row config holds
  have shown : config.retire = { config with status := .inactive, error := row.error } := by
    rw [← holds.spec.1.2.2]
    rfl
  rw [shown]
  exact holds.spec.2 .inactive row.error

theorem Shows.few (shows : Shows cipher s ledger) (sound : ledger.Sound) (revision : Nat) :
    ((s.table.activated revision).countP fun row => row.status == .active) ≤ 1 := by
  rw [Rows.countP_related (shows.activated revision) fun _ _ holds => holds.status .active]
  exact sound.activated revision

/-- Activation finds the same configuration staged, and the unique index does not stand in its way. -/
theorem Shows.activate (shows : Shows cipher s ledger) (sound : ledger.Sound) (revision : Nat) :
    Shows cipher (step cipher s (.activate revision)) (ledger.step (.activate revision)) := by
  have related := Rows.find_related shows.holds fun _ _ holds => holds.revision revision
  rw [step, Ledger.step, ConfigTable.activate, Ledger.get]
  generalize (s.table.rows.find? fun row => row.revision == revision) = row at related ⊢
  generalize (ledger.configs.find? fun config => config.revision == revision) = config at related ⊢
  cases related with
  | none => exact shows
  | @some row config holds =>
    have same := holds.spec.1.2.1
    dsimp only [Option.any_some]
    by_cases waiting : config.status = .staged
    · rw [if_neg (not_not.mpr (same.symm.trans waiting)), if_neg (not_lt.mpr (shows.few sound revision)),
        if_pos (by simpa using waiting)]
      refine ⟨shows.activated revision, shows.plans, ?_⟩
      rw [shows.allocated]
      simp [Ledger.activate, Rows.update]
    · rw [if_pos fun other => waiting (same.trans other), if_neg (by simpa using waiting)]
      exact shows

theorem step_shows (shows : Shows cipher s ledger) (sound : ledger.Sound) (op : Op) :
    Shows cipher (step cipher s op) (ledger.step op) := by
  cases op with
  | begin value =>
    rw [step, Ledger.step, shows.active]
    dsimp only [Except.bind]
    cases plan ledger.active value with
    | error _ => exact shows
    | ok plan => exact ⟨shows.holds, by rw [shows.plans], shows.allocated⟩
  | stage i draws now =>
    rw [step, Ledger.step, shows.plans]
    cases ledger.plans[i]? with
    | none => exact shows
    | some plan =>
      refine ⟨?_, rfl, by simp [ConfigTable.stage, shows.allocated]⟩
      dsimp only
      rw [ConfigTable.stage, shows.allocated]
      exact List.rel_append shows.holds (.cons (holds_staged _ plan draws now) .nil)
  | activate revision => exact shows.activate sound revision
  | fail revision error =>
    refine ⟨?_, shows.plans, by simp [step, ConfigTable.fail, Ledger.step, shows.allocated, Rows.update]⟩
    exact Rows.forall₂_update shows.holds
      (fun _ _ holds => by rw [holds.revision revision, holds.status .staged])
      fun _ _ holds => holds.spec.2 .failed (some (safeError error))

theorem Shows.never_integrity (shows : Shows cipher s ledger) (sound : ledger.Sound) (revision : Nat) :
    s.table.activate revision ≠ .error .integrity := by
  intro refused
  rw [ConfigTable.activate] at refused
  split at refused
  · cases refused
  · split at refused
    · cases refused
    · rw [if_neg (not_lt.mpr (shows.few sound revision))] at refused
      cases refused

end Simulation

section Runs

variable (cipher : HostKeySecretCipher)

/-- Induction on the calls, from the state they start in. -/
theorem exec_shows {s : System} {ledger : Ledger} (shows : Shows cipher s ledger) (sound : ledger.Sound) (ops : List Op) :
    Shows cipher (Run.exec (step cipher) s ops) (Run.exec Ledger.step ledger ops) ∧
      (Run.exec Ledger.step ledger ops).Sound := by
  induction ops generalizing s ledger with
  | nil => exact ⟨shows, sound⟩
  | cons op ops ih => exact ih (step_shows shows sound op) (Ledger.step_sound sound op)

theorem start_shows (ops : List Op) :
    Shows cipher (Run.exec (step cipher) .start ops) (Run.exec Ledger.step .start ops) ∧
      (Run.exec Ledger.step .start ops).Sound := by
  have shows : Shows cipher .start .start := ⟨.nil, rfl, rfl⟩
  have sound : Ledger.Sound .start := ⟨rfl, Nat.zero_le 1⟩
  exact exec_shows cipher shows sound ops

theorem Ledger.exec_goes (ledger : Ledger) (ops : List Op) {revision : Nat} {config : HostConfig}
    (found : ledger.get revision = some config) :
    ∃ later, (Run.exec Ledger.step ledger ops).get revision = some later ∧ Goes config later := by
  induction ops generalizing ledger config with
  | nil => exact ⟨config, found, .refl config⟩
  | cons op ops ih =>
    obtain ⟨middle, shown, goes⟩ := Ledger.step_goes ledger op found
    obtain ⟨later, last, onward⟩ := ih _ shown
    exact ⟨later, last, goes.trans onward⟩

/-- Whatever calls came before, the store answers as the ledger does: every row can be read again, and the unique index
never refuses an activation. -/
theorem store_refines_ledger (ops : List Op) (revision : Nat) :
    (Run.exec (step cipher) .start ops).table.active cipher = .ok (Run.exec Ledger.step .start ops).active ∧
      (Run.exec (step cipher) .start ops).table.get cipher revision =
        .ok ((Run.exec Ledger.step .start ops).get revision) ∧
      (Run.exec (step cipher) .start ops).table.activate revision ≠ .error .integrity ∧
      ((Run.exec (step cipher) .start ops).table.rows.countP fun row => row.status == .active) ≤ 1 := by
  obtain ⟨shows, sound⟩ := start_shows cipher ops
  refine ⟨shows.active, shows.get revision, shows.never_integrity sound revision, ?_⟩
  rw [Rows.countP_related shows.holds fun _ _ holds => holds.status .active]
  exact sound.single

/-- What the store gives for a revision it gives after any later calls, with a status that may follow. -/
theorem revision_kept (before after : List Op) (revision : Nat) (config : HostConfig)
    (given : (Run.exec (step cipher) .start before).table.get cipher revision = .ok (some config)) :
    ∃ later, (Run.exec (step cipher) .start (before ++ after)).table.get cipher revision = .ok (some later) ∧
      Goes config later := by
  rw [(start_shows cipher before).1.get revision] at given
  obtain ⟨later, shown, goes⟩ :=
    Ledger.exec_goes (Run.exec Ledger.step .start before) after (Except.ok.inj given)
  refine ⟨later, ?_, goes⟩
  rw [(start_shows cipher (before ++ after)).1.get revision, Run.exec_append, shown]

def sampleInput (expectedRevision : Option Nat) : HostConfigInput :=
  ⟨expectedRevision, some "sk", "https://api", "model", none, none⟩

theorem issued_sample : "token" ≠ "" := by decide

def sampleDraws : Draws := ⟨"token", "pair", fun _ => .empty, issued_sample⟩

def sampleBefore : List Op := [.begin (sampleInput none), .stage 0 sampleDraws 1, .activate 1]

def sampleAfter : List Op := [.begin (sampleInput (some 1)), .stage 0 sampleDraws 2, .activate 2]

/-- The first configuration, replaced by a second one. -/
theorem revision_kept_sample : ∃ later,
    (Run.exec (step clearCipher) .start (sampleBefore ++ sampleAfter)).table.get clearCipher 1 = .ok (some later) ∧
      Goes ⟨1, .active, "sk", "https://api", "model", none, none, "token", none, 1, none⟩ later := by
  refine revision_kept clearCipher sampleBefore sampleAfter 1 _ ?_
  rw [(store_refines_ledger clearCipher sampleBefore 1).2.1]
  decide +kernel

end Runs

end OpenTulpa.Host.ConfigStore
