import Mathlib.Data.List.DropRight
import Mathlib.Data.List.Infix
import Mathlib.Logic.Relation
import OpenTulpa.Library.Outcome
import OpenTulpa.Library.Text

/-! Content fetching: every hop of a chain of redirects is checked and pinned to an address before it is requested.
The texts of the chain come from the remote servers, and two libraries read them. -/

namespace OpenTulpa.Integrations.ContentFetch

open Library Outcome Text

section Model

/-- What can be raised; `deadline` is the cancellation at the total time limit. -/
inductive Raised where
  | contentFetchError (code message : String) (retryable : Bool)
  | valueError
  | typeError
  | invalidUrl
  | timeoutException
  | httpError
  | timeoutError
  | other
  | deadline
  deriving DecidableEq

/-- An `httpx.URL`; `target` is the path with the query. -/
structure Url where
  scheme : String
  userinfo : String
  host : String
  port : Option Nat
  target : String
  deriving DecidableEq

/-- `copy_with(host=…)` -/
def Url.copyWith (url : Url) (host : String) : Url := { url with host := host }

structure SplitUrl where
  username : Option String
  password : Option String

/-- What `httpx.URL` raises. -/
inductive UrlError where
  | invalidUrl
  | typeError
  | valueError
  deriving DecidableEq

def UrlError.raised : UrlError → Raised
  | .invalidUrl => .invalidUrl
  | .typeError => .typeError
  | .valueError => .valueError

/-- What ends an exchange with a server: an `httpx.TimeoutException`, another `httpx.HTTPError`, or the total time limit. -/
inductive TransportError where
  | timeoutException
  | httpError
  | deadline
  deriving DecidableEq

def TransportError.raised : TransportError → Raised
  | .timeoutException => .timeoutException
  | .httpError => .httpError
  | .deadline => .deadline

inductive IpAddress where
  | v4 (value : BitVec 32)
  | v6 (value : BitVec 128)
  deriving DecidableEq

structure AddressKind where
  isGlobal : Bool
  isPrivate : Bool
  isLoopback : Bool
  isLinkLocal : Bool
  isMulticast : Bool
  isReserved : Bool
  isUnspecified : Bool
  deriving DecidableEq

/-- What the service takes from the language and the client. No value stands for a `ValueError`; `nextRequest` is the
client's own preparation of the request a redirect asks for. -/
structure Platform where
  lower : String → String
  int : String → Option Int
  urlsplit : String → Option SplitUrl
  urljoin : String → String → Option String
  ipAddress : String → Option IpAddress
  addressText : IpAddress → String
  kind : IpAddress → AddressKind
  url : String → Except UrlError Url
  netloc : Url → String
  urlText : Url → String
  nextRequest : Url → String → Except Raised Unit
  charsetEncoding : String → Option (Option String)
  extract : List UInt8 → String → String → String → Except Raised (Option String × Option String)

/-- A response: its headers by their names, and the pieces of its body up to a failure. -/
structure Response where
  statusCode : Nat
  headers : String → Option String
  chunks : List (List UInt8)
  broken : Option TransportError

/-- What the resolver and the servers answer at each hop. -/
structure World where
  resolve : Nat → String → Nat → Except Raised (List String)
  reply : Nat → Except TransportError Response

structure Service where
  allowedHttpPorts : List Nat
  allowedHttpsPorts : List Nat
  maxBytes : Nat
  maxTextCharacters : Nat
  maxRedirects : Nat
  portsValid : ∀ port ∈ allowedHttpPorts ++ allowedHttpsPorts, 1 ≤ port ∧ port ≤ 65535
  bytesPositive : 0 < maxBytes
  textPositive : 0 < maxTextCharacters

structure Target where
  logicalUrl : Url
  hostname : String
  port : Nat
  address : String
  deriving DecidableEq

def Target.pinnedUrl (target : Target) : Url := target.logicalUrl.copyWith target.address

structure Request where
  url : Url
  hostHeader : String
  sniHostname : String
  deriving DecidableEq

structure FetchResult where
  url : String
  statusCode : Nat
  contentType : String
  charset : String
  title : Option String
  text : String
  bytesRead : Nat
  redirects : Nat
  deriving DecidableEq

end Model

section Checks

def redirectStatuses : List Nat := [301, 302, 303, 307, 308]

def textualApplicationTypes : List String := [
  "application/atom+xml",
  "application/json",
  "application/ld+json",
  "application/rss+xml",
  "application/xhtml+xml",
  "application/xml"]

def blockedHosts : List String :=
  ["instance-data", "instance-data.ec2.internal", "localhost", "metadata", "metadata.google.internal"]

def blockedHostSuffixes : List String := [".home", ".internal", ".lan", ".local", ".localdomain", ".localhost"]

/-- The networks `::/96`, `64:ff9b::/96` and `64:ff9b:1::/48`, each by the bits of its addresses and their number. -/
def blockedIpv6TranslationNetworks : List (Nat × Nat) := [(0, 96), (0x64ff9b0000000000000000, 96), (0x64ff9b0001, 48)]

def controlOrSpace (c : Char) : Bool := c.toNat ≤ 0x20 || c.toNat == 0x7f

def rstripDots (text : String) : String := String.ofList (text.toList.rdropWhile (· == '.'))

variable (platform : Platform)

/-- `is_forbidden_hostname` -/
def isForbiddenHostname (hostname : String) : Bool :=
  let normalized := rstripDots (platform.lower hostname)
  normalized == "" || normalized.toList.contains '%' || blockedHosts.contains normalized ||
    blockedHostSuffixes.any fun suffix => suffix.toList.isSuffixOf normalized.toList

def ipv4Mapped (value : BitVec 128) : Option (BitVec 32) :=
  if value.toNat >>> 32 = 0xffff then some (value.truncate 32) else none

def sixtofour (value : BitVec 128) : Bool := value.toNat >>> 112 == 0x2002

def teredo (value : BitVec 128) : Bool := value.toNat >>> 96 == 0x20010000

def inNetwork (value : BitVec 128) (network : Nat × Nat) : Bool := value.toNat >>> (128 - network.2) == network.1

def AddressKind.refused (kind : AddressKind) : Bool :=
  !kind.isGlobal || kind.isPrivate || kind.isLoopback || kind.isLinkLocal || kind.isMulticast || kind.isReserved ||
    kind.isUnspecified

/-- `is_forbidden_address` -/
def isForbiddenAddress (address : String) : Bool :=
  if address.toList.contains '%' then true
  else match platform.ipAddress address with
    | none => true
    | some (.v4 value) => (platform.kind (.v4 value)).refused
    | some (.v6 value) =>
      match ipv4Mapped value with
      | some mapped => (platform.kind (.v4 mapped)).refused
      | none =>
        sixtofour value || teredo value || blockedIpv6TranslationNetworks.any (inNetwork value) ||
          (platform.kind (.v6 value)).refused

end Checks

section Fetching

def invalidUrl : Raised := .contentFetchError "invalid_url" "A valid HTTP or HTTPS URL is required." false

def urlCredentials : Raised :=
  .contentFetchError "url_credentials" "URLs containing user credentials are not allowed." false

def forbiddenTarget : Raised :=
  .contentFetchError "forbidden_target" "The destination address is not allowed." false

def dnsResolutionFailed : Raised :=
  .contentFetchError "dns_resolution_failed" "The destination hostname could not be resolved." true

def responseTooLarge : Raised :=
  .contentFetchError "response_too_large" "The remote content exceeds the configured size limit." false

def defaultPort (scheme : String) : Nat := if scheme == "https" then 443 else 80

variable (platform : Platform) (service : Service) (world : World)

def Service.allowedPorts (scheme : String) : List Nat :=
  if scheme == "https" then service.allowedHttpsPorts else service.allowedHttpPorts

/-- The checks of a text before `httpx.URL` reads it. -/
def screen (rawUrl : String) : Except Raised Unit :=
  if rawUrl = "" ∨ 8192 < rawUrl.length ∨ rawUrl.toList.any controlOrSpace then .error invalidUrl
  else if rawUrl.toList.contains '\\' then .error invalidUrl
  else match platform.urlsplit rawUrl with
    | none => .error invalidUrl
    | some parsed =>
      if parsed.username.isSome || parsed.password.isSome then .error urlCredentials else .ok ()

def logicalUrl (rawUrl : String) : Except Raised Url :=
  match platform.url rawUrl with
  | .error .typeError | .error .valueError => .error invalidUrl
  | .error error => .error error.raised
  | .ok url => .ok url

def hostnameOf (url : Url) : String := rstripDots (platform.lower url.host)

/-- `logical_url.port or …` -/
def portOf (url : Url) : Nat :=
  match url.port with
  | some (port + 1) => port + 1
  | _ => defaultPort (platform.lower url.scheme)

def checkUrl (url : Url) : Except Raised Unit :=
  let scheme := platform.lower url.scheme
  if scheme != "http" && scheme != "https" then
    .error (.contentFetchError "invalid_scheme" "Only HTTP and HTTPS URLs are allowed." false)
  else if url.userinfo != "" then .error urlCredentials
  else if hostnameOf platform url == "" || (hostnameOf platform url).toList.contains '%' then
    .error (.contentFetchError "invalid_url" "A valid destination hostname is required." false)
  else if isForbiddenHostname platform (hostnameOf platform url) then .error forbiddenTarget
  else if (service.allowedPorts scheme).contains (portOf platform url) then .ok ()
  else .error (.contentFetchError "forbidden_port" "The destination port is not allowed." false)

def resolved : Except Raised (List String) → Except Raised (List String)
  | .ok values => .ok (values.map strip)
  | .error (.contentFetchError code message retryable) => .error (.contentFetchError code message retryable)
  | .error .deadline => .error .deadline
  | .error _ => .error dnsResolutionFailed

def addressesOf (hop : Nat) (url : Url) : Except Raised (List String) :=
  match platform.ipAddress (hostnameOf platform url) with
  | some literal => .ok [platform.addressText literal]
  | none => resolved (world.resolve hop (hostnameOf platform url) (portOf platform url))

/-- The first of the addresses, when none of them is forbidden. -/
def choose : List String → Except Raised String
  | [] => .error dnsResolutionFailed
  | address :: addresses =>
    if (address :: addresses).any (isForbiddenAddress platform) then .error forbiddenTarget else .ok address

/-- `_resolve_target` -/
def resolveTarget (hop : Nat) (rawUrl : String) : Except Raised Target := do
  screen platform rawUrl
  let url ← logicalUrl platform rawUrl
  checkUrl platform service url
  let addresses ← addressesOf platform world hop url
  let address ← choose platform addresses
  return ⟨url, hostnameOf platform url, portOf platform url, address⟩

def Target.request (target : Target) : Request :=
  ⟨target.pinnedUrl, platform.netloc target.logicalUrl, target.hostname⟩

def Response.text (response : Response) (name : String) : String := strip ((response.headers name).getD "")

/-- The client's answer to a request. -/
@[grind =] def send (hop : Nat) (target : Target) : Except Raised Response :=
  match world.reply hop with
  | .error error => .error error.raised
  | .ok response =>
    if redirectStatuses.contains response.statusCode then
      match response.headers "location" with
      | none => .ok response
      | some location => platform.nextRequest target.pinnedUrl location >>= fun _ => .ok response
    else .ok response

/-- `_content_type` -/
def contentTypeOf (response : Response) : Except Raised String :=
  let raw := platform.lower (response.text "content-type")
  let contentType := strip (String.ofList (raw.toList.takeWhile (· != ';')))
  if "text/".toList.isPrefixOf contentType.toList || textualApplicationTypes.contains contentType then .ok contentType
  else .error (.contentFetchError "unsupported_content_type"
    "The remote resource is not a supported textual content type." false)

/-- `_content_length` -/
def contentLength (response : Response) : Option Nat :=
  if response.text "content-length" = "" then none
  else (platform.int (response.text "content-length")).bind fun value => if 0 ≤ value then some value.toNat else none

/-- The pieces of a body, read one by one onto what has been read. -/
def readChunks (broken : Option TransportError) : List (List UInt8) → List UInt8 → Except Raised (List UInt8)
  | [], body => match broken with
    | none => .ok body
    | some error => .error error.raised
  | chunk :: chunks, body =>
    if service.maxBytes < body.length + chunk.length then .error responseTooLarge
    else readChunks broken chunks (body ++ chunk)

/-- What is checked of a response that is no redirect, and its body. -/
def accept (response : Response) : Except Raised (String × List UInt8) :=
  if response.statusCode < 200 || 300 ≤ response.statusCode then
    .error (.contentFetchError "http_status" s!"The remote server returned HTTP {response.statusCode}."
      (500 ≤ response.statusCode))
  else if !(["", "identity"].contains (platform.lower (response.text "content-encoding"))) then
    .error (.contentFetchError "unsupported_content_encoding"
      "The remote resource ignored the required identity encoding." false)
  else do
    let contentType ← contentTypeOf platform response
    if (contentLength platform response).any (service.maxBytes < ·) then .error responseTooLarge
    else
      let body ← readChunks service response.broken response.chunks []
      return (contentType, body)

def charsetOf (response : Response) : Except Raised String :=
  match response.headers "content-type" with
  | none => .ok "utf-8"
  | some header => match platform.charsetEncoding header with
    | none => .error .valueError
    | some charset => .ok ((charset.filter (· != "")).getD "utf-8")

def extracted : Except Raised (Option String × Option String) → Except Raised (String × Option String)
  | .ok (text, title) => .ok (text.getD "", title)
  | .error .deadline => .error .deadline
  | .error _ =>
    .error (.contentFetchError "content_decode_failed" "The remote textual content could not be decoded." false)

def receive (target : Target) (response : Response) (redirects : Nat) : Except Raised FetchResult := do
  let (contentType, body) ← accept platform service response
  let charset ← charsetOf platform response
  let url := platform.urlText target.logicalUrl
  let (text, title) ← extracted (platform.extract body contentType charset url)
  return {
    url := url
    statusCode := response.statusCode
    contentType := contentType
    charset := charset
    title := title
    text := String.ofList (text.toList.take service.maxTextCharacters)
    bytesRead := body.length
    redirects := redirects }

/-- How a pass through the loop ends. -/
inductive Pass where
  | ended (outcome : Except Raised FetchResult)
  | redirected (target : Target) (location : String)

/-- A pass through the loop, with the request it makes, up to the limit on redirects. -/
@[grind =] def pass (redirects : Nat) (rawUrl : String) : Option Request × Pass :=
  match resolveTarget platform service world redirects rawUrl with
  | .error error => (none, .ended (.error error))
  | .ok target =>
    (some (target.request platform),
      match send platform world redirects target with
      | .error error => .ended (.error error)
      | .ok response =>
        if redirectStatuses.contains response.statusCode then
          if response.text "location" = "" then
            .ended (.error (.contentFetchError "invalid_redirect"
              "The remote server returned a redirect without a destination." false))
          else .redirected target (response.text "location")
        else .ended (receive platform service target response redirects))

/-- The loop of `_fetch_within_deadline`, with the requests it makes. -/
@[grind =] def fetchFrom (redirects : Nat) (rawUrl : String) : List Request × Except Raised FetchResult :=
  match pass platform service world redirects rawUrl with
  | (request, .ended outcome) => (request.toList, outcome)
  | (request, .redirected target location) =>
    if service.maxRedirects ≤ redirects then
      (request.toList, .error (.contentFetchError "redirect_limit" "The content fetch exceeded its redirect limit." false))
    else match platform.urljoin (platform.urlText target.logicalUrl) location with
      | none => (request.toList, .error .valueError)
      | some next =>
        let rest := fetchFrom (redirects + 1) next
        (request.toList ++ rest.1, rest.2)
termination_by service.maxRedirects - redirects

/-- The handlers of `_fetch_within_deadline` and of `fetch`. -/
@[grind =] def handle : Raised → Raised
  | .timeoutException => .contentFetchError "fetch_timeout" "The remote server timed out." true
  | .httpError => .contentFetchError "network_error" "The remote content could not be fetched." true
  | .timeoutError | .deadline =>
    .contentFetchError "total_timeout" "The content fetch exceeded its total time limit." true
  | raised => raised

@[grind =] def fetch (url : String) : List Request × Except Raised FetchResult :=
  let fetched := fetchFrom platform service world 0 (strip url)
  (fetched.1, fetched.2.mapError handle)

end Fetching

variable {platform : Platform} {service : Service} {world : World}

section Chain

/-- A hop of a chain: its number and the text it starts from. -/
abbrev Hop := Nat × String

variable (platform service world)

def Follows (hop next : Hop) : Prop :=
  ∃ request target location, pass platform service world hop.1 hop.2 = (request, .redirected target location) ∧
    hop.1 < service.maxRedirects ∧ platform.urljoin (platform.urlText target.logicalUrl) location = some next.2 ∧
      next.1 = hop.1 + 1

def Leads : Hop → Hop → Prop := Relation.ReflTransGen (Follows platform service world)

variable {platform service world}

theorem follows_unique {hop next other : Hop} (first : Follows platform service world hop next)
    (second : Follows platform service world hop other) : next = other := by
  obtain ⟨_, _, _, passed, _, joined, number⟩ := first
  obtain ⟨_, _, _, again, _, joinedAgain, numberAgain⟩ := second
  rw [passed] at again
  cases again
  rw [joined] at joinedAgain
  exact Prod.ext (number.trans numberAgain.symm) (Option.some.inj joinedAgain)

/-- A chain goes on after a hop that is followed. -/
theorem leads_of_follows {hop next : Hop} (follows : Follows platform service world hop next) (last : Hop) :
    Leads platform service world hop last ↔ last = hop ∨ Leads platform service world next last := by
  rw [Leads, Relation.ReflTransGen.cases_head_iff]
  constructor
  · rintro (same | ⟨other, step, rest⟩)
    · exact .inl same.symm
    · exact .inr (follows_unique follows step ▸ rest)
  · rintro (same | rest)
    · exact .inl same.symm
    · exact .inr ⟨next, follows, rest⟩

theorem leads_of_ends {hop : Hop} (ends : ∀ next, ¬ Follows platform service world hop next) (last : Hop) :
    Leads platform service world hop last ↔ last = hop := by
  rw [Leads, Relation.ReflTransGen.cases_head_iff]
  constructor
  · rintro (same | ⟨other, step, _⟩)
    · exact same.symm
    · exact absurd step (ends other)
  · rintro same
    exact .inl same.symm

theorem fetchFrom_follows {redirects : Nat} {rawUrl next : String}
    (follows : Follows platform service world (redirects, rawUrl) (redirects + 1, next)) :
    fetchFrom platform service world redirects rawUrl =
      ((pass platform service world redirects rawUrl).1.toList ++
          (fetchFrom platform service world (redirects + 1) next).1,
        (fetchFrom platform service world (redirects + 1) next).2) := by
  obtain ⟨request, target, location, passed, within, joined, _⟩ := follows
  rw [fetchFrom, passed]
  dsimp only at *
  rw [if_neg (Nat.not_le.mpr within), joined]

theorem fetchFrom_ends {redirects : Nat} {rawUrl : String}
    (ends : ∀ next, ¬ Follows platform service world (redirects, rawUrl) next) :
    (fetchFrom platform service world redirects rawUrl).1 = (pass platform service world redirects rawUrl).1.toList := by
  rw [fetchFrom]
  cases passed : pass platform service world redirects rawUrl with
  | mk request ending => cases ending with
    | ended outcome => rfl
    | redirected target location =>
      dsimp only
      split
      · rfl
      next within =>
        split
        · rfl
        next next joined =>
          exact absurd ⟨request, target, location, passed, Nat.lt_of_not_le within, joined, rfl⟩ (ends (redirects + 1, next))

/-- What holds at the last hop of every chain, and at a hop when it holds at the next, holds at every hop. -/
theorem hop_induction (platform : Platform) (service : Service) (world : World) {motive : Nat → String → Prop}
    (ends : ∀ redirects rawUrl, (∀ next, ¬ Follows platform service world (redirects, rawUrl) next) →
      motive redirects rawUrl)
    (follows : ∀ redirects rawUrl next, Follows platform service world (redirects, rawUrl) (redirects + 1, next) →
      motive (redirects + 1) next → motive redirects rawUrl)
    (redirects : Nat) (rawUrl : String) : motive redirects rawUrl := by
  induction left : service.maxRedirects - redirects generalizing redirects rawUrl with
  | zero =>
    refine ends _ _ fun next step => ?_
    obtain ⟨_, _, _, _, within, _⟩ := step
    dsimp only at within
    omega
  | succ left ih =>
    by_cases goes : ∃ next, Follows platform service world (redirects, rawUrl) next
    · obtain ⟨⟨number, next⟩, step⟩ := goes
      obtain ⟨_, _, _, _, _, _, counted⟩ := id step
      cases counted
      exact follows _ _ _ step (ih _ _ (by omega))
    · exact ends _ _ fun next step => goes ⟨next, step⟩

end Chain

section Errors

/-- The exceptions that the handlers turn into an error of the service, or that are one. -/
@[grind =] def handled : Raised → Bool
  | .valueError | .typeError | .invalidUrl | .other => false
  | _ => true

/-- A result, or an error of the service. -/
def Answers : Except Raised FetchResult → Prop
  | .ok _ | .error (.contentFetchError _ _ _) => True
  | .error _ => False

/-- An exception that no handler takes. -/
def Unhandled {α : Type} (outcome : Except Raised α) : Prop := ∃ error, outcome = .error error ∧ handled error = false

theorem answers_handle (outcome : Except Raised FetchResult) : Answers (outcome.mapError handle) ↔ ¬ Unhandled outcome := by
  cases outcome with
  | ok result => simp [Answers, Unhandled, Except.mapError]
  | error error => cases error <;> simp [Answers, Unhandled, Except.mapError, handle, handled]

theorem not_unhandled_ok {α : Type} (value : α) : ¬ Unhandled (.ok value : Except Raised α) := by
  rintro ⟨_, raised, _⟩
  cases raised

theorem unhandled_error {α : Type} {error : Raised} :
    Unhandled (.error error : Except Raised α) ↔ handled error = false := by
  constructor
  · rintro ⟨_, raised, outside⟩
    cases raised
    exact outside
  · exact fun outside => ⟨error, rfl, outside⟩

/-- What a sequence of steps raises is raised by one of them. -/
theorem unhandled_bind {α β : Type} {first : Except Raised α} {next : α → Except Raised β} :
    Unhandled (first >>= next) ↔ Unhandled first ∨ ∃ value, first = .ok value ∧ Unhandled (next value) := by
  cases first with
  | ok value => simp [not_unhandled_ok]
  | error error => simp [unhandled_error]

theorem handled_transport (error : TransportError) : handled error.raised = true := by
  cases error <;> rfl

theorem not_unhandled_screen (rawUrl : String) : ¬ Unhandled (screen platform rawUrl) := by
  rw [screen]
  split
  · simp [unhandled_error, handled, invalidUrl]
  · split
    · simp [unhandled_error, handled, invalidUrl]
    · split
      · simp [unhandled_error, handled, invalidUrl]
      · split <;> simp [unhandled_error, not_unhandled_ok, handled, urlCredentials]

theorem unhandled_logicalUrl (rawUrl : String) :
    Unhandled (logicalUrl platform rawUrl) ↔ platform.url rawUrl = .error .invalidUrl := by
  rw [logicalUrl]
  cases platform.url rawUrl with
  | ok url => simp [not_unhandled_ok]
  | error error => cases error <;> simp [unhandled_error, handled, invalidUrl, UrlError.raised]

theorem not_unhandled_checkUrl (url : Url) : ¬ Unhandled (checkUrl platform service url) := by
  simp only [checkUrl]
  split_ifs <;> simp [unhandled_error, not_unhandled_ok, handled, urlCredentials, forbiddenTarget]

theorem not_unhandled_addressesOf (hop : Nat) (url : Url) : ¬ Unhandled (addressesOf platform world hop url) := by
  rw [addressesOf]
  split
  · exact not_unhandled_ok _
  · cases world.resolve hop (hostnameOf platform url) (portOf platform url) with
    | ok values => exact not_unhandled_ok _
    | error error => cases error <;> simp [resolved, unhandled_error, handled, dnsResolutionFailed]

theorem not_unhandled_choose (addresses : List String) : ¬ Unhandled (choose platform addresses) := by
  cases addresses with
  | nil => simp [choose, unhandled_error, handled, dnsResolutionFailed]
  | cons address addresses =>
    rw [choose]
    split <;> simp [unhandled_error, not_unhandled_ok, handled, forbiddenTarget]

/-- Of what can go wrong with a target, one thing is not handled: `httpx.URL` refuses a text with an `InvalidURL`. -/
theorem unhandled_resolveTarget (hop : Nat) (rawUrl : String) :
    Unhandled (resolveTarget platform service world hop rawUrl) ↔
      screen platform rawUrl = .ok () ∧ platform.url rawUrl = .error .invalidUrl := by
  simp only [resolveTarget, pure_eq_ok, unhandled_bind, not_unhandled_screen, not_unhandled_checkUrl,
    not_unhandled_addressesOf, not_unhandled_choose, not_unhandled_ok, unhandled_logicalUrl, and_false, exists_false,
    or_false, false_or]
  constructor
  · rintro ⟨⟨⟩, screened, refused⟩
    exact ⟨screened, refused⟩
  · rintro ⟨screened, refused⟩
    exact ⟨(), screened, refused⟩

theorem unhandled_send (hop : Nat) (target : Target) :
    Unhandled (send platform world hop target) ↔
      ∃ response location, world.reply hop = .ok response ∧ redirectStatuses.contains response.statusCode = true ∧
        response.headers "location" = some location ∧ Unhandled (platform.nextRequest target.pinnedUrl location) := by
  rw [send]
  cases replied : world.reply hop with
  | error error => simp [unhandled_error, handled_transport]
  | ok response =>
    dsimp only
    cases redirects : redirectStatuses.contains response.statusCode with
    | false =>
      have direct : response.statusCode ∉ redirectStatuses := by simpa using redirects
      simp [not_unhandled_ok, direct]
    | true =>
      have listed : response.statusCode ∈ redirectStatuses := by simpa using redirects
      rw [if_pos rfl]
      cases located : response.headers "location" with
      | none => simp [not_unhandled_ok, located]
      | some location => simp [unhandled_bind, not_unhandled_ok, listed, located]

theorem not_unhandled_readChunks (broken : Option TransportError) (chunks : List (List UInt8)) (body : List UInt8) :
    ¬ Unhandled (readChunks service broken chunks body) := by
  induction chunks generalizing body with
  | nil => cases broken <;> simp [readChunks, not_unhandled_ok, unhandled_error, handled_transport]
  | cons chunk chunks ih =>
    rw [readChunks]
    split
    · simp [unhandled_error, handled, responseTooLarge]
    · exact ih _

theorem not_unhandled_accept (response : Response) : ¬ Unhandled (accept platform service response) := by
  rw [accept]
  split
  · simp [unhandled_error, handled]
  · split
    · simp [unhandled_error, handled]
    · rw [unhandled_bind, contentTypeOf]
      rintro (typed | ⟨contentType, _, read⟩)
      · split at typed <;> simp [unhandled_error, not_unhandled_ok, handled] at typed
      · split at read
        · simp [unhandled_error, handled, responseTooLarge] at read
        · simp [unhandled_bind, not_unhandled_readChunks, not_unhandled_ok] at read

theorem not_unhandled_extracted (outcome : Except Raised (Option String × Option String)) :
    ¬ Unhandled (extracted outcome) := by
  cases outcome with
  | ok texts => exact not_unhandled_ok _
  | error error => cases error <;> simp [extracted, unhandled_error, handled]

theorem unhandled_charsetOf (response : Response) :
    Unhandled (charsetOf platform response) ↔
      ∃ header, response.headers "content-type" = some header ∧ platform.charsetEncoding header = none := by
  rw [charsetOf]
  cases response.headers "content-type" with
  | none => simp [not_unhandled_ok]
  | some header => cases read : platform.charsetEncoding header <;> simp [not_unhandled_ok, unhandled_error, handled, read]

theorem unhandled_receive (target : Target) (response : Response) (redirects : Nat) :
    Unhandled (receive platform service target response redirects) ↔
      ∃ content header, accept platform service response = .ok content ∧
        response.headers "content-type" = some header ∧ platform.charsetEncoding header = none := by
  rw [receive, unhandled_bind]
  simp only [unhandled_bind, not_unhandled_accept, not_unhandled_extracted, pure_eq_ok, not_unhandled_ok, and_false,
    exists_false, false_or, or_false, unhandled_charsetOf]
  constructor
  · rintro ⟨content, accepted, header, given, unread⟩
    exact ⟨content, header, accepted, given, unread⟩
  · rintro ⟨content, header, accepted, given, unread⟩
    exact ⟨content, accepted, header, given, unread⟩

variable (platform service world)

/-- The hops at which a library raises what no handler takes: `httpx.URL` refuses the text with an `InvalidURL`, the
client cannot prepare the request that a redirect asks for, `urljoin` refuses the location of a redirect that is followed,
or the charset of an accepted response cannot be read. -/
inductive Escapes : Hop → Prop
  | refused {hop : Nat} {rawUrl : String} (screened : screen platform rawUrl = .ok ())
      (refused : platform.url rawUrl = .error .invalidUrl) : Escapes (hop, rawUrl)
  | unprepared {hop : Nat} {rawUrl : String} {target : Target} {response : Response} {location : String} {error : Raised}
      (resolves : resolveTarget platform service world hop rawUrl = .ok target) (replied : world.reply hop = .ok response)
      (redirects : redirectStatuses.contains response.statusCode = true)
      (located : response.headers "location" = some location)
      (raises : platform.nextRequest target.pinnedUrl location = .error error) (outside : handled error = false) :
      Escapes (hop, rawUrl)
  | unjoined {hop : Nat} {rawUrl : String} {request : Option Request} {target : Target} {location : String}
      (passed : pass platform service world hop rawUrl = (request, .redirected target location))
      (within : hop < service.maxRedirects)
      (refused : platform.urljoin (platform.urlText target.logicalUrl) location = none) : Escapes (hop, rawUrl)
  | unread {hop : Nat} {rawUrl : String} {target : Target} {response : Response} {content : String × List UInt8}
      {header : String} (resolves : resolveTarget platform service world hop rawUrl = .ok target)
      (replied : world.reply hop = .ok response) (direct : redirectStatuses.contains response.statusCode = false)
      (accepted : accept platform service response = .ok content)
      (given : response.headers "content-type" = some header) (unread : platform.charsetEncoding header = none) :
      Escapes (hop, rawUrl)

variable {platform service world}

theorem send_ok {hop : Nat} {target : Target} {response : Response} (sent : send platform world hop target = .ok response) :
    world.reply hop = .ok response := by
  rw [send] at sent
  split at sent
  · cases sent
  next answer replied =>
    split at sent
    · split at sent
      · cases sent
        exact replied
      · obtain ⟨_, _, answered⟩ := bind_eq_ok sent
        cases answered
        exact replied
    · cases sent
      exact replied

theorem send_direct {hop : Nat} {target : Target} {response : Response} (replied : world.reply hop = .ok response)
    (direct : redirectStatuses.contains response.statusCode = false) : send platform world hop target = .ok response := by
  rw [send, replied]
  dsimp only
  rw [direct, if_neg Bool.false_ne_true]

/-- The hops of `Escapes`, by the step of the pass that raises. -/
theorem escapes_iff {hop : Nat} {rawUrl : String} :
    Escapes platform service world (hop, rawUrl) ↔
      Unhandled (resolveTarget platform service world hop rawUrl) ∨
      (∃ target, resolveTarget platform service world hop rawUrl = .ok target ∧ Unhandled (send platform world hop target)) ∨
      (∃ target response, resolveTarget platform service world hop rawUrl = .ok target ∧
        send platform world hop target = .ok response ∧ redirectStatuses.contains response.statusCode = false ∧
          Unhandled (receive platform service target response hop)) ∨
      ∃ request target location, pass platform service world hop rawUrl = (request, .redirected target location) ∧
        hop < service.maxRedirects ∧ platform.urljoin (platform.urlText target.logicalUrl) location = none := by
  constructor
  · intro escapes
    cases escapes with
    | refused screened refused => exact .inl ((unhandled_resolveTarget _ _).mpr ⟨screened, refused⟩)
    | unprepared resolves replied redirects located raises outside =>
      exact .inr (.inl ⟨_, resolves, (unhandled_send _ _).mpr ⟨_, _, replied, redirects, located, _, raises, outside⟩⟩)
    | unjoined passed within refused => exact .inr (.inr (.inr ⟨_, _, _, passed, within, refused⟩))
    | unread resolves replied direct accepted given unread =>
      exact .inr (.inr (.inl ⟨_, _, resolves, send_direct replied direct, direct,
        (unhandled_receive _ _ _).mpr ⟨_, _, accepted, given, unread⟩⟩))
  · rintro (resolving | ⟨target, resolves, sending⟩ | ⟨target, response, resolves, sent, direct, receiving⟩ |
      ⟨request, target, location, passed, within, refused⟩)
    · obtain ⟨screened, refused⟩ := (unhandled_resolveTarget _ _).mp resolving
      exact .refused screened refused
    · obtain ⟨response, location, replied, redirects, located, error, raises, outside⟩ := (unhandled_send _ _).mp sending
      exact .unprepared resolves replied redirects located raises outside
    · obtain ⟨content, header, accepted, given, unread⟩ := (unhandled_receive _ _ _).mp receiving
      exact .unread resolves (send_ok sent) direct accepted given unread
    · exact .unjoined passed within refused

/-- A pass that ends the fetch raises what no handler takes at the hops of `Escapes`. -/
theorem unhandled_pass {hop : Nat} {rawUrl : String} {request : Option Request} {outcome : Except Raised FetchResult}
    (passed : pass platform service world hop rawUrl = (request, .ended outcome)) :
    Unhandled outcome ↔ Escapes platform service world (hop, rawUrl) := by
  rw [escapes_iff, passed]
  rw [pass] at passed
  cases resolves : resolveTarget platform service world hop rawUrl with
  | error error =>
    rw [resolves] at passed
    cases passed
    simp [unhandled_error]
  | ok target =>
    rw [resolves] at passed
    have ending := (Prod.ext_iff.mp passed).2
    dsimp only at ending
    cases sent : send platform world hop target with
    | error error =>
      rw [sent] at ending
      cases ending
      simp [unhandled_error, not_unhandled_ok, sent]
    | ok response =>
      rw [sent] at ending
      dsimp only at ending
      cases listed : redirectStatuses.contains response.statusCode with
      | false =>
        rw [listed, if_neg Bool.false_ne_true] at ending
        cases ending
        have direct : response.statusCode ∉ redirectStatuses := by simpa using listed
        simp [not_unhandled_ok, sent, direct]
      | true =>
        have member : response.statusCode ∈ redirectStatuses := by simpa using listed
        rw [listed, if_pos rfl] at ending
        split at ending
        · cases ending
          simp [not_unhandled_ok, unhandled_error, handled, sent, member]
        · cases ending

theorem escapes_redirected {hop : Nat} {rawUrl : String} {request : Option Request} {target : Target} {location : String}
    (passed : pass platform service world hop rawUrl = (request, .redirected target location)) :
    Escapes platform service world (hop, rawUrl) ↔
      hop < service.maxRedirects ∧ platform.urljoin (platform.urlText target.logicalUrl) location = none := by
  rw [escapes_iff, passed]
  rw [pass] at passed
  cases resolves : resolveTarget platform service world hop rawUrl with
  | error error =>
    rw [resolves] at passed
    cases passed
  | ok own =>
    rw [resolves] at passed
    have ending := (Prod.ext_iff.mp passed).2
    dsimp only at ending
    cases sent : send platform world hop own with
    | error error =>
      rw [sent] at ending
      cases ending
    | ok response =>
      rw [sent] at ending
      dsimp only at ending
      cases listed : redirectStatuses.contains response.statusCode with
      | false =>
        rw [listed, if_neg Bool.false_ne_true] at ending
        cases ending
      | true =>
        have member : response.statusCode ∈ redirectStatuses := by simpa using listed
        simp [not_unhandled_ok, sent, member]

theorem unhandled_ends {redirects : Nat} {rawUrl : String}
    (ends : ∀ next, ¬ Follows platform service world (redirects, rawUrl) next) :
    Unhandled (fetchFrom platform service world redirects rawUrl).2 ↔ Escapes platform service world (redirects, rawUrl) := by
  rw [fetchFrom]
  cases passed : pass platform service world redirects rawUrl with
  | mk request ending => cases ending with
    | ended outcome => exact unhandled_pass passed
    | redirected target location =>
      rw [escapes_redirected passed]
      dsimp only
      split
      next limit => simp [unhandled_error, handled, Nat.not_lt.mpr limit]
      next within =>
        split
        next refused => simp [unhandled_error, handled, Nat.lt_of_not_le within, refused]
        next next joined =>
          exact absurd ⟨request, target, location, passed, Nat.lt_of_not_le within, joined, rfl⟩ (ends (redirects + 1, next))

theorem not_escapes_of_follows {hop next : Hop} (follows : Follows platform service world hop next) :
    ¬ Escapes platform service world hop := by
  obtain ⟨request, target, location, passed, _, joined, _⟩ := follows
  intro escapes
  have refused := ((escapes_redirected passed).mp escapes).2
  rw [joined] at refused
  cases refused

theorem unhandled_fetchFrom (redirects : Nat) (rawUrl : String) :
    Unhandled (fetchFrom platform service world redirects rawUrl).2 ↔
      ∃ hop, Leads platform service world (redirects, rawUrl) hop ∧ Escapes platform service world hop := by
  induction redirects, rawUrl using hop_induction platform service world with
  | ends redirects rawUrl ends => simp [unhandled_ends ends, leads_of_ends ends]
  | follows redirects rawUrl next follows ih =>
    simp only [fetchFrom_follows follows, ih, leads_of_follows follows]
    constructor
    · rintro ⟨hop, leads, escapes⟩
      exact ⟨hop, .inr leads, escapes⟩
    · rintro ⟨hop, rfl | leads, escapes⟩
      · exact absurd escapes (not_escapes_of_follows follows)
      · exact ⟨hop, leads, escapes⟩

/-- A fetch ends with a result or an error of the service exactly when no library raises what no handler takes at a hop
of its chain. -/
theorem fetch_answers_iff (platform : Platform) (service : Service) (world : World) (url : String) :
    Answers (fetch platform service world url).2 ↔
      ∀ hop, Leads platform service world (0, strip url) hop → ¬ Escapes platform service world hop := by
  rw [fetch]
  dsimp only
  rw [answers_handle, unhandled_fetchFrom]
  constructor
  · exact fun answers hop leads escapes => answers ⟨hop, leads, escapes⟩
  · exact fun none ⟨hop, leads, escapes⟩ => none hop leads escapes

def sampleUrl : String → Except UrlError Url
  | "http://example.com/" => .ok ⟨"http", "", "example.com", none, "/"⟩
  | "http://example.com:0/" => .ok ⟨"http", "", "example.com", some 0, "/"⟩
  | _ => .error .invalidUrl

def samplePlatform : Platform where
  lower := Text.lower
  int := String.toInt?
  urlsplit := fun _ => some ⟨none, none⟩
  urljoin := fun _ location => some location
  ipAddress := fun text => if text = "93.184.216.34" then some (.v4 0x5db8d822#32) else none
  addressText := fun _ => "93.184.216.34"
  kind := fun _ => ⟨true, false, false, false, false, false, false⟩
  url := sampleUrl
  netloc := fun url => url.host ++ (url.port.map fun port => s!":{port}").getD ""
  urlText := fun url => s!"{url.scheme}://{url.host}{url.target}"
  nextRequest := fun _ _ => .ok ()
  charsetEncoding := fun _ => some none
  extract := fun _ _ _ _ => .ok (some "", none)

def sampleService : Service where
  allowedHttpPorts := [80]
  allowedHttpsPorts := [443]
  maxBytes := 2000000
  maxTextCharacters := 2000000
  maxRedirects := 5
  portsValid := by decide
  bytesPositive := by decide
  textPositive := by decide

def sampleWorld : World where
  resolve := fun _ _ _ => .ok ["93.184.216.34"]
  reply := fun _ => .ok ⟨404, fun _ => none, [], none⟩

/-- A port that is no number is refused by `httpx.URL` alone. -/
theorem invalid_port_escapes :
    ¬ Answers (fetch samplePlatform sampleService sampleWorld "http://example.com:abc/").2 := by
  have stripped : strip "http://example.com:abc/" = "http://example.com:abc/" := by decide +kernel
  have passed : pass samplePlatform sampleService sampleWorld 0 "http://example.com:abc/" =
      (none, .ended (.error .invalidUrl)) := by
    rfl
  rw [fetch, stripped, fetchFrom, passed]
  exact id

end Errors

section Targets

variable (platform service world)

/-- The port that a client connects to for a URL. -/
def connectPort (url : Url) : Nat := url.port.getD (defaultPort (platform.lower url.scheme))

/-- What a request of a hop may reach: the pinned copy of a URL that was read there, at a public address that the
resolver returned for its host or that is its host, on a port that is allowed for its scheme. -/
structure Allowed (hop : Nat) (request : Request) : Prop where
  pinned : ∃ rawUrl url, platform.url rawUrl = .ok url ∧ request.sniHostname = hostnameOf platform url ∧
    request.url = url.copyWith request.url.host
  address : isForbiddenAddress platform request.url.host = false
  answered : (∃ literal, platform.ipAddress request.sniHostname = some literal ∧
      request.url.host = platform.addressText literal) ∨
    ∃ addresses, world.resolve hop request.sniHostname (connectPort platform request.url) = .ok addresses ∧
      request.url.host ∈ addresses.map strip
  hostname : isForbiddenHostname platform request.sniHostname = false
  scheme : platform.lower request.url.scheme = "http" ∨ platform.lower request.url.scheme = "https"
  port : connectPort platform request.url ∈ service.allowedPorts (platform.lower request.url.scheme)

/-- The text of a result comes from the bytes that were read. -/
def FromBody (result : FetchResult) : Prop :=
  ∃ body text, body.length = result.bytesRead ∧ result.bytesRead ≤ service.maxBytes ∧
    platform.extract body result.contentType result.charset result.url = .ok (text, result.title) ∧
      result.text.toList = (text.getD "").toList.take service.maxTextCharacters

/-- What a fetch reaches, how often, and what it returns of it. -/
structure Contained (fetched : List Request × Except Raised FetchResult) : Prop where
  requests : ∀ hop request, fetched.1[hop]? = some request → Allowed platform service world hop request
  bounded : fetched.1.length ≤ service.maxRedirects + 1
  text : ∀ result, fetched.2 = .ok result → FromBody platform service result

/-- The URL of a hop's target names the port 0. -/
def NamesZero (hop : Hop) : Prop :=
  ∃ target, resolveTarget platform service world hop.1 hop.2 = .ok target ∧ target.logicalUrl.port = some 0

variable {platform service world}

theorem mem_of_resolved {outcome : Except Raised (List String)} {addresses : List String}
    (done : resolved outcome = .ok addresses) : ∃ values, outcome = .ok values ∧ addresses = values.map strip := by
  cases outcome with
  | ok values =>
    cases done
    exact ⟨values, rfl, rfl⟩
  | error error => cases error <;> cases done

theorem choose_ok {addresses : List String} {address : String} (chosen : choose platform addresses = .ok address) :
    address ∈ addresses ∧ isForbiddenAddress platform address = false := by
  cases addresses with
  | nil => cases chosen
  | cons first rest =>
    rw [choose] at chosen
    split at chosen
    · cases chosen
    next public_ =>
      cases chosen
      refine ⟨List.mem_cons_self, ?_⟩
      simp only [List.any_cons, Bool.or_eq_true, not_or, Bool.not_eq_true] at public_
      exact public_.1

theorem checkUrl_ok {url : Url} (checked : checkUrl platform service url = .ok ()) :
    (platform.lower url.scheme = "http" ∨ platform.lower url.scheme = "https") ∧
      isForbiddenHostname platform (hostnameOf platform url) = false ∧
        portOf platform url ∈ service.allowedPorts (platform.lower url.scheme) := by
  simp only [checkUrl] at checked
  split_ifs at checked with scheme _ _ forbidden allowed
  refine ⟨?_, by simpa using forbidden, by simpa using allowed⟩
  simp only [Bool.and_eq_true, bne_iff_ne, ne_eq, not_and, not_not] at scheme
  by_cases http : platform.lower url.scheme = "http"
  · exact .inl http
  · exact .inr (scheme http)

theorem resolveTarget_ok {hop : Nat} {rawUrl : String} {target : Target}
    (resolves : resolveTarget platform service world hop rawUrl = .ok target) :
    ∃ url address addresses, platform.url rawUrl = .ok url ∧ checkUrl platform service url = .ok () ∧
      addressesOf platform world hop url = .ok addresses ∧ choose platform addresses = .ok address ∧
        target = ⟨url, hostnameOf platform url, portOf platform url, address⟩ := by
  rw [resolveTarget] at resolves
  obtain ⟨_, _, logical⟩ := bind_eq_ok resolves
  obtain ⟨url, read, checking⟩ := bind_eq_ok logical
  obtain ⟨_, checked, addressing⟩ := bind_eq_ok checking
  obtain ⟨addresses, addressed, choosing⟩ := bind_eq_ok addressing
  obtain ⟨address, chosen, built⟩ := bind_eq_ok choosing
  cases built
  refine ⟨url, address, addresses, ?_, checked, addressed, chosen, rfl⟩
  rw [logicalUrl] at read
  split at read
  · cases read
  · cases read
  · cases read
  next own parsed =>
    cases read
    exact parsed

/-- The port that is checked is the port of the pinned URL, but for an explicit port 0. -/
theorem connectPort_copyWith {url : Url} (address : String) (nonzero : url.port ≠ some 0) :
    connectPort platform (url.copyWith address) = portOf platform url := by
  rw [connectPort, portOf, Url.copyWith]
  dsimp only
  cases named : url.port with
  | none => rfl
  | some port => cases port with
    | zero => exact absurd named nonzero
    | succ port => rfl

theorem not_allowed_zero {hop : Nat} {request : Request} (zero : request.url.port = some 0) :
    ¬ Allowed platform service world hop request := by
  intro allowed
  have member := allowed.port
  rw [connectPort, zero, Option.getD_some, Service.allowedPorts] at member
  have listed : 0 ∈ service.allowedHttpPorts ++ service.allowedHttpsPorts := by
    split at member
    · exact List.mem_append_right _ member
    · exact List.mem_append_left _ member
  exact absurd (service.portsValid 0 listed).1 (by decide)

theorem allowed_request {hop : Nat} {rawUrl : String} {target : Target}
    (resolves : resolveTarget platform service world hop rawUrl = .ok target)
    (nonzero : target.logicalUrl.port ≠ some 0) :
    Allowed platform service world hop (target.request platform) := by
  obtain ⟨url, address, addresses, read, checked, addressed, chosen, rfl⟩ := resolveTarget_ok resolves
  obtain ⟨scheme, hostname, port⟩ := checkUrl_ok checked
  obtain ⟨member, public_⟩ := choose_ok chosen
  have same : connectPort platform (url.copyWith address) = portOf platform url := connectPort_copyWith address nonzero
  refine ⟨⟨rawUrl, url, read, rfl, rfl⟩, public_, ?_, hostname, scheme, same ▸ port⟩
  rw [addressesOf] at addressed
  split at addressed
  next literal parsed =>
    cases addressed
    exact .inl ⟨literal, parsed, List.mem_singleton.mp member⟩
  · obtain ⟨values, answered, listed⟩ := mem_of_resolved addressed
    exact .inr ⟨values, same ▸ answered, listed ▸ member⟩

theorem pass_request (hop : Nat) (rawUrl : String) :
    (pass platform service world hop rawUrl).1 =
      (resolveTarget platform service world hop rawUrl).toOption.map (Target.request platform) := by
  rw [pass]
  cases resolveTarget platform service world hop rawUrl <;> rfl

theorem pass_redirected {hop : Nat} {rawUrl : String} {request : Option Request} {target : Target} {location : String}
    (passed : pass platform service world hop rawUrl = (request, .redirected target location)) :
    resolveTarget platform service world hop rawUrl = .ok target := by
  rw [pass] at passed
  cases resolves : resolveTarget platform service world hop rawUrl with
  | error error =>
    rw [resolves] at passed
    cases passed
  | ok own =>
    rw [resolves] at passed
    have ending := (Prod.ext_iff.mp passed).2
    dsimp only at ending
    split at ending
    · cases ending
    · split_ifs at ending
      cases ending
      rfl

theorem leads_number {hop last : Hop} (leads : Leads platform service world hop last) :
    last = hop ∨ hop.1 < last.1 ∧ last.1 ≤ service.maxRedirects := by
  induction leads with
  | refl => exact .inl rfl
  | tail _ follows ih =>
    obtain ⟨_, _, _, _, within, _, number⟩ := follows
    refine .inr ⟨?_, by omega⟩
    rcases ih with rfl | ⟨later, _⟩ <;> omega

/-- The requests of a fetch are those of the targets of its hops, in their order. -/
theorem requests_at (redirects : Nat) (rawUrl : String) (number : Nat) (request : Request) :
    (fetchFrom platform service world redirects rawUrl).1[number]? = some request ↔
      ∃ text target, Leads platform service world (redirects, rawUrl) (redirects + number, text) ∧
        resolveTarget platform service world (redirects + number) text = .ok target ∧
          request = target.request platform := by
  induction redirects, rawUrl using hop_induction platform service world
    generalizing number with
  | ends redirects rawUrl ends =>
    simp only [fetchFrom_ends ends, pass_request, leads_of_ends ends, Prod.mk.injEq]
    cases number with
    | zero =>
      cases resolves : resolveTarget platform service world redirects rawUrl with
      | error error => simp [Except.toOption, resolves]
      | ok target => simp [Except.toOption, resolves, eq_comm]
    | succ number =>
      cases resolveTarget platform service world redirects rawUrl <;> simp [Except.toOption]
  | follows redirects rawUrl next follows ih =>
    obtain ⟨_, own, _, passed, _⟩ := id follows
    have resolves := pass_redirected passed
    simp only [fetchFrom_follows follows, pass_request, resolves, leads_of_follows follows, Prod.mk.injEq]
    cases number with
    | zero =>
      constructor
      · intro first
        exact ⟨rawUrl, own, .inl ⟨rfl, rfl⟩, resolves, by simpa [Except.toOption, eq_comm] using first⟩
      · rintro ⟨text, target, ⟨_, rfl⟩ | leads, found, rfl⟩
        · have same : own = target := Except.ok.inj (resolves.symm.trans found)
          simp [Except.toOption, same]
        · exfalso
          rcases leads_number leads with same | ⟨later, _⟩
          · have number := congrArg Prod.fst same
            dsimp only at number
            omega
          · dsimp only at later
            omega
    | succ number =>
      have moved : redirects + (number + 1) = redirects + 1 + number := by omega
      have apart : ¬ redirects + (number + 1) = redirects := by omega
      simp only [apart, false_and, false_or]
      simp [Except.toOption, ih, moved]

theorem readChunks_length {broken : Option TransportError} {chunks : List (List UInt8)} {body whole : List UInt8}
    (read : readChunks service broken chunks body = .ok whole) (within : body.length ≤ service.maxBytes) :
    whole.length ≤ service.maxBytes := by
  induction chunks generalizing body with
  | nil =>
    cases broken with
    | none =>
      cases read
      exact within
    | some error => cases read
  | cons chunk chunks ih =>
    rw [readChunks] at read
    split at read
    · cases read
    next room => exact ih read (by rw [List.length_append]; exact Nat.le_of_not_lt room)

theorem accept_length {response : Response} {content : String × List UInt8}
    (accepted : accept platform service response = .ok content) : content.2.length ≤ service.maxBytes := by
  rw [accept] at accepted
  split at accepted
  · cases accepted
  · split at accepted
    · cases accepted
    · obtain ⟨contentType, _, reading⟩ := bind_eq_ok accepted
      split at reading
      · cases reading
      · obtain ⟨body, read, built⟩ := bind_eq_ok reading
        cases built
        exact readChunks_length read (Nat.zero_le _)

theorem fromBody_receive {target : Target} {response : Response} {redirects : Nat} {result : FetchResult}
    (received : receive platform service target response redirects = .ok result) : FromBody platform service result := by
  rw [receive] at received
  obtain ⟨content, accepted, reading⟩ := bind_eq_ok received
  obtain ⟨charset, _, extracting⟩ := bind_eq_ok reading
  obtain ⟨texts, extracts, built⟩ := bind_eq_ok extracting
  cases built
  cases outcome : platform.extract content.2 content.1 charset (platform.urlText target.logicalUrl) with
  | error error =>
    rw [outcome] at extracts
    cases error <;> cases extracts
  | ok own =>
    rw [outcome] at extracts
    cases extracts
    exact ⟨content.2, own.1, rfl, accept_length accepted, outcome, String.toList_ofList⟩

theorem fromBody_fetchFrom (redirects : Nat) (rawUrl : String) (result : FetchResult)
    (fetched : (fetchFrom platform service world redirects rawUrl).2 = .ok result) : FromBody platform service result := by
  induction redirects, rawUrl using hop_induction platform service world with
  | ends redirects rawUrl ends =>
    rw [fetchFrom] at fetched
    cases passed : pass platform service world redirects rawUrl with
    | mk request ending =>
      rw [passed] at fetched
      cases ending with
      | redirected target location =>
        dsimp only at fetched
        split at fetched
        · cases fetched
        next within =>
          split at fetched
          · cases fetched
          next next joined =>
            exact absurd ⟨request, target, location, passed, Nat.lt_of_not_le within, joined, rfl⟩
              (ends (redirects + 1, next))
      | ended outcome =>
        rw [pass] at passed
        dsimp only at fetched
        cases fetched
        cases resolves : resolveTarget platform service world redirects rawUrl with
        | error error =>
          rw [resolves] at passed
          cases passed
        | ok target =>
          rw [resolves] at passed
          have ending := (Prod.ext_iff.mp passed).2
          dsimp only at ending
          split at ending
          · cases ending
          · split_ifs at ending
            · cases ending
            · exact fromBody_receive (Pass.ended.inj ending)
  | follows redirects rawUrl next follows ih =>
    rw [fetchFrom_follows follows] at fetched
    exact ih fetched

end Targets

end OpenTulpa.Integrations.ContentFetch
