import PersonalAssistant.Dto.Delivery
import PersonalAssistant.Egress.Allowlist
import PersonalAssistant.Lib.Effect
import PersonalAssistant.Lib.Json

/-!
# The WhatsApp client

Three calls that send the access token. The server is a sequence of answers, one for each request; where
it has no answer left the connection breaks. `urlopen` follows redirects on its own, while the opener of
`download_media` hands each of them back.
-/
namespace PersonalAssistant

open Lib

/-- What the client takes from its libraries. -/
structure HttpLibrary where
  tables : Url.Tables
  urljoin : String → String → String
  /-- `json.loads(raw.decode("utf-8"))`, and `none` where it raises. -/
  decode : List UInt8 → Option Json
  /-- `str(value)`. -/
  str : Json → String

structure HttpRequest where
  url : String
  method : String
  headers : List (String × String)
  data : Option Json

inductive HttpAnswer where
  | reply (status : Nat) (location : Option String) (retryAfter : Option Nat) (body : List UInt8)
  | broken

/-- What an opener gives back. -/
inductive Opened where
  | response (status : Nat) (retryAfter : Option Nat) (body : List UInt8)
  | httpError (status : Nat) (location : Option String) (retryAfter : Option Nat) (body : List UInt8)
  | networkError

/-- The requests sent so far and the answers to come. -/
structure Wire where
  sent : List HttpRequest
  answers : List HttpAnswer

namespace HttpLibrary

variable (lib : HttpLibrary)

def opened : HttpAnswer → Opened
  | .reply status location retryAfter body =>
    if 200 ≤ status ∧ status < 300 then .response status retryAfter body
    else .httpError status location retryAfter body
  | .broken => .networkError

/-- Whether `urlopen` follows a redirect. -/
def follows (method : String) (status : Nat) : Bool :=
  if method = "POST" then [301, 302, 303].contains status else [301, 302, 303, 307, 308].contains status

def contentHeaders : List String := ["Content-Length", "Content-Type"]

/-- The request that follows an answer, if any. -/
def redirect (req : HttpRequest) : HttpAnswer → Option HttpRequest
  | .reply status (some location) _ _ =>
    if follows req.method status then
      some ⟨lib.urljoin req.url location, "GET", req.headers.filter fun h => !contentHeaders.contains h.1, none⟩
    else none
  | _ => none

/-- `urlopen`, over the answers to come: what it sends, what it gives back and the answers left. The
library's limit on redirects and its check of their scheme are left out: every `Location` is followed. -/
def follow : List HttpAnswer → HttpRequest → List HttpRequest × Opened × List HttpAnswer
  | [], req => ([req], .networkError, [])
  | answer :: answers, req =>
    match lib.redirect req answer with
    | some next =>
      let (sent, result, left) := follow answers next
      (req :: sent, result, left)
    | none => ([req], opened answer, answers)

/-- `urllib_request.urlopen(req)`. -/
def urlopen (req : HttpRequest) : Op Wire PyError Opened := fun w =>
  let (sent, result, left) := lib.follow w.answers req
  (.ok result, ⟨w.sent ++ sent, left⟩)

/-- `opener.open(req)` without redirects. -/
def openOnce (req : HttpRequest) : Op Wire PyError Opened := fun w =>
  match w.answers with
  | [] => (.ok .networkError, ⟨w.sent ++ [req], []⟩)
  | answer :: answers => (.ok (opened answer), ⟨w.sent ++ [req], answers⟩)

end HttpLibrary

/-! ## Results -/

structure WhatsAppProviderResult where
  outcome : NotificationOutcome
  providerCode : Option Nat
  retryAfter : Option Nat
  notificationId : Option String

namespace WhatsAppProviderResult

def unknown : WhatsAppProviderResult := ⟨.unknownOutcome, none, none, none⟩

/-- `_failure_outcome` of a status. -/
def failureOutcome (code : Nat) : NotificationOutcome :=
  if code = 429 ∨ 500 ≤ code then .knownTransient
  else if 400 ≤ code ∧ code < 500 then .permanent
  else .unknownOutcome

/-- `_classify_failure` of a status. -/
def classifyFailure (code : Nat) (retryAfter : Option Nat) : Except PyError WhatsAppProviderResult :=
  if 100 ≤ code ∧ code ≤ 599 then
    .ok ⟨failureOutcome code, some code, if failureOutcome code = .knownTransient then retryAfter else none, none⟩
  else .error (.validationError "WhatsAppProviderResult")

/-- `_classify_response`. -/
def classifyResponse (lib : HttpLibrary) (raw : List UInt8) : WhatsAppProviderResult :=
  match lib.decode raw with
  | some (.obj payload) =>
    match payload.lookup "messages" with
    | some (.arr (.obj first :: _)) =>
      match first.lookup "id" with
      | some (.str messageId) =>
        if strip messageId = "" then unknown else ⟨.success, none, none, some (strip messageId)⟩
      | _ => unknown
    | _ => unknown
  | _ => unknown

end WhatsAppProviderResult

/-! ## The client -/

def graphApi : String := "https://graph.facebook.com"

/-- A client whose allowlist, if it has one, covers the API. -/
structure WhatsAppGraphApiClient (lib : HttpLibrary) where
  accessToken : String
  phoneNumberId : String
  apiVersion : String
  egressAllowlist : Option EgressAllowlist
  covered : ∀ a ∈ egressAllowlist, a.allows lib.tables graphApi = true

namespace WhatsAppGraphApiClient

variable {lib : HttpLibrary}

/-- The constructor. -/
def create (lib : HttpLibrary) (accessToken phoneNumberId apiVersion : String)
    (egressAllowlist : Option EgressAllowlist) : Except PyError (WhatsAppGraphApiClient lib) :=
  if strip accessToken = "" then .error (.valueError "whatsapp access token is required")
  else if strip phoneNumberId = "" then .error (.valueError "whatsapp phone number id is required")
  else if h : ∀ a ∈ egressAllowlist, a.allows lib.tables graphApi = true then
    .ok ⟨strip accessToken, strip phoneNumberId, strip apiVersion, egressAllowlist, h⟩
  else .error (EgressAllowlist.notAllowed (((urlAuthority lib.tables graphApi).map Prod.snd).getD ""))

variable (client : WhatsAppGraphApiClient lib)

def authorization : String × String := ("Authorization", "Bearer " ++ client.accessToken)

/-- `self._egress_allowlist.require(url)`, where there is one. -/
def requireTarget (url : String) : Except PyError Unit :=
  match client.egressAllowlist with
  | none => .ok ()
  | some a => a.require lib.tables url

def sendRequest (recipient text : String) : HttpRequest where
  url := graphApi ++ "/" ++ client.apiVersion ++ "/" ++ client.phoneNumberId ++ "/messages"
  method := "POST"
  headers := [client.authorization, ("Content-Type", "application/json")]
  data := some (.obj [("messaging_product", .str "whatsapp"), ("recipient_type", .str "individual"),
    ("to", .str recipient), ("type", .str "text"),
    ("text", .obj [("preview_url", .bool false), ("body", .str text)])])

/-- `_send`. -/
def send (lib : HttpLibrary) (req : HttpRequest) : Op Wire PyError WhatsAppProviderResult := do
  match ← lib.urlopen req with
  | .response status retryAfter body =>
    if 400 ≤ status then Op.ofExcept (WhatsAppProviderResult.classifyFailure status retryAfter)
    else pure (WhatsAppProviderResult.classifyResponse lib body)
  | .httpError status _ retryAfter _ =>
    Op.ofExcept (WhatsAppProviderResult.classifyFailure status retryAfter)
  | .networkError => pure .unknown

/-- `send_message`. -/
def sendMessage (recipient text : String) : Op Wire PyError WhatsAppProviderResult :=
  send lib (client.sendRequest recipient text)

def mediaRequest (mediaId : String) : HttpRequest where
  url := graphApi ++ "/" ++ client.apiVersion ++ "/" ++ strip mediaId
  method := "GET"
  headers := [client.authorization]
  data := none

/-- `bool(value)`. -/
def truthy : Json → Bool
  | .null => false
  | .bool b => b
  | .num n => !(n.text.toList.takeWhile fun c => !(c == 'e' || c == 'E')).all fun c =>
      c == '0' || c == '.' || c == '-'
  | .str s => s ≠ ""
  | .arr items => !items.isEmpty
  | .obj members => !members.isEmpty

/-- The `url` of a decoded answer. -/
def mediaUrlOf (lib : HttpLibrary) (raw : List UInt8) : Except PyError String :=
  match lib.decode raw with
  | none => .error (.valueError "invalid JSON")
  | some (.obj decoded) =>
    match (decoded.lookup "url").filter truthy with
    | some url => .ok (lib.str url)
    | none => .error (.runtimeError "WhatsApp get_media_url returned invalid response")
  | some _ => .error (.runtimeError "WhatsApp get_media_url returned invalid response")

/-- `get_media_url`. -/
def getMediaUrl (mediaId : String) : Op Wire PyError String := do
  if strip mediaId = "" then Op.raise (.valueError "media_id is required")
  else
    let req := client.mediaRequest mediaId
    Op.ofExcept (client.requireTarget req.url)
    match ← lib.urlopen req with
    | .response _ _ body => Op.ofExcept (mediaUrlOf lib body)
    | .httpError status _ _ _ =>
      Op.raise (.runtimeError ("WhatsApp get_media_url failed with status " ++ toString status))
    | .networkError => Op.raise (.runtimeError "WhatsApp get_media_url network error")

def downloadRequest (url : String) : HttpRequest where
  url := url
  method := "GET"
  headers := [client.authorization, ("User-Agent", "PersonalAssistant/1.0")]
  data := none

/-- The loop of `download_media`, with the rounds left. -/
def downloadFrom : Nat → String → Op Wire PyError (List UInt8)
  | 0, _ => Op.raise (.runtimeError "Too many redirects downloading media")
  | rounds + 1, url => do
    Op.ofExcept (client.requireTarget url)
    match ← HttpLibrary.openOnce (client.downloadRequest url) with
    | .response _ _ body => pure body
    | .httpError status location _ _ =>
      if [301, 302, 303, 307, 308].contains status then
        match location with
        | none | some "" => Op.raise (.runtimeError "Redirect without Location header")
        | some location => downloadFrom rounds (lib.urljoin url location)
      else Op.raise (.runtimeError ("WhatsApp download_media failed with status " ++ toString status))
    | .networkError => Op.raise (.runtimeError "WhatsApp download_media network error")

/-- `download_media`. -/
def downloadMedia (url : String) : Op Wire PyError (List UInt8) := client.downloadFrom 5 url

/-! ## Calls -/

inductive Call where
  | sendMessage (recipient text : String)
  | getMediaUrl (mediaId : String)
  | downloadMedia (url : String)

/-- What a call sends, given the answers of the server. -/
def sentBy (answers : List HttpAnswer) : Call → List HttpRequest
  | .sendMessage recipient text => (client.sendMessage recipient text ⟨[], answers⟩).2.sent
  | .getMediaUrl mediaId => (client.getMediaUrl mediaId ⟨[], answers⟩).2.sent
  | .downloadMedia url => (client.downloadMedia url ⟨[], answers⟩).2.sent

/-- Every request with the token goes to a target on the list, and a download sends at most five. -/
def Confined (allowlist : EgressAllowlist) (answers : List HttpAnswer) (call : Call) : Prop :=
  (∀ req ∈ client.sentBy answers call, client.authorization ∈ req.headers →
    ∃ target ∈ allowlist.entries, urlAuthority lib.tables req.url = some target) ∧
  ∀ url, call = .downloadMedia url → (client.sentBy answers call).length ≤ 5

/-- The request that `urlopen` is called with. -/
def urlopened : Call → Option HttpRequest
  | .sendMessage recipient text => some (client.sendRequest recipient text)
  | .getMediaUrl mediaId => if strip mediaId = "" then none else some (client.mediaRequest mediaId)
  | .downloadMedia _ => none

end WhatsAppGraphApiClient

namespace HttpLibrary

variable {lib : HttpLibrary}

/-- The URLs that the redirects in front of the answers name. -/
def redirectUrls (lib : HttpLibrary) : List HttpAnswer → HttpRequest → List String
  | [], _ => []
  | answer :: answers, req =>
    match lib.redirect req answer with
    | some next => next.url :: redirectUrls lib answers next
    | none => []

/-! ## What is sent -/

theorem urlopen_bind {α : Type} (req : HttpRequest) (f : Opened → Op Wire PyError α) (w : Wire) :
    (lib.urlopen req >>= f) w = f (lib.follow w.answers req).2.1
      ⟨w.sent ++ (lib.follow w.answers req).1, (lib.follow w.answers req).2.2⟩ := rfl

theorem openOnce_bind {α : Type} (req : HttpRequest) (f : Opened → Op Wire PyError α) (w : Wire) :
    ∃ result answers, (openOnce req >>= f) w = f result ⟨w.sent ++ [req], answers⟩ := by
  rw [Op.bind_apply, openOnce]
  cases w.answers with
  | nil => exact ⟨.networkError, [], rfl⟩
  | cons answer answers => exact ⟨opened answer, answers, rfl⟩

/-- A redirect keeps every header but those about the content. -/
theorem mem_headers_redirect {req next : HttpRequest} {answer : HttpAnswer} {h : String × String}
    (hnext : lib.redirect req answer = some next) (hmem : h ∈ req.headers)
    (hcontent : h.1 ∉ contentHeaders) : h ∈ next.headers := by
  unfold redirect at hnext
  split at hnext
  · split_ifs at hnext
    obtain rfl := Option.some.inj hnext
    exact List.mem_filter.mpr ⟨hmem, by simpa using hcontent⟩
  · cases hnext

/-- `urlopen` sends the request it is called with and one for each redirect it follows. -/
theorem urls_follow (answers : List HttpAnswer) (req : HttpRequest) :
    (lib.follow answers req).1.map HttpRequest.url = req.url :: lib.redirectUrls answers req := by
  induction answers generalizing req with
  | nil => rfl
  | cons answer answers ih =>
    unfold follow redirectUrls
    cases hnext : lib.redirect req answer with
    | none => rfl
    | some next => simp [ih next]

theorem headers_follow {h : String × String} (hcontent : h.1 ∉ contentHeaders) (answers : List HttpAnswer)
    (req : HttpRequest) (hmem : h ∈ req.headers) : ∀ req' ∈ (lib.follow answers req).1, h ∈ req'.headers := by
  induction answers generalizing req with
  | nil => simpa [follow] using hmem
  | cons answer answers ih =>
    unfold follow
    cases hnext : lib.redirect req answer with
    | none => simpa using hmem
    | some next =>
      simp only [List.forall_mem_cons]
      exact ⟨hmem, ih next (mem_headers_redirect hnext hmem hcontent)⟩

end HttpLibrary

namespace WhatsAppGraphApiClient

variable {lib : HttpLibrary} {client : WhatsAppGraphApiClient lib} {allowlist : EgressAllowlist}
  {answers : List HttpAnswer}

/-- The API is on the list whatever the path. -/
theorem allows_graphApi (hallowlist : client.egressAllowlist = some allowlist) {url : String} (path : String)
    (hurl : url = graphApi ++ "/" ++ path) : allowlist.allows lib.tables url = true := by
  have hplain : Url.Plain "https".toList "graph.facebook.com".toList := by
    exact ⟨by decide, List.all_eq_true.mp (by decide), by decide, List.all_eq_true.mp (by decide)⟩
  have hbase := @urlAuthority_plain lib.tables _ _ [] hplain (by simp)
  have hpath := @urlAuthority_plain lib.tables _ _ ('/' :: path.toList) hplain (by simp)
  have hcovered := client.covered allowlist hallowlist
  rw [← hcovered]
  apply EgressAllowlist.allows_congr
  have hgraph : graphApi = String.ofList ("https".toList ++ ':' :: '/' :: '/' ::
      ("graph.facebook.com".toList ++ [])) := by decide
  have hfull : url = String.ofList ("https".toList ++ ':' :: '/' :: '/' ::
      ("graph.facebook.com".toList ++ '/' :: path.toList)) := by
    rw [hurl, hgraph, ← String.toList_inj]
    simp
  rw [hfull, hgraph, hpath, hbase]

/-- The loop of a download sends one request a round, each to a target it has checked. -/
theorem sent_downloadFrom (hallowlist : client.egressAllowlist = some allowlist) (rounds : Nat) (url : String)
    (w : Wire) : ∃ sent, (client.downloadFrom rounds url w).2.sent = w.sent ++ sent ∧
      sent.length ≤ rounds ∧ ∀ req ∈ sent, allowlist.allows lib.tables req.url = true := by
  induction rounds generalizing url w with
  | zero => exact ⟨[], by simp [downloadFrom]⟩
  | succ rounds ih =>
    unfold downloadFrom
    have htarget : client.requireTarget url = allowlist.require lib.tables url := by
      rw [requireTarget, hallowlist]
    rw [htarget]
    cases hrequire : allowlist.require lib.tables url with
    | error e => exact ⟨[], by simp⟩
    | ok u =>
      have hallowed := EgressAllowlist.require_eq_ok.mp hrequire
      have hone : ∀ answers', ∃ sent, (⟨w.sent ++ [client.downloadRequest url], answers'⟩ : Wire).sent =
          w.sent ++ sent ∧ sent.length ≤ rounds + 1 ∧
            ∀ req ∈ sent, allowlist.allows lib.tables req.url = true := by
        intro answers'
        exact ⟨[client.downloadRequest url], rfl, by simp, by simpa [downloadRequest] using hallowed⟩
      rw [Op.ofExcept_ok_bind]
      obtain ⟨result, answers, hopen⟩ := HttpLibrary.openOnce_bind (client.downloadRequest url) _ w
      rw [hopen]
      cases result with
      | response status retryAfter body => exact hone answers
      | networkError => exact hone answers
      | httpError status location retryAfter body =>
        simp only
        split_ifs
        · split
          · exact hone answers
          · exact hone answers
          · obtain ⟨sent, hsent, hlength, hall⟩ := ih (lib.urljoin url _)
              ⟨w.sent ++ [client.downloadRequest url], answers⟩
            refine ⟨client.downloadRequest url :: sent, ?_, by simpa using hlength, ?_⟩
            · rw [hsent]
              simp
            · simpa [downloadRequest, hallowed] using hall
        · exact hone answers

theorem sent_send (req : HttpRequest) : (send lib req ⟨[], answers⟩).2.sent = (lib.follow answers req).1 := by
  rw [send, HttpLibrary.urlopen_bind]
  cases (lib.follow answers req).2.1 with
  | response status retryAfter body =>
    simp only
    split_ifs <;> rfl
  | httpError status location retryAfter body => rfl
  | networkError => rfl

/-- What a call that uses `urlopen` sends. -/
theorem sentBy_of_urlopened (hallowlist : client.egressAllowlist = some allowlist) {call : Call}
    {req : HttpRequest} (hreq : client.urlopened call = some req) :
    client.sentBy answers call = (lib.follow answers req).1 ∧ client.authorization ∈ req.headers ∧
      allowlist.allows lib.tables req.url = true := by
  cases call with
  | sendMessage recipient text =>
    obtain rfl := Option.some.inj hreq
    exact ⟨sent_send _, List.mem_cons_self, allows_graphApi hallowlist
      (client.apiVersion ++ "/" ++ client.phoneNumberId ++ "/messages")
      (by simp [sendRequest, String.append_assoc])⟩
  | getMediaUrl mediaId =>
    simp only [urlopened] at hreq
    split_ifs at hreq with hblank
    obtain rfl := Option.some.inj hreq
    have hallowed : allowlist.allows lib.tables (client.mediaRequest mediaId).url = true :=
      allows_graphApi hallowlist (client.apiVersion ++ "/" ++ strip mediaId)
        (by simp [mediaRequest, String.append_assoc])
    refine ⟨?_, List.mem_cons_self, hallowed⟩
    have htarget : client.requireTarget (client.mediaRequest mediaId).url = .ok () := by
      rw [requireTarget, hallowlist]
      exact EgressAllowlist.require_eq_ok.mpr hallowed
    rw [sentBy, getMediaUrl, if_neg hblank, htarget, Op.ofExcept_ok_bind, HttpLibrary.urlopen_bind]
    cases (lib.follow answers (client.mediaRequest mediaId)).2.1 <;> rfl
  | downloadMedia url => cases hreq

/-- A call is confined exactly when no redirect that `urlopen` follows on its own leaves the list. -/
theorem confined_iff (lib : HttpLibrary) (client : WhatsAppGraphApiClient lib) (allowlist : EgressAllowlist)
    (hallowlist : client.egressAllowlist = some allowlist) (answers : List HttpAnswer) (call : Call) :
    client.Confined allowlist answers call ↔ ∀ req ∈ client.urlopened call,
      ∀ url ∈ lib.redirectUrls answers req, allowlist.allows lib.tables url = true := by
  simp only [Confined, ← EgressAllowlist.allows_iff]
  cases hcall : client.urlopened call with
  | some req =>
    obtain ⟨hsent, htoken, hallowed⟩ := @sentBy_of_urlopened _ client _ answers hallowlist _ _ hcall
    have hheaders : ∀ req' ∈ (lib.follow answers req).1, client.authorization ∈ req'.headers :=
      HttpLibrary.headers_follow (by simp [authorization, HttpLibrary.contentHeaders]) answers req htoken
    have hurls := @HttpLibrary.urls_follow lib answers req
    have hdownload : ∀ url, call ≠ .downloadMedia url := by
      rintro url rfl
      cases hcall
    rw [hsent]
    constructor
    · rintro ⟨hall, -⟩ req' hreq' url hurl
      obtain rfl := Option.some.inj hreq'
      have hmem : url ∈ (lib.follow answers req).1.map HttpRequest.url := by
        rw [hurls]
        exact List.mem_cons_of_mem _ hurl
      obtain ⟨sent, hsent', rfl⟩ := List.mem_map.mp hmem
      exact hall sent hsent' (hheaders sent hsent')
    · intro hall
      refine ⟨fun req' hreq' _ => ?_, fun url h => absurd h (hdownload url)⟩
      have hmem : req'.url ∈ req.url :: lib.redirectUrls answers req := hurls ▸ List.mem_map_of_mem hreq'
      rcases List.mem_cons.mp hmem with heq | hmem
      · rw [heq]
        exact hallowed
      · exact hall req rfl _ hmem
  | none =>
    refine ⟨fun _ req hreq => absurd hreq (by simp), fun _ => ?_⟩
    cases call with
    | sendMessage recipient text => cases hcall
    | getMediaUrl mediaId =>
      have hblank : strip mediaId = "" := by
        simp only [urlopened] at hcall
        split_ifs at hcall with hblank
        exact hblank
      simp [sentBy, getMediaUrl, hblank]
    | downloadMedia url =>
      obtain ⟨sent, hsent, hlength, hall⟩ := sent_downloadFrom hallowlist 5 url ⟨[], answers⟩
      rw [List.nil_append] at hsent
      rw [sentBy, downloadMedia, hsent]
      exact ⟨fun req hreq _ => hall req hreq, fun _ _ => hlength⟩

/-! ## On a redirect -/

/-- A library for ASCII hosts and absolute locations. -/
def asciiLibrary : HttpLibrary where
  tables := ⟨fun s => String.ofList (s.toList.map Char.toLower), fun _ => false, fun _ _ => rfl⟩
  urljoin _ location := location
  decode _ := none
  str _ := ""

def graphAllowlist : EgressAllowlist := ⟨[("https", "graph.facebook.com")]⟩

def graphClient : WhatsAppGraphApiClient asciiLibrary where
  accessToken := "token"
  phoneNumberId := "1"
  apiVersion := "v21.0"
  egressAllowlist := some graphAllowlist
  covered a ha := by
    obtain rfl := Option.some.inj ha
    decide +kernel

/-- An answer that redirects a request within the list. -/
def movedAnswers : List HttpAnswer :=
  [.reply 302 (some "https://graph.facebook.com/v22.0/42") none [], .reply 200 none none []]

/-- The request of a media address is repeated where the answer points, and stays confined. -/
theorem confined_iff_sample :
    (graphClient.sentBy movedAnswers (.getMediaUrl "42")).map HttpRequest.url =
        ["https://graph.facebook.com/v21.0/42", "https://graph.facebook.com/v22.0/42"] ∧
      graphClient.Confined graphAllowlist movedAnswers (.getMediaUrl "42") := by
  have hsent : (graphClient.sentBy movedAnswers (.getMediaUrl "42")).map HttpRequest.url =
      ["https://graph.facebook.com/v21.0/42", "https://graph.facebook.com/v22.0/42"] := by decide +kernel
  refine ⟨hsent, (confined_iff asciiLibrary graphClient graphAllowlist rfl _ _).mpr ?_⟩
  decide +kernel

/-- A redirected message takes the token to a host that is not on the list. -/
theorem not_confined_redirect : ¬ ∀ (lib : HttpLibrary) (client : WhatsAppGraphApiClient lib)
    (allowlist : EgressAllowlist), client.egressAllowlist = some allowlist → ∀ answers call,
    client.Confined allowlist answers call := by
  intro h
  have hconfined := (h asciiLibrary graphClient graphAllowlist rfl
    [.reply 302 (some "https://evil.example/") none []] (.sendMessage "573001112233" "hola")).1
  obtain ⟨target, hmem, htarget⟩ := hconfined
    ⟨"https://evil.example/", "GET", [graphClient.authorization], none⟩
    (List.mem_cons_of_mem _ List.mem_cons_self) List.mem_cons_self
  have hevil : urlAuthority asciiLibrary.tables "https://evil.example/" = some ("https", "evil.example") := by
    decide +kernel
  obtain rfl := Option.some.inj (hevil.symm.trans htarget)
  exact absurd hmem (by decide)

end WhatsAppGraphApiClient

end PersonalAssistant
