import ReliableDelivery.Gateway.AuthService
import ReliableDelivery.Gateway.StaticFiles
import ReliableDelivery.Gateway.WebSocketServer

/-!
# Requests over HTTP

`server.ts`, with `handleUpgrade` of `WebSocketServer.ts`: registration, login, static
files, and the upgrade to a WebSocket.  A request is handled in one go when its body
has come in.
-/

namespace ReliableDelivery

open Decimal Ecmascript

structure RequestUrl where
  pathname : Text
  token : Option Text

/-- What the gateway is given: `url` is the constructor `URL`, which may raise an
exception, with the parameter `token` of the query. -/
structure SiteSettings where
  runtime : Runtime
  plus : Number → Number → Number
  tokenTtlMs : Number
  url : Text → Except JsError RequestUrl
  cwd : Text
  dirname : Text

def SiteSettings.auth (W : SiteSettings) : AuthSettings where
  engine := W.runtime.engine
  plus := W.plus
  tokenTtlMs := W.tokenTtlMs

structure HttpRequest where
  method : Text
  url : Text
  chunks : List Bytes

inductive HttpResponse where
  | json (statusCode : ℕ) (data : AuthResult)
  | file (filePath contentType : Text)
  deriving DecidableEq

inductive UpgradeOutcome where
  | raised (error : JsError)
  | rejected (statusCode : ℕ) (reason : Text)
  | verified (uid : Number)
  deriving DecidableEq

def readJson (R : Runtime) (chunks : List Bytes) : Except JsError Json :=
  if chunks.length = 0 then .ok (.object [])
  else
    match R.parse chunks.flatten with
    | some body => .ok body
    | none => .error ⟨ascii "invalid json body"⟩

/-- A property of the body.  Only `null` has none; other values that are no objects
do not have this one. -/
def member (name : Text) : Json → Except JsError (Option Json)
  | .null =>
      .error ⟨ascii "Cannot read properties of null (reading '" ++ name ++
        ascii "')"⟩
  | .object properties => .ok (property name properties)
  | _ => .ok none

/-- The first lines of `handleRegister` and `handleLogin`. -/
def readCredentials (R : Runtime) (chunks : List Bytes) :
    Except JsError (Number × Text) := do
  let body ← readJson R chunks
  let userId ← toNumber R.engine (← member (ascii "user_id") body)
  let password ← toTextOrEmpty R.engine (← member (ascii "password") body)
  return (userId, password)

namespace AuthService

variable (W : SiteSettings) (s : AuthService)

def handleRegister (chunks : List Bytes) :
    Except JsError (HttpResponse × AuthService) := do
  let (userId, password) ← readCredentials W.runtime chunks
  let (result, s') := s.register W.auth userId password
  return (.json (if result.ok then 200 else 400) result, s')

def handleLogin (chunks : List Bytes) (now : Number) (token : Text) :
    Except JsError (HttpResponse × AuthService) := do
  let (userId, password) ← readCredentials W.runtime chunks
  let (result, s') := s.login W.auth userId password now token
  return (.json (if result.ok then 200 else 401) result, s')

def refused (reason : Text) : AuthResult :=
  { ok := false, reason := some reason }

def handleGet (stat : Text → Option Bool) (url : Text) :
    Except JsError HttpResponse := do
  let requestUrl ← W.url (Session.orElse url (ascii "/"))
  match ← serveStatic W.cwd W.dirname stat requestUrl.pathname with
  | .json statusCode reason => return .json statusCode (refused reason)
  | .file filePath contentType => return .file filePath contentType

/-- The callback of `createServer`.  `token` is what `randomBytes` gives. -/
def handleRequest (stat : Text → Option Bool) (now : Number) (token : Text)
    (req : HttpRequest) : HttpResponse × AuthService :=
  let outcome : Except JsError (HttpResponse × AuthService) :=
    if req.method = ascii "POST" ∧ req.url = ascii "/api/register" then
      s.handleRegister W req.chunks
    else if req.method = ascii "POST" ∧ req.url = ascii "/api/login" then
      s.handleLogin W req.chunks now token
    else if req.method = ascii "GET" then
      (handleGet W stat req.url).map fun response => (response, s)
    else .ok (.json 404 (refused (ascii "not found")), s)
  match outcome with
  | .ok answer => answer
  | .error error => (.json 500 (refused error.message), s)

/-- `handleUpgrade` up to the point where the WebSocket is accepted. -/
def handleUpgrade (now : Number) (url : Text) : UpgradeOutcome × AuthService :=
  match W.url (Session.orElse url (ascii "/")) with
  | .error error => (.raised error, s)
  | .ok requestUrl =>
      if requestUrl.pathname ≠ ascii "/ws" then
        (.rejected 404 (ascii "not found"), s)
      else
        let (auth, s') := s.verifyToken (requestUrl.token.getD []) now
        match auth.ok, auth.uid with
        | true, some uid => (.verified uid, s')
        | _, _ =>
            (.rejected 401
              (Session.orElse (auth.reason.getD []) (ascii "invalid token")), s')

end AuthService

/-! ## What a request does to the accounts -/

/-- The request logs a user in, or registers one, if its body can be read. -/
def HttpRequest.call (W : SiteSettings) (req : HttpRequest) (now : Number)
    (token : Text) : Option AuthCall :=
  match readCredentials W.runtime req.chunks with
  | .ok (userId, password) =>
      if req.method = ascii "POST" ∧ req.url = ascii "/api/register" then
        some (.register userId password)
      else if req.method = ascii "POST" ∧ req.url = ascii "/api/login" then
        some (.login userId password now token)
      else none
  | .error _ => none

/-- The calls that requests make, and what they are made of. -/
theorem HttpRequest.call_cases {W : SiteSettings} {req : HttpRequest} {now : Number}
    {token : Text} {call : AuthCall} (h : req.call W now token = some call) :
    ∃ userId password, readCredentials W.runtime req.chunks = .ok (userId, password) ∧
      req.method = ascii "POST" ∧
      (req.url = ascii "/api/register" ∧ call = .register userId password ∨
        req.url = ascii "/api/login" ∧ call = .login userId password now token) := by
  rw [HttpRequest.call] at h
  split at h
  · next userId password hread =>
      refine ⟨userId, password, hread, ?_⟩
      split at h
      · next hregister =>
          cases h
          exact ⟨hregister.1, .inl ⟨hregister.2, rfl⟩⟩
      · split at h
        · next hlogin =>
            cases h
            exact ⟨hlogin.1, .inr ⟨hlogin.2, rfl⟩⟩
        · cases h
  · cases h

def AuthCall.failure : AuthCall → ℕ
  | .register _ _ => 400
  | _ => 401

namespace AuthService

variable {W : SiteSettings} {s : AuthService} {stat : Text → Option Bool}
  {now : Number} {token : Text} {req : HttpRequest}

/-- A request that calls the service is answered with what the call returns. -/
theorem handleRequest_of_call {call : AuthCall} (h : req.call W now token = some call) :
    s.handleRequest W stat now token req =
      (.json (if (s.handle W.auth call).1.ok then 200 else call.failure)
        (s.handle W.auth call).1, (s.handle W.auth call).2) := by
  rw [HttpRequest.call] at h
  split at h
  · next userId password hread =>
      split at h
      · next hregister =>
          cases h
          simp only [handleRequest, if_pos hregister, handleRegister, hread]
          rfl
      · next hregister =>
          split at h
          · next hlogin =>
              cases h
              simp only [handleRequest, if_neg hregister, if_pos hlogin, handleLogin,
                hread]
              rfl
          · cases h
  · cases h

/-- A request for a file gets the file or a refusal. -/
theorem handleGet_refused {url : Text} {status : ℕ} {data : AuthResult}
    (h : handleGet W stat url = .ok (.json status data)) : data.ok = false := by
  rw [handleGet] at h
  cases hurl : W.url (Session.orElse url (ascii "/")) with
  | error e =>
      rw [hurl] at h
      cases h
  | ok requestUrl =>
      rw [hurl] at h
      cases hserve : serveStatic W.cwd W.dirname stat requestUrl.pathname with
      | error e =>
          simp only [hserve, bind, Except.bind] at h
          cases h
      | ok answer =>
          cases answer with
          | json statusCode reason =>
              simp only [hserve, bind, Except.bind] at h
              cases h
              rfl
          | file filePath contentType =>
              simp only [hserve, bind, Except.bind] at h
              cases h

/-- Any other request leaves the accounts alone and is refused, or gets a file. -/
theorem handleRequest_of_no_call (h : req.call W now token = none) :
    (s.handleRequest W stat now token req).2 = s ∧
      ∀ status data, (s.handleRequest W stat now token req).1 = .json status data →
        data.ok = false := by
  have hread : ∀ x, readCredentials W.runtime req.chunks = .ok x →
      ¬(req.method = ascii "POST" ∧ req.url = ascii "/api/register") ∧
        ¬(req.method = ascii "POST" ∧ req.url = ascii "/api/login") := by
    rintro ⟨userId, password⟩ hread
    simp only [HttpRequest.call, hread] at h
    split at h
    · cases h
    · next hregister =>
        split at h
        · cases h
        · next hlogin => exact ⟨hregister, hlogin⟩
  rw [handleRequest]
  split
  · next answer hanswer =>
      split at hanswer
      · next hregister =>
          cases hcredentials : readCredentials W.runtime req.chunks with
          | error e =>
              rw [handleRegister, hcredentials] at hanswer
              cases hanswer
          | ok x => exact absurd hregister (hread x hcredentials).1
      · split at hanswer
        · next hlogin =>
            cases hcredentials : readCredentials W.runtime req.chunks with
            | error e =>
                rw [handleLogin, hcredentials] at hanswer
                cases hanswer
            | ok x => exact absurd hlogin (hread x hcredentials).2
        · split at hanswer
          · cases hget : handleGet W stat req.url with
            | error e =>
                rw [hget] at hanswer
                cases hanswer
            | ok response =>
                rw [hget] at hanswer
                cases hanswer
                refine ⟨rfl, fun status data hdata => ?_⟩
                exact handleGet_refused (hget.trans (congrArg _ hdata))
          · cases hanswer
            refine ⟨rfl, fun status data hdata => ?_⟩
            cases hdata
            rfl
  · refine ⟨rfl, fun status data hdata => ?_⟩
    cases hdata
    rfl

theorem verifyToken_users (token : Text) :
    (s.verifyToken token now).2.users = s.users := by
  cases htoken : s.tokens token with
  | none => rw [verifyToken_none htoken]
  | some record =>
      rw [verifyToken_some htoken]
      split
      · rfl
      · rfl

/-- Verifying a token makes none. -/
theorem tokens_of_verifyToken {token t : Text} {record : TokenRecord}
    (h : (s.verifyToken token now).2.tokens t = some record) :
    s.tokens t = some record := by
  cases htoken : s.tokens token with
  | none =>
      rw [verifyToken_none htoken] at h
      exact h
  | some record' =>
      rw [verifyToken_some htoken] at h
      split at h
      · simp only [Function.update_apply] at h
        split at h
        · cases h
        · exact h
      · exact h

/-- An upgrade leaves the service alone, or verifies a token. -/
theorem handleUpgrade_cases (W : SiteSettings) (s : AuthService) (now : Number)
    (url : Text) :
    ((s.handleUpgrade W now url).2 = s ∧
        ∀ uid, (s.handleUpgrade W now url).1 ≠ .verified uid) ∨
      ∃ requestUrl, W.url (Session.orElse url (ascii "/")) = .ok requestUrl ∧
        requestUrl.pathname = ascii "/ws" ∧
        (s.handleUpgrade W now url).2 =
          (s.verifyToken (requestUrl.token.getD []) now).2 ∧
        ∀ uid, (s.handleUpgrade W now url).1 = .verified uid →
          (s.verifyToken (requestUrl.token.getD []) now).1.ok = true ∧
            (s.verifyToken (requestUrl.token.getD []) now).1.uid = some uid := by
  simp only [handleUpgrade]
  split
  · exact .inl ⟨rfl, fun uid h => by cases h⟩
  · next requestUrl hurl =>
      split
      · exact .inl ⟨rfl, fun uid h => by cases h⟩
      · next hpath =>
          refine .inr ⟨requestUrl, hurl, not_not.mp hpath, ?_, ?_⟩
          · split
            · rfl
            · rfl
          · intro uid h
            split at h
            · next uid' hok huid =>
                cases h
                exact ⟨hok, huid⟩
            · cases h

/-- An upgrade that is accepted shows a token that is known and not expired. -/
theorem handleUpgrade_verified {url : Text} {uid : Number}
    (h : (s.handleUpgrade W now url).1 = .verified uid) :
    ∃ requestUrl record, W.url (Session.orElse url (ascii "/")) = .ok requestUrl ∧
      requestUrl.pathname = ascii "/ws" ∧
      s.tokens (requestUrl.token.getD []) = some record ∧ record.uid = uid ∧
      record.expiresAtMs.isLessThan now ≠ some true := by
  rcases handleUpgrade_cases W s now url with
    ⟨-, hnone⟩ | ⟨requestUrl, hurl, hpath, -, hverified⟩
  · exact absurd h (hnone uid)
  · obtain ⟨hok, huid⟩ := hverified uid h
    cases htoken : s.tokens (requestUrl.token.getD []) with
    | none =>
        rw [verifyToken_none htoken] at hok
        cases hok
    | some record =>
        rw [verifyToken_some htoken] at hok huid
        split at hok
        · cases hok
        · next hlate =>
            rw [if_neg hlate, Option.some.injEq] at huid
            exact ⟨requestUrl, record, hurl, hpath, htoken, huid, hlate⟩

end AuthService

end ReliableDelivery
