import ReliableDelivery.EndToEnd.Site
import ReliableDelivery.EndToEnd.Tabs

/-!
# Scheduled runs of the site

A schedule for the accounts, the gateway and the server.  Following a schedule of
requests, upgrades and moves of the other two gives a run of the site, step by step
and by computation.
-/

namespace ReliableDelivery

open Decimal Ecmascript TransitionSystem

inductive SiteChoice where
  | request (req : HttpRequest) (now : Number) (token : Text)
  | upgrade (url : Text) (now : Number)
  | bridge (choice : BridgeChoice)

namespace SiteState

def gatewayAlive (w : SiteState) : Bool :=
  !w.crashed && !w.bridge.gateway.crashed

/-- The request is answered, with no file there. -/
def request (W : SiteSettings) (w : SiteState) (req : HttpRequest) (now : Number)
    (token : Text) : Option (SiteLabel × SiteState) :=
  if w.gatewayAlive then
    let answer := w.auth.handleRequest W (fun _ => none) now token req
    some (.request req now token answer.1, { w with auth := answer.2 })
  else none

/-- The upgrade is decided, and a WebSocket that may be accepted is. -/
def upgrade (W : SiteSettings) (w : SiteState) (url : Text) (now : Number) :
    Option (SiteLabel × SiteState) :=
  if w.gatewayAlive then
    match w.auth.handleUpgrade W now url with
    | (.raised error, auth) =>
        some (.upgrade url now (.raised error) false,
          { w with auth, crashed := true })
    | (.rejected statusCode reason, auth) =>
        some (.upgrade url now (.rejected statusCode reason) false, { w with auth })
    | (.verified uid, auth) =>
        match w.bridge.move W.runtime (.attach uid.toNat) with
        | some (.gateway _, b) =>
            some (.upgrade url now (.verified uid) true, { w with auth, bridge := b })
        | _ => none
  else none

/-- The gateway moves while it is there, and does not attach a session by itself. -/
def allows (w : SiteState) : BridgeLabel → Bool
  | .server _ => true
  | .gateway (.attach _) => false
  | .gateway _ => w.gatewayAlive

/-- Gateway and server go on. -/
def advanceBridge (P : Platform) (W : SiteSettings) (w : SiteState)
    (choice : BridgeChoice) : Option (SiteLabel × SiteState) :=
  match w.bridge.advance P W.runtime choice with
  | some (l, b) =>
      if w.allows l then some (.bridge l, { w with bridge := b }) else none
  | none => none

def advance (P : Platform) (W : SiteSettings) (w : SiteState) :
    SiteChoice → Option (SiteLabel × SiteState)
  | .request req now token => w.request W req now token
  | .upgrade url now => w.upgrade W url now
  | .bridge choice => w.advanceBridge P W choice

end SiteState

theorem readsFields_toObject (envelope : Envelope) :
    ReadsFields envelope.toObject envelope := by
  constructor
  · intro request hrequest
    refine ⟨request.fromUid.toNat, request.toUid.toNat, ?_, ?_, ?_⟩
    · rw [Envelope.toObject, Envelope.chatReq?_eq_some.mp hrequest]
      rfl
    · intro _
      rw [UInt64.ofNat_toNat]
    · intro _
      rw [UInt64.ofNat_toNat]
  · intro ack hack
    refine ⟨ack.msgId.toNat, ack.seq.toNat, ?_, ?_⟩
    · rw [Envelope.toObject, Envelope.ack?_eq_some.mp hack]
      rfl
    · intro _
      rw [UInt64.ofNat_toNat]

section Soundness

variable {P : Platform} {W : SiteSettings} {w w' : SiteState} {l : SiteLabel}

theorem SiteState.alive_of_gatewayAlive (h : w.gatewayAlive = true) : w.alive := by
  simpa [SiteState.gatewayAlive, SiteState.alive] using h

/-- What the server receives was written by the session, field by field. -/
theorem written_of_advance {b b' : BridgeState} {choice : BridgeChoice} {n : ℕ}
    {envelope : Envelope}
    (h : b.advance P W.runtime choice = some (.server (.receive n envelope), b')) :
    ∃ session, b.gateway.sessions n = some session ∧
      session.written[b.taken n]? = some envelope.toObject := by
  cases choice with
  | server choice =>
      simp only [BridgeState.advance, BridgeState.serve] at h
      split at h
      · cases h
      · split at h
        · cases h
        · cases h
      · next hreceive _ hadvance =>
          cases h
          exact absurd rfl (hreceive n envelope)
      · cases h
  | notifyClosed m =>
      simp only [BridgeState.advance] at h
      split at h
      · cases h
      · cases h
  | arrive m envelope' =>
      simp only [BridgeState.advance] at h
      split at h
      · next session hs =>
          split at h
          · next hobject =>
              split at h
              · cases h
                exact ⟨session, hs, hobject⟩
              · cases h
          · cases h
      · cases h
  | gateway event =>
      simp only [BridgeState.advance, BridgeState.move] at h
      split at h
      · cases h
      · split at h
        · cases h
        · cases h
  | deliver m now =>
      simp only [BridgeState.advance, BridgeState.deliver] at h
      split at h
      · split at h
        · split at h
          · cases h
          · cases h
        · cases h
      · cases h

theorem siteStep_request {req : HttpRequest} {now : Number} {token : Text}
    (h : w.request W req now token = some (l, w')) : SiteStep P W nobodyElse w l w' := by
  rw [SiteState.request] at h
  split at h
  · next halive =>
      cases h
      exact .request req (fun _ => none) now token _ _
        (SiteState.alive_of_gatewayAlive halive) rfl
  · cases h

theorem siteStep_upgrade {url : Text} {now : Number}
    (h : w.upgrade W url now = some (l, w')) : SiteStep P W nobodyElse w l w' := by
  rw [SiteState.upgrade] at h
  split at h
  · next halive =>
      have halive := SiteState.alive_of_gatewayAlive halive
      split at h
      · next error auth hupgrade =>
          cases h
          exact .crash url now error auth halive hupgrade
      · next statusCode reason auth hupgrade =>
          cases h
          exact .reject url now _ auth halive hupgrade nofun
      · next uid auth hupgrade =>
          split at h
          · next event b hmove =>
              cases h
              have hstep := bridgeStep_move (P := P) hmove
              simp only [BridgeState.move] at hmove
              split at hmove
              · cases hmove
                exact .attach url now uid auth _ halive hupgrade hstep
              · cases hmove
          · cases h
  · cases h

theorem siteStep_advanceBridge {choice : BridgeChoice}
    (h : w.advanceBridge P W choice = some (l, w')) : SiteStep P W nobodyElse w l w' := by
  rw [SiteState.advanceBridge] at h
  split at h
  · next k b hadvance =>
      split at h
      · next hallows =>
          cases h
          refine .bridge _ _ ?_ ?_ (bridgeStep_advance hadvance) ?_
          · rintro event rfl
            cases event with
            | attach uid => cases hallows
            | _ => exact SiteState.alive_of_gatewayAlive hallows
          · rintro uid rfl
            cases hallows
          · rintro n envelope session object rfl hs hobject
            obtain ⟨session', hs', hobject'⟩ := written_of_advance hadvance
            cases hs.symm.trans hs'
            cases hobject.symm.trans hobject'
            exact readsFields_toObject envelope
      · cases h
  · cases h

end Soundness

def siteDriver (P : Platform) (W : SiteSettings) : Driver (site P W nobodyElse) SiteChoice where
  advance w choice := w.advance P W choice
  sound w choice l w' h := by
    cases choice with
    | request req now token => exact siteStep_request h
    | upgrade url now => exact siteStep_upgrade h
    | bridge choice => exact siteStep_advanceBridge h

/-! ## A visit of user 7 -/

/-- The CHAT_REQ in which user 7 writes to themself. -/
def visitChat : Envelope where
  type := .chatReq
  seq := 2
  timestampMs := 1000
  payload := some (.chatReq
    { fromUid := 7, toUid := 7, content := literal "hi", clientMsgId := literal "c" })

def visitPush : Envelope where
  type := .chatPush
  seq := 1
  timestampMs := 1000
  payload := some (.chatPush
    { msgId := 1, fromUid := 7, toUid := 7, content := literal "hi",
      serverTimestampMs := 1000 })

/-- The ACK for that push. -/
def visitAck : Envelope where
  type := .ack
  seq := 1
  timestampMs := 1000
  payload := some (.ack { msgId := 1, seq := 1, ok := true })

def visitEnvelopes : List Envelope :=
  [tabLogin, sampleResponse, visitChat, visitPush, visitAck]

def visitCredentials : Bytes :=
  literal "\x7b\"user_id\":7,\"password\":\"7\"\x7d"

def visitMessage : Bytes :=
  literal "\x7b\"type\":\"send_message\",\"to_uid\":7,\"content\":\"hi\",\"client_msg_id\":\"c\"\x7d"

def visitSettings : SiteSettings where
  runtime :=
    { engine :=
        { stringToNumber := fun _ => .nan
          numberToString := fun _ => ascii "7" }
      parse := fun data =>
        if data = visitCredentials then
          some (.object [(ascii "user_id", .number (.finite 7)),
            (ascii "password", .string (ascii "7"))])
        else if data = visitMessage then
          some (.object [(ascii "type", .string (ascii "send_message")),
            (ascii "to_uid", .number (.finite 7)),
            (ascii "content", .string (ascii "hi")),
            (ascii "client_msg_id", .string (ascii "c"))])
        else if data = sampleAck then
          some (.object [(ascii "type", .string (ascii "message_ack")),
            (ascii "msg_id", .number (.finite 1))])
        else none
      protobufjs :=
        { encode := fun object =>
            ((visitEnvelopes.find? fun x => x.toObject = object).bind
              Envelope.serializeToString).getD []
          decode := fun body =>
            match visitEnvelopes.find? fun x =>
              x.serializeToString = some body with
            | some x => .ok x.toObject
            | none => .error (literal "index out of range") }
      utf8Write := fun text => text.map UInt16.toUInt8
      utf8Read := fun data => data.map UInt8.toUInt16 }
  plus x _ := x
  tokenTtlMs := .finite 0
  url _ := .ok { pathname := ascii "/ws", token := some sampleToken }
  cwd := ascii "/"
  dirname := ascii "/"

/-- User 7 logs in and opens a WebSocket. -/
def signIn : List SiteChoice :=
  [.request ⟨ascii "POST", ascii "/api/login", [visitCredentials]⟩ (.finite 0)
    sampleToken, .upgrade (ascii "/ws?token=" ++ sampleToken) (.finite 0)]

/-- The user comes online, sends a message to themself, gets it and acknowledges
it. -/
def conversation : List BridgeChoice :=
  [.gateway (.imConnect 0 1000), .server (.connect 0), .arrive 0 tabLogin] ++
    (complete 0 20).map .server ++ [.deliver 0 1000, .gateway (.resume 0),
    .gateway (.wsMessage 0 1000 (.buffer visitMessage)), .arrive 0 visitChat] ++
    (complete 0 20).map .server ++ [.deliver 0 1000,
    .gateway (.wsMessage 0 1000 (.buffer sampleAck)), .arrive 0 visitAck] ++
    (complete 0 20).map .server

def visit : List SiteChoice :=
  signIn ++ conversation.map .bridge

theorem exists_visit :
    ∃ w : SiteRun wirePlatform visitSettings nobodyElse,
      w.state = (siteDriver wirePlatform visitSettings).follow {} visit := by
  obtain ⟨w, -, hstate, -⟩ := (siteDriver wirePlatform visitSettings).exists_follow
    visit ⟨[], {}, .init rfl⟩
  exact ⟨w, hstate⟩

end ReliableDelivery
