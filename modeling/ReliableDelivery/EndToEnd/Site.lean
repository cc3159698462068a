import ReliableDelivery.EndToEnd.Agreement
import ReliableDelivery.Gateway.HttpServer

/-!
# The whole site

The gateway with its accounts, its browsers and the server behind it, to which others
may connect as well.  Anybody may send requests and upgrades; a WebSocket is attached
for the user whose token was shown.
-/

namespace ReliableDelivery

open Decimal Ecmascript MessageCodec TransitionSystem

/-- `crashed` says that an exception of `handleUpgrade` has ended the gateway. -/
structure SiteState where
  auth : AuthService := {}
  bridge : BridgeState := {}
  crashed : Bool := false

inductive SiteLabel where
  | request (req : HttpRequest) (now : Number) (token : Text)
      (response : HttpResponse)
  | upgrade (url : Text) (now : Number) (outcome : UpgradeOutcome)
      (attached : Bool)
  | bridge (l : BridgeLabel)

/-- What the server makes of the numbers and texts of an object of the gateway.  A
number that has more than 64 bits comes over in some other form. -/
structure ReadsFields (object : EnvelopeObject) (envelope : Envelope) : Prop where
  chat : ∀ request, envelope.chatReq? = some request → ∃ fromUid toUid,
    object.payload =
        some (.chatReq fromUid toUid request.content request.clientMsgId) ∧
      (fromUid < 2 ^ 64 → request.fromUid = UInt64.ofNat fromUid) ∧
      (toUid < 2 ^ 64 → request.toUid = UInt64.ofNat toUid)
  ack : ∀ ack, envelope.ack? = some ack → ∃ msgId seq,
    object.payload = some (.ack msgId seq ack.ok ack.reason) ∧
      (msgId < 2 ^ 64 → ack.msgId = UInt64.ofNat msgId)

/-- The gateway has not ended. -/
def SiteState.alive (w : SiteState) : Prop :=
  w.crashed = false ∧ w.bridge.gateway.crashed = false

inductive SiteStep (P : Platform) (W : SiteSettings) (others : Others)
    (w : SiteState) : SiteLabel → SiteState → Prop where
  | request (req : HttpRequest) (stat : Text → Option Bool) (now : Number)
      (token : Text) (response : HttpResponse) (auth : AuthService)
      (halive : w.alive)
      (hanswer : w.auth.handleRequest W stat now token req = (response, auth)) :
      SiteStep P W others w (.request req now token response) { w with auth }
  /-- `ws` accepts the WebSocket. -/
  | attach (url : Text) (now uid : Number) (auth : AuthService) (b : BridgeState)
      (halive : w.alive)
      (hupgrade : w.auth.handleUpgrade W now url = (.verified uid, auth))
      (hstep : BridgeStep P W.runtime others w.bridge (.gateway (.attach uid.toNat))
        b) :
      SiteStep P W others w (.upgrade url now (.verified uid) true)
        { w with auth, bridge := b }
  /-- The upgrade is rejected, by the gateway or by `ws`. -/
  | reject (url : Text) (now : Number) (outcome : UpgradeOutcome)
      (auth : AuthService) (halive : w.alive)
      (hupgrade : w.auth.handleUpgrade W now url = (outcome, auth))
      (houtcome : ∀ error, outcome ≠ .raised error) :
      SiteStep P W others w (.upgrade url now outcome false) { w with auth }
  /-- Nobody catches an exception of `handleUpgrade`. -/
  | crash (url : Text) (now : Number) (error : JsError) (auth : AuthService)
      (halive : w.alive)
      (hupgrade : w.auth.handleUpgrade W now url = (.raised error, auth)) :
      SiteStep P W others w (.upgrade url now (.raised error) false)
        { w with auth, crashed := true }
  /-- Gateway and server go on. -/
  | bridge (l : BridgeLabel) (b : BridgeState)
      (halive : ∀ event, l = .gateway event → w.alive)
      (hattach : ∀ uid, l ≠ .gateway (.attach uid))
      (hstep : BridgeStep P W.runtime others w.bridge l b)
      (hreads : ∀ n envelope session object, l = .server (.receive n envelope) →
        w.bridge.gateway.sessions n = some session →
        session.written[w.bridge.taken n]? = some object →
        ReadsFields object envelope) :
      SiteStep P W others w (.bridge l) { w with bridge := b }

/-- All runs of the site. -/
def site (P : Platform) (W : SiteSettings) (others : Others) :
    TransitionSystem SiteState SiteLabel where
  init w := w = {}
  step := SiteStep P W others

abbrev SiteRun (P : Platform) (W : SiteSettings) (others : Others) :=
  (site P W others).Execution

variable {P : Platform} {W : SiteSettings} {others : Others}

def SiteLabel.bridge? : SiteLabel → Option BridgeLabel
  | .upgrade _ _ (.verified uid) true => some (.gateway (.attach uid.toNat))
  | .bridge l => some l
  | _ => none

/-- Gateway and server without the accounts. -/
def siteBridge (P : Platform) (W : SiteSettings) (others : Others) :
    Projection (site P W others) (bridge P W.runtime others) where
  onState := SiteState.bridge
  onLabel := SiteLabel.bridge?
  init w hinit := by
    rw [show w = {} from hinit]
    rfl
  step w l w' k hstep hl := by
    cases hstep with
    | request req stat now token response auth halive hanswer => cases hl
    | attach url now uid auth b halive hupgrade hstep =>
        cases hl
        exact hstep
    | reject url now outcome auth halive hupgrade houtcome =>
        cases outcome with
        | _ => cases hl
    | crash url now error auth halive hupgrade => cases hl
    | bridge l b halive hattach hstep hreads =>
        cases hl
        exact hstep
  stutter w l w' hstep hl := by
    cases hstep with
    | attach url now uid auth b halive hupgrade hstep => cases hl
    | bridge l b halive hattach hstep hreads => cases hl
    | _ => rfl

namespace SiteRun

def bridge (w : SiteRun P W others) : BridgeRun P W.runtime others :=
  (siteBridge P W others).onRun w

/-! ## Accounts -/

/-- `POST /api/login` has answered with the token, for credentials that are good. -/
def LoggedIn (w : SiteRun P W others) (uid : Number) (token : Text) (loginMs : Number) :
    Prop :=
  ∃ s req, (s, .request req loginMs token
      (.json 200 { ok := true, uid := some uid, token := some token })) ∈ w.history ∧
    req.method = ascii "POST" ∧ req.url = ascii "/api/login" ∧ IsUserId uid ∧
    readCredentials W.runtime req.chunks =
      .ok (uid, W.runtime.engine.numberToString uid)

theorem LoggedIn.mono {w w' : SiteRun P W others} {uid loginMs : Number} {token : Text}
    (h : LoggedIn w uid token loginMs) (hlater : Execution.Later w w') :
    LoggedIn w' uid token loginMs := by
  obtain ⟨s, req, hmem, hreq⟩ := h
  exact ⟨s, req, hlater.mem_history hmem, hreq⟩

/-- The accounts tell of logins that have happened. -/
structure Accounts (w : SiteRun P W others) : Prop where
  sound : w.state.auth.Sound W.auth
  tokens : ∀ token record, w.state.auth.tokens token = some record →
    ∃ loginMs, LoggedIn w record.uid token loginMs ∧
      record.expiresAtMs = W.plus loginMs W.tokenTtlMs

theorem Accounts.same {w w' : SiteRun P W others} (h : Accounts w)
    (hlater : Execution.Later w w') (hsame : w'.state.auth = w.state.auth) :
    Accounts w' := by
  constructor
  · rw [hsame]
    exact h.sound
  · intro token record htoken
    rw [hsame] at htoken
    obtain ⟨loginMs, hlogin, hexpires⟩ := h.tokens token record htoken
    exact ⟨loginMs, hlogin.mono hlater, hexpires⟩

/-- Verifying a token forgets some. -/
theorem Accounts.verify {w w' : SiteRun P W others} (h : Accounts w)
    (hlater : Execution.Later w w') {token : Text} {now : Number}
    (hauth : w'.state.auth = (w.state.auth.verifyToken token now).2) :
    Accounts w' := by
  constructor
  · rw [hauth]
    constructor
    rw [AuthService.verifyToken_users]
    exact h.sound.userId
  · intro t record ht
    rw [hauth] at ht
    obtain ⟨loginMs, hlogin, hexpires⟩ :=
      h.tokens t record (AuthService.tokens_of_verifyToken ht)
    exact ⟨loginMs, hlogin.mono hlater, hexpires⟩

/-- A login makes its user and its token known. -/
theorem Accounts.login {w w' : SiteRun P W others} (h : Accounts w)
    (hlater : Execution.Later w w') {uid now : Number} {password token : Text}
    (hauth : w'.state.auth =
      (w.state.auth.login W.auth uid password now token).2)
    (hlogin : (w.state.auth.login W.auth uid password now token).1 =
        { ok := true, uid := some uid, token := some token } → IsUserId uid →
      password = W.runtime.engine.numberToString uid →
      LoggedIn w' uid token now) : Accounts w' := by
  rcases AuthService.login_cases h.sound uid password now token with
    ⟨⟨-, hsame⟩, -⟩ | ⟨hresult, huid, -, hpassword⟩
  · exact h.same hlater (hauth.trans hsame)
  · rw [hresult] at hauth hlogin
    constructor
    · rw [hauth]
      exact h.sound.update huid hpassword _
    · intro t record ht
      rw [hauth] at ht
      simp only [Function.update_apply] at ht
      split at ht
      · next heq =>
          cases ht
          subst heq
          exact ⟨now, hlogin rfl huid hpassword, rfl⟩
      · obtain ⟨loginMs, hbefore, hexpires⟩ := h.tokens t record ht
        exact ⟨loginMs, hbefore.mono hlater, hexpires⟩

theorem Accounts.register {w w' : SiteRun P W others} (h : Accounts w)
    (hlater : Execution.Later w w') {uid : Number} {password : Text}
    (hauth : w'.state.auth = (w.state.auth.register W.auth uid password).2) :
    Accounts w' := by
  rcases AuthService.register_cases (A := W.auth) (s := w.state.auth) uid password with
    ⟨⟨-, hsame⟩, -⟩ | ⟨hresult, huid, -, hpassword, -⟩
  · exact h.same hlater (hauth.trans hsame)
  · rw [hresult] at hauth
    constructor
    · rw [hauth]
      exact h.sound.update huid hpassword _
    · intro t record ht
      rw [hauth] at ht
      obtain ⟨loginMs, hbefore, hexpires⟩ := h.tokens t record ht
      exact ⟨loginMs, hbefore.mono hlater, hexpires⟩

theorem accounts (w : SiteRun P W others) : Accounts w := by
  apply Execution.induct (P := Accounts)
  · intro w _ hinit
    have hw : w.state = {} := hinit
    constructor
    · rw [hw]
      exact ⟨fun u p h => by cases h⟩
    · intro token record htoken
      rw [hw] at htoken
      cases htoken
  · intro w w' l ih hnext
    obtain ⟨hstep, -⟩ := id hnext
    generalize hw' : w'.state = v at hstep
    have hupgrade : ∀ {url now outcome auth},
        w.state.auth.handleUpgrade W now url = (outcome, auth) →
          w'.state.auth = auth → Accounts w' := by
      intro url now outcome auth hupgrade hauth
      rcases AuthService.handleUpgrade_cases W w.state.auth now url with
        ⟨hsame, -⟩ | ⟨requestUrl, -, -, hverify, -⟩
      · rw [hupgrade] at hsame
        exact ih.same hnext.later (hauth.trans hsame)
      · rw [hupgrade] at hverify
        exact ih.verify hnext.later (hauth.trans hverify)
    cases hstep with
    | request req stat now token response auth halive hanswer =>
        have hauth : w'.state.auth = auth := by rw [hw']
        cases hcall : req.call W now token with
        | none =>
            have hsame : (w.state.auth.handleRequest W stat now token req).2 =
                w.state.auth := (AuthService.handleRequest_of_no_call hcall).1
            rw [hanswer] at hsame
            exact ih.same hnext.later (hauth.trans hsame)
        | some call =>
            rw [AuthService.handleRequest_of_call hcall, Prod.mk.injEq] at hanswer
            obtain ⟨hresponse, hafter⟩ := hanswer
            obtain ⟨uid, password, hread, hmethod, ⟨hurl, rfl⟩ | ⟨hurl, rfl⟩⟩ :=
              HttpRequest.call_cases hcall
            · exact ih.register hnext.later (hauth.trans hafter.symm)
            · refine ih.login hnext.later (hauth.trans hafter.symm) ?_
              intro hresult huid hpassword
              refine ⟨w.state, req, ?_, hmethod, hurl, huid, ?_⟩
              · have hmem := hnext.mem_history
                rw [← hresponse] at hmem
                simp only [AuthService.handle, hresult] at hmem
                exact hmem
              · rw [hread, hpassword]
    | attach url now uid auth b halive hupgrade' hstep =>
        exact hupgrade hupgrade' (by rw [hw'])
    | reject url now outcome auth halive hupgrade' houtcome =>
        exact hupgrade hupgrade' (by rw [hw'])
    | crash url now error auth halive hupgrade' =>
        exact hupgrade hupgrade' (by rw [hw'])
    | bridge l b halive hattach hstep hreads =>
        exact ih.same hnext.later (by rw [hw'])

/-! ## Sessions -/

/-- A WebSocket was accepted for the user, with a token that a login had returned and
that had not expired. -/
def Authenticated (w : SiteRun P W others) (uid : ℕ) : Prop :=
  ∃ (w₁ w₂ : SiteRun P W others) (url token : Text) (x now loginMs : Number)
    (requestUrl : RequestUrl),
    Execution.Next w₁ (.upgrade url now (.verified x) true) w₂ ∧
      Execution.Later w₂ w ∧ x.toNat = uid ∧
      W.url (Session.orElse url (ascii "/")) = .ok requestUrl ∧
      requestUrl.pathname = ascii "/ws" ∧ requestUrl.token.getD [] = token ∧
      LoggedIn w₁ x token loginMs ∧
      (W.plus loginMs W.tokenTtlMs).isLessThan now ≠ some true

theorem Authenticated.mono {w w' : SiteRun P W others} {uid : ℕ}
    (h : Authenticated w uid) (hlater : Execution.Later w w') :
    Authenticated w' uid := by
  obtain ⟨w₁, w₂, url, token, x, now, loginMs, requestUrl, hnext, hbefore, hrest⟩ := h
  exact ⟨w₁, w₂, url, token, x, now, loginMs, requestUrl, hnext,
    hbefore.trans hlater, hrest⟩

theorem authenticated_of_attach {w w' : SiteRun P W others} {url : Text} {now uid : Number}
    (hnext : Execution.Next w (.upgrade url now (.verified uid) true) w') :
    Authenticated w' uid.toNat := by
  have hverified : (w.state.auth.handleUpgrade W now url).1 = .verified uid := by
    obtain ⟨hstep, -⟩ := id hnext
    generalize w'.state = v at hstep
    cases hstep with
    | attach _ _ _ auth b halive hupgrade hstep => rw [hupgrade]
  obtain ⟨requestUrl, record, hurl, hpath, htoken, rfl, hlate⟩ :=
    AuthService.handleUpgrade_verified hverified
  obtain ⟨loginMs, hlogin, hexpires⟩ := (accounts w).tokens _ record htoken
  rw [hexpires] at hlate
  exact ⟨w, w', url, _, record.uid, now, loginMs, requestUrl, hnext, .refl w', rfl,
    hurl, hpath, rfl, hlogin, hlate⟩

/-- Sessions attach in upgrades only. -/
theorem eq_upgrade_of_attach {v v' : SiteState} {l : SiteLabel} {uid : ℕ}
    (hstep : SiteStep P W others v l v') (hl : l.bridge? = some (.gateway (.attach uid))) :
    ∃ url now x, l = .upgrade url now (.verified x) true ∧ x.toNat = uid := by
  cases hstep with
  | attach url now x auth b halive hupgrade hstep =>
      cases hl
      exact ⟨url, now, x, rfl, rfl⟩
  | bridge l b halive hattach hstep hreads =>
      cases hl
      exact absurd rfl (hattach uid)
  | reject url now outcome auth halive hupgrade houtcome =>
      cases outcome with
      | _ => cases hl
  | _ => cases hl

/-- Every session is of a user who has logged in. -/
theorem authenticated (w : SiteRun P W others) {n : ℕ} {s : Session}
    (hs : w.state.bridge.gateway.sessions n = some s) : Authenticated w s.uid := by
  revert s
  apply Execution.induct (P := fun w : SiteRun P W others => ∀ {s},
    (Execution.state w).bridge.gateway.sessions n = some s → Authenticated w s.uid)
  · intro w _ hinit s hs
    rw [show w.state = {} from hinit] at hs
    cases hs
  · intro w w' l ih hnext s' hs'
    cases hl : l.bridge? with
    | none =>
        have hsame : bridge w' = bridge w := (siteBridge P W others).onRun_stutter hnext hl
        have hbridge : w'.state.bridge = w.state.bridge :=
          congrArg Execution.state hsame
        rw [hbridge] at hs'
        exact (ih hs').mono hnext.later
    | some k =>
        have hpart := (siteBridge P W others).onRun_next hnext hl
        cases hs : w.state.bridge.gateway.sessions n with
        | some s =>
            obtain ⟨s₁, hs₁, honward⟩ := BridgeRun.session_next hpart hs
            cases hs₁.symm.trans hs'
            rw [honward.uid]
            exact (ih hs).mono hnext.later
        | none =>
            cases k with
            | server k =>
                have hsame : w'.state.bridge.gateway = w.state.bridge.gateway :=
                  congrArg Execution.state (BridgeRun.gateway_stutter hpart)
                rw [hsame, hs] at hs'
                cases hs'
            | gateway event =>
                obtain ⟨uid, rfl, rfl⟩ :=
                  attached_of_next (BridgeRun.gateway_next hpart) hs hs'
                obtain ⟨url, now, x, rfl, rfl⟩ := eq_upgrade_of_attach hnext.1 hl
                exact authenticated_of_attach hnext

end SiteRun

end ReliableDelivery
