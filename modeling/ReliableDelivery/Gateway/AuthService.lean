import ReliableDelivery.Support.Ecmascript
import ReliableDelivery.Support.Interleaving

/-!
# Accounts and tokens

`AuthService`.  A call comes with what it may read besides its arguments: the clock,
and the token that `randomBytes` gives if one is created.  The sum of two numbers is
that of the engine, so that nothing is said here about rounding.
-/

namespace ReliableDelivery

open Ecmascript TransitionSystem

/-- The conversions and the sum of the engine, and the argument of the constructor. -/
structure AuthSettings where
  engine : Engine
  plus : Number → Number → Number
  tokenTtlMs : Number

structure AuthResult where
  ok : Bool
  uid : Option Number := none
  token : Option Text := none
  reason : Option Text := none
  deriving DecidableEq

structure TokenRecord where
  uid : Number
  expiresAtMs : Number
  deriving DecidableEq

structure AuthService where
  users : Number → Option Text := fun _ => none
  tokens : Text → Option TokenRecord := fun _ => none

inductive AuthCall where
  | register (userId : Number) (password : Text)
  | login (userId : Number) (password : Text) (now : Number) (token : Text)
  | verifyToken (token : Text) (now : Number)
  deriving DecidableEq

namespace AuthService

variable (A : AuthSettings) (s : AuthService)

def validateCredentials (userId : Number) (password : Text) : Text :=
  if !userId.isInteger || userId.nonpositive then
    ascii "user_id must be a positive integer"
  else if password.length = 0 then ascii "password is required"
  else []

def register (userId : Number) (password : Text) : AuthResult × AuthService :=
  let validation := validateCredentials userId password
  if validation ≠ [] then ({ ok := false, reason := some validation }, s)
  else if (s.users userId).isSome then
    ({ ok := false, reason := some (ascii "user already exists") }, s)
  else if A.engine.numberToString userId ≠ password then
    ({ ok := false,
       reason := some
        (ascii "first version requires account equals password") }, s)
  else
    ({ ok := true, uid := some userId },
      { s with users := Function.update s.users userId (some password) })

def login (userId : Number) (password : Text) (now : Number) (token : Text) :
    AuthResult × AuthService :=
  let validation := validateCredentials userId password
  if validation ≠ [] then ({ ok := false, reason := some validation }, s)
  else
    let savedPassword := s.users userId
    let passwordMatchesSavedUser := savedPassword = some password
    let passwordMatchesDemoRule :=
      savedPassword = none ∧ A.engine.numberToString userId = password
    if ¬passwordMatchesSavedUser ∧ ¬passwordMatchesDemoRule then
      ({ ok := false, reason := some (ascii "invalid user_id or password") }, s)
    else
      let users :=
        if savedPassword = none then
          Function.update s.users userId (some password)
        else s.users
      let record :=
        { uid := userId, expiresAtMs := A.plus now A.tokenTtlMs }
      ({ ok := true, uid := some userId, token := some token },
        { users, tokens := Function.update s.tokens token (some record) })

def tokenExpired : Text :=
  ascii "token expired"

def verifyToken (token : Text) (now : Number) : AuthResult × AuthService :=
  match s.tokens token with
  | none => ({ ok := false, reason := some (ascii "invalid token") }, s)
  | some record =>
      if record.expiresAtMs.isLessThan now = some true then
        ({ ok := false, reason := some tokenExpired },
          { s with tokens := Function.update s.tokens token none })
      else ({ ok := true, uid := some record.uid, token := some token }, s)

/-- What a call returns, and the service afterwards. -/
def handle : AuthCall → AuthResult × AuthService
  | .register userId password => s.register A userId password
  | .login userId password now token => s.login A userId password now token
  | .verifyToken token now => s.verifyToken token now

end AuthService

/-- A call with what it has returned. -/
structure AuthEvent where
  call : AuthCall
  result : AuthResult
  deriving DecidableEq

/-- All sequences of calls. -/
def authService (A : AuthSettings) : TransitionSystem AuthService AuthEvent where
  init s := s = {}
  step s event s' := s.handle A event.call = (event.result, s')

abbrev AuthRun (A : AuthSettings) := (authService A).Execution

/-- The calls of a run, in their order. -/
def AuthRun.events {A : AuthSettings} (e : AuthRun A) : List AuthEvent :=
  Execution.log some e

/-- The user that an event makes known. -/
def admitted : AuthEvent → Option Number
  | ⟨.register userId _, result⟩ => if result.ok then some userId else none
  | ⟨.login userId _ _ _, result⟩ => if result.ok then some userId else none
  | _ => none

/-- The token that is created in an event. -/
def createdToken : AuthEvent → Option Text
  | ⟨.login _ _ _ token, result⟩ => if result.ok then some token else none
  | _ => none

/-! ## Single calls -/

/-- The numbers that `validateCredentials` lets pass. -/
def IsUserId (userId : Number) : Prop :=
  userId.isInteger = true ∧ userId.nonpositive = false

namespace AuthService

variable {A : AuthSettings} {s : AuthService}

theorem validateCredentials_eq_nil {userId : Number} {password : Text} :
    validateCredentials userId password = [] ↔ IsUserId userId ∧ password ≠ [] := by
  rw [validateCredentials, IsUserId]
  split
  · next hbad =>
      rw [Bool.or_eq_true, Bool.not_eq_true'] at hbad
      constructor
      · intro htext
        cases htext
      · rintro ⟨⟨hinteger, hpositive⟩, -⟩
        rw [hinteger, hpositive] at hbad
        simp at hbad
  · next hgood =>
      rw [Bool.or_eq_true, not_or, Bool.not_eq_true', Bool.not_eq_false,
        Bool.not_eq_true] at hgood
      split
      · next hempty =>
          constructor
          · intro htext
            cases htext
          · rintro ⟨-, hpassword⟩
            exact absurd (List.length_eq_zero_iff.mp hempty) hpassword
      · next hlength =>
          refine ⟨fun _ => ⟨hgood, ?_⟩, fun _ => rfl⟩
          exact fun hnil => hlength (List.length_eq_zero_iff.mpr hnil)

/-- The passwords that are known are the texts of the numbers. -/
structure Sound (A : AuthSettings) (s : AuthService) : Prop where
  userId : ∀ u p, s.users u = some p → IsUserId u ∧ p = A.engine.numberToString u

/-- A registration fails and changes nothing, or it makes a new user known. -/
theorem register_cases (userId : Number) (password : Text) :
    (((s.register A userId password).1.ok = false ∧
        (s.register A userId password).2 = s) ∧
      ¬(IsUserId userId ∧ password ≠ [] ∧
        password = A.engine.numberToString userId ∧ s.users userId = none)) ∨
    (s.register A userId password = ({ ok := true, uid := some userId },
        { s with users := Function.update s.users userId (some password) }) ∧
      IsUserId userId ∧ password ≠ [] ∧
        password = A.engine.numberToString userId ∧ s.users userId = none) := by
  rw [register]
  split
  · next hbad =>
      refine .inl ⟨⟨rfl, rfl⟩, fun hall => hbad ?_⟩
      exact validateCredentials_eq_nil.mpr ⟨hall.1, hall.2.1⟩
  · next hgood =>
      obtain ⟨huser, hpassword⟩ :=
        validateCredentials_eq_nil.mp (not_not.mp hgood)
      split
      · next hknown =>
          refine .inl ⟨⟨rfl, rfl⟩, fun hall => ?_⟩
          rw [hall.2.2.2] at hknown
          cases hknown
      · next hnew =>
          split
          · next hother =>
              exact .inl ⟨⟨rfl, rfl⟩, fun hall => hother hall.2.2.1.symm⟩
          · next hsame =>
              refine .inr ⟨rfl, huser, hpassword, (not_not.mp hsame).symm, ?_⟩
              exact Option.not_isSome_iff_eq_none.mp hnew

/-- A login fails and changes nothing, or it makes its user and a token known. -/
theorem login_cases (hsound : s.Sound A) (userId : Number) (password : Text)
    (now : Number) (token : Text) :
    (((s.login A userId password now token).1.ok = false ∧
        (s.login A userId password now token).2 = s) ∧
      ¬(IsUserId userId ∧ password ≠ [] ∧
        password = A.engine.numberToString userId)) ∨
    (s.login A userId password now token =
        ({ ok := true, uid := some userId, token := some token },
          { users := Function.update s.users userId (some password)
            tokens := Function.update s.tokens token
              (some { uid := userId, expiresAtMs := A.plus now A.tokenTtlMs }) }) ∧
      IsUserId userId ∧ password ≠ [] ∧
        password = A.engine.numberToString userId) := by
  rw [login]
  dsimp only
  split
  · next hbad =>
      refine .inl ⟨⟨rfl, rfl⟩, fun hall => hbad ?_⟩
      exact validateCredentials_eq_nil.mpr ⟨hall.1, hall.2.1⟩
  · next hgood =>
      obtain ⟨huser, hpassword⟩ :=
        validateCredentials_eq_nil.mp (not_not.mp hgood)
      split
      · next hwrong =>
          refine .inl ⟨⟨rfl, rfl⟩, fun hall => ?_⟩
          cases hsaved : s.users userId with
          | none => exact hwrong.2 ⟨hsaved, hall.2.2.symm⟩
          | some saved =>
              refine hwrong.1 (hsaved.trans (congrArg some ?_))
              exact (hsound.userId userId saved hsaved).2.trans hall.2.2.symm
      · next hright =>
          rw [not_and_or, not_not, not_not] at hright
          refine .inr ⟨?_, huser, hpassword, ?_⟩
          · rcases hright with hsaved | ⟨hsaved, -⟩
            · rw [if_neg (by simp [hsaved]), ← hsaved, Function.update_eq_self]
            · rw [if_pos hsaved]
          · rcases hright with hsaved | ⟨-, hdemo⟩
            · exact (hsound.userId userId password hsaved).2
            · exact hdemo.symm

end AuthService

/-! ## What has happened to a token -/

/-- The event verifies `token` after it has expired, if it was created at `loginMs`. -/
def IsLate (A : AuthSettings) (token : Text) (loginMs : Number) :
    AuthEvent → Prop
  | ⟨.verifyToken token' now, _⟩ =>
      token' = token ∧ (A.plus loginMs A.tokenTtlMs).isLessThan now = some true
  | _ => False

/-- The event is a successful login that returns `token`. -/
def IsLogin (uid : Number) (token : Text) (loginMs : Number) (event : AuthEvent) :
    Prop :=
  event.result.ok = true ∧ event.result.token = some token ∧
    ∃ password, event.call = .login uid password loginMs token

/-- A login has returned `token`, and the token has not been verified too late
since. -/
def Issued (A : AuthSettings) (events : List AuthEvent) (uid : Number)
    (token : Text) (loginMs : Number) : Prop :=
  ∃ before login after, events = before ++ login :: after ∧
    IsLogin uid token loginMs login ∧ ∀ x ∈ after, ¬IsLate A token loginMs x

section Events

variable {A : AuthSettings} {events : List AuthEvent} {uid : Number}
  {token : Text} {loginMs : Number} {x : AuthEvent}

theorem IsLogin.createdToken (h : IsLogin uid token loginMs x) :
    createdToken x = some token := by
  obtain ⟨call, result⟩ := x
  obtain ⟨hok, -, password, hcall⟩ := h
  cases hcall
  exact if_pos hok

/-- What one more event means for a token. -/
theorem issued_concat :
    Issued A (events ++ [x]) uid token loginMs ↔
      IsLogin uid token loginMs x ∨
        Issued A events uid token loginMs ∧ ¬IsLate A token loginMs x := by
  constructor
  · rintro ⟨before, login, after, heq, hlogin, hafter⟩
    rcases List.eq_nil_or_concat after with rfl | ⟨earlier, y, rfl⟩
    · obtain ⟨-, rfl⟩ := List.append_singleton_inj.mp heq
      exact .inl hlogin
    · rw [List.concat_eq_append, ← List.cons_append, ← List.append_assoc] at heq
      obtain ⟨rfl, rfl⟩ := List.append_singleton_inj.mp heq
      refine .inr ⟨⟨before, login, earlier, rfl, hlogin, ?_⟩, ?_⟩
      · exact fun y hy => hafter y (by simp [hy])
      · exact hafter _ (by simp)
  · rintro (hlogin | ⟨⟨before, login, after, rfl, hlogin, hafter⟩, hlate⟩)
    · exact ⟨events, x, [], rfl, hlogin, by simp⟩
    · refine ⟨before, login, after ++ [x], by simp, hlogin, ?_⟩
      intro y hy
      rcases List.mem_append.mp hy with hy | hy
      · exact hafter y hy
      · rwa [List.mem_singleton.mp hy]

theorem Issued.of_concat (h : Issued A (events ++ [x]) uid token loginMs)
    (hcreated : ReliableDelivery.createdToken x = none) :
    Issued A events uid token loginMs := by
  rcases issued_concat.mp h with hlogin | ⟨hissued, -⟩
  · rw [hlogin.createdToken] at hcreated
    cases hcreated
  · exact hissued

theorem Issued.mem_createdToken (h : Issued A events uid token loginMs) :
    token ∈ events.filterMap createdToken := by
  obtain ⟨before, login, after, rfl, hlogin, -⟩ := h
  rw [List.mem_filterMap]
  exact ⟨login, by simp, hlogin.createdToken⟩

end Events

/-- The two maps tell what has happened. -/
structure AuthService.Recorded (A : AuthSettings) (events : List AuthEvent)
    (s : AuthService) : Prop where
  sound : s.Sound A
  users : ∀ u, s.users u ≠ none ↔ ∃ x ∈ events, admitted x = some u
  tokens : ∀ t u expiresAtMs, s.tokens t = some ⟨u, expiresAtMs⟩ ↔
    ∃ loginMs, Issued A events u t loginMs ∧
      expiresAtMs = A.plus loginMs A.tokenTtlMs

namespace AuthService

variable {A : AuthSettings} {s : AuthService} {events : List AuthEvent}
  {x : AuthEvent}

theorem recorded_init (A : AuthSettings) : Recorded A [] {} := by
  constructor
  · exact ⟨nofun⟩
  · simp
  · intro t u expiresAtMs
    constructor
    · nofun
    · rintro ⟨loginMs, ⟨before, login, after, heq, -⟩, -⟩
      simp at heq

/-- Users stay known. -/
theorem Recorded.users_concat (h : Recorded A events s) (hx : admitted x = none)
    (u : Number) :
    s.users u ≠ none ↔ ∃ y ∈ events ++ [x], admitted y = some u := by
  rw [h.users u]
  constructor
  · rintro ⟨y, hy, hu⟩
    exact ⟨y, List.mem_append_left _ hy, hu⟩
  · rintro ⟨y, hy, hu⟩
    rcases List.mem_append.mp hy with hy | hy
    · exact ⟨y, hy, hu⟩
    · rw [List.mem_singleton.mp hy, hx] at hu
      cases hu

/-- Another user gets known. -/
theorem Recorded.users_update (h : Recorded A events s) {u : Number}
    (p : Text) (hx : admitted x = some u) (u' : Number) :
    Function.update s.users u (some p) u' ≠ none ↔
      ∃ y ∈ events ++ [x], admitted y = some u' := by
  by_cases hu : u' = u
  · subst hu
    simp only [Function.update_self, ne_eq, reduceCtorEq, not_false_eq_true,
      true_iff]
    exact ⟨x, by simp, hx⟩
  · rw [Function.update_of_ne hu, h.users u']
    constructor
    · rintro ⟨y, hy, hy'⟩
      exact ⟨y, List.mem_append_left _ hy, hy'⟩
    · rintro ⟨y, hy, hy'⟩
      rcases List.mem_append.mp hy with hy | hy
      · exact ⟨y, hy, hy'⟩
      · rw [List.mem_singleton.mp hy, hx, Option.some.injEq] at hy'
        exact absurd hy'.symm hu

/-- An event that no token is concerned by. -/
theorem Recorded.tokens_concat (h : Recorded A events s)
    (hcreated : createdToken x = none)
    (hlate : ∀ t u loginMs, Issued A events u t loginMs → ¬IsLate A t loginMs x)
    (t : Text) (u expiresAtMs : Number) :
    s.tokens t = some ⟨u, expiresAtMs⟩ ↔
      ∃ loginMs, Issued A (events ++ [x]) u t loginMs ∧
        expiresAtMs = A.plus loginMs A.tokenTtlMs := by
  rw [h.tokens t u expiresAtMs]
  constructor
  · rintro ⟨loginMs, hissued, hexpires⟩
    exact ⟨loginMs,
      issued_concat.mpr (.inr ⟨hissued, hlate t u loginMs hissued⟩), hexpires⟩
  · rintro ⟨loginMs, hissued, hexpires⟩
    exact ⟨loginMs, hissued.of_concat hcreated, hexpires⟩

/-- The passwords stay right when a user is added with the text of its number. -/
theorem Sound.update (h : s.Sound A) {u : Number} {p : Text} (hu : IsUserId u)
    (hp : p = A.engine.numberToString u) (tokens : Text → Option TokenRecord) :
    Sound A { users := Function.update s.users u (some p), tokens } where
  userId := by
    intro u' p' hu'
    by_cases heq : u' = u
    · subst heq
      have hsome : Function.update s.users u' (some p) u' = some p' := hu'
      rw [Function.update_self, Option.some.injEq] at hsome
      exact ⟨hu, hsome ▸ hp⟩
    · have hsome : Function.update s.users u (some p) u' = some p' := hu'
      rw [Function.update_of_ne heq] at hsome
      exact h.userId u' p' hsome

theorem Recorded.register (h : Recorded A events s) (userId : Number)
    (password : Text) :
    Recorded A
      (events ++
        [⟨.register userId password, (s.register A userId password).1⟩])
      (s.register A userId password).2 := by
  rcases register_cases userId password with
    ⟨⟨hok, hsame⟩, -⟩ | ⟨heq, huser, -, hpassword, -⟩
  · rw [hsame]
    refine ⟨h.sound, ?_, ?_⟩
    · exact h.users_concat (by rw [admitted, hok]; rfl)
    · exact h.tokens_concat rfl (fun _ _ _ _ => id)
  · rw [heq]
    refine ⟨h.sound.update huser hpassword s.tokens, ?_, ?_⟩
    · exact h.users_update password rfl
    · exact h.tokens_concat rfl (fun _ _ _ _ => id)

theorem Recorded.login (h : Recorded A events s) (userId : Number)
    (password : Text) (now : Number) (token : Text)
    (hnew : (s.login A userId password now token).1.ok = true →
      token ∉ events.filterMap createdToken) :
    Recorded A
      (events ++ [⟨.login userId password now token,
        (s.login A userId password now token).1⟩])
      (s.login A userId password now token).2 := by
  rcases login_cases h.sound userId password now token with
    ⟨⟨hok, hsame⟩, -⟩ | ⟨heq, huser, -, hpassword⟩
  · rw [hsame]
    refine ⟨h.sound, ?_, ?_⟩
    · exact h.users_concat (by rw [admitted, hok]; rfl)
    · exact h.tokens_concat (by rw [createdToken, hok]; rfl) (fun _ _ _ _ => id)
  · have hunused := hnew (by rw [heq])
    rw [heq]
    refine ⟨h.sound.update huser hpassword _, h.users_update password rfl, ?_⟩
    intro t u expiresAtMs
    dsimp only
    by_cases ht : t = token
    · subst ht
      rw [Function.update_self, Option.some.injEq, TokenRecord.mk.injEq]
      constructor
      · rintro ⟨rfl, rfl⟩
        exact ⟨now, issued_concat.mpr (.inl ⟨rfl, rfl, password, rfl⟩), rfl⟩
      · rintro ⟨loginMs, hissued, rfl⟩
        rcases issued_concat.mp hissued with hlogin | ⟨hissued, -⟩
        · obtain ⟨-, -, password', hcall⟩ := hlogin
          cases hcall
          exact ⟨rfl, rfl⟩
        · exact absurd hissued.mem_createdToken hunused
    · rw [Function.update_of_ne ht, h.tokens t u expiresAtMs]
      constructor
      · rintro ⟨loginMs, hissued, hexpires⟩
        exact ⟨loginMs, issued_concat.mpr (.inr ⟨hissued, id⟩), hexpires⟩
      · rintro ⟨loginMs, hissued, hexpires⟩
        rcases issued_concat.mp hissued with hlogin | ⟨hissued, -⟩
        · obtain ⟨-, -, password', hcall⟩ := hlogin
          cases hcall
          exact absurd rfl ht
        · exact ⟨loginMs, hissued, hexpires⟩

theorem verifyToken_none {t : Text} (h : s.tokens t = none) (now : Number) :
    s.verifyToken t now =
      ({ ok := false, reason := some (ascii "invalid token") }, s) := by
  rw [verifyToken, h]

theorem verifyToken_some {t : Text} {record : TokenRecord}
    (h : s.tokens t = some record) (now : Number) :
    s.verifyToken t now =
      if record.expiresAtMs.isLessThan now = some true then
        ({ ok := false, reason := some tokenExpired },
          { s with tokens := Function.update s.tokens t none })
      else ({ ok := true, uid := some record.uid, token := some t }, s) := by
  rw [verifyToken, h]

theorem Recorded.verifyToken (h : Recorded A events s) (token : Text)
    (now : Number) :
    Recorded A
      (events ++ [⟨.verifyToken token now, (s.verifyToken token now).1⟩])
      (s.verifyToken token now).2 := by
  cases hrecord : s.tokens token with
  | none =>
      rw [verifyToken_none hrecord]
      refine ⟨h.sound, h.users_concat rfl, h.tokens_concat rfl ?_⟩
      rintro t u loginMs hissued ⟨rfl, -⟩
      have hsome := (h.tokens token u _).mpr ⟨loginMs, hissued, rfl⟩
      rw [hrecord] at hsome
      cases hsome
  | some record =>
      have hexpires : ∀ u loginMs, Issued A events u token loginMs →
          record.expiresAtMs = A.plus loginMs A.tokenTtlMs := by
        intro u loginMs hissued
        have hsome := (h.tokens token u _).mpr ⟨loginMs, hissued, rfl⟩
        rw [hrecord, Option.some.injEq] at hsome
        rw [hsome]
      rw [verifyToken_some hrecord]
      split
      · next hlate =>
          refine ⟨⟨h.sound.userId⟩, h.users_concat rfl, ?_⟩
          intro t u expiresAtMs
          dsimp only
          by_cases ht : t = token
          · subst ht
            rw [Function.update_self]
            constructor
            · nofun
            · rintro ⟨loginMs, hissued, -⟩
              rcases issued_concat.mp hissued with hlogin | ⟨hissued, hintime⟩
              · cases hlogin.createdToken
              · refine absurd ⟨rfl, ?_⟩ hintime
                rw [← hexpires u loginMs hissued]
                exact hlate
          · rw [Function.update_of_ne ht]
            have hother : ∀ u loginMs result, Issued A (events ++
                [⟨.verifyToken token now, result⟩]) u t loginMs ↔
                  Issued A events u t loginMs := by
              intro u loginMs result
              refine ⟨fun hissued => hissued.of_concat rfl, fun hissued => ?_⟩
              exact issued_concat.mpr (.inr ⟨hissued, fun hbad => ht hbad.1.symm⟩)
            simp only [hother]
            exact h.tokens t u expiresAtMs
      · next hintime =>
          refine ⟨h.sound, h.users_concat rfl, h.tokens_concat rfl ?_⟩
          rintro t u loginMs hissued ⟨rfl, hlate⟩
          rw [← hexpires u loginMs hissued] at hlate
          exact hintime hlate

/-- A call keeps the maps in step with what has happened. -/
theorem Recorded.handle (h : Recorded A events s) (call : AuthCall)
    (hnodup : ((events ++ [AuthEvent.mk call (s.handle A call).1]).filterMap
      createdToken).Nodup) :
    Recorded A (events ++ [⟨call, (s.handle A call).1⟩]) (s.handle A call).2 := by
  cases call with
  | register userId password => exact h.register userId password
  | login userId password now token =>
      apply h.login
      intro hok hmem
      have hcreated : createdToken ⟨.login userId password now token,
          (s.login A userId password now token).1⟩ = some token :=
        if_pos hok
      rw [List.filterMap_append, List.nodup_append] at hnodup
      refine hnodup.2.2 token hmem token ?_ rfl
      simp [AuthService.handle, hcreated]
  | verifyToken token now => exact h.verifyToken token now

end AuthService

/-! ## All runs -/

section Runs

variable {A : AuthSettings}

/-- The maps are in step with the run, if `randomBytes` does not repeat itself. -/
theorem AuthRun.recorded (e : AuthRun A)
    (hnodup : (e.events.filterMap createdToken).Nodup) :
    e.state.Recorded A e.events := by
  revert hnodup
  apply Execution.induct (P := fun e : AuthRun A =>
    ((AuthRun.events e).filterMap createdToken).Nodup →
      (Execution.state e).Recorded A (AuthRun.events e))
  · intro e hnil hinit _
    have hstate : e.state = {} := hinit
    rw [AuthRun.events, Execution.log_init hnil, hstate]
    exact AuthService.recorded_init A
  · intro e e' x ih hnext hnodup
    have hevents : AuthRun.events e' = AuthRun.events e ++ [x] :=
      Execution.log_next hnext
    have hstep : e.state.handle A x.call = (x.result, e'.state) := hnext.1
    have hx : x = ⟨x.call, (e.state.handle A x.call).1⟩ := by
      rw [hstep]
    rw [hevents] at hnodup ⊢
    have hrecorded := ih (by
      rw [List.filterMap_append] at hnodup
      exact (List.nodup_append.mp hnodup).1)
    rw [hx] at hnodup ⊢
    have hstate : e'.state = (e.state.handle A x.call).2 := by
      rw [hstep]
    rw [hstate]
    exact hrecorded.handle x.call hnodup

/-- Tokens and credentials over a whole run.  A token that has been returned is good
until a time after its login plus `tokenTtlMs`; once it has been verified at such a
time after the login it is not good any more, whatever the clock says later. -/
theorem credentials_iff (e : AuthRun A)
    (hstring : ∀ u, IsUserId u → A.engine.numberToString u ≠ [])
    (hdistinct : (e.events.filterMap createdToken).Nodup) :
    (∀ token now uid,
      (e.state.verifyToken token now).1.ok = true ∧
          (e.state.verifyToken token now).1.uid = some uid ↔
        ∃ loginMs, Issued A e.events uid token loginMs ∧
          (A.plus loginMs A.tokenTtlMs).isLessThan now ≠ some true) ∧
      (∀ userId password now token,
        (e.state.login A userId password now token).1.ok = true ↔
          IsUserId userId ∧ password = A.engine.numberToString userId) ∧
      (∀ userId password,
        (e.state.register A userId password).1.ok = true ↔
          (IsUserId userId ∧ password = A.engine.numberToString userId) ∧
            ∀ x ∈ e.events, admitted x ≠ some userId) ∧
      ∀ call, (e.state.handle A call).1.ok = false →
        (e.state.handle A call).1.reason ≠ some AuthService.tokenExpired →
          (e.state.handle A call).2 = e.state := by
  have hrecorded := e.recorded hdistinct
  refine ⟨?_, ?_, ?_, ?_⟩
  · intro token now uid
    cases hrecord : e.state.tokens token with
    | none =>
        rw [AuthService.verifyToken_none hrecord]
        constructor
        · rintro ⟨hok, -⟩
          cases hok
        · rintro ⟨loginMs, hissued, -⟩
          have hsome := (hrecorded.tokens token uid _).mpr ⟨loginMs, hissued, rfl⟩
          rw [hrecord] at hsome
          cases hsome
    | some record =>
        have hall : ∀ u loginMs, Issued A e.events u token loginMs →
            record = ⟨u, A.plus loginMs A.tokenTtlMs⟩ := by
          intro u loginMs hissued
          have hsome := (hrecorded.tokens token u _).mpr ⟨loginMs, hissued, rfl⟩
          rw [hrecord, Option.some.injEq] at hsome
          exact hsome
        rw [AuthService.verifyToken_some hrecord]
        split
        · next hlate =>
            constructor
            · rintro ⟨hok, -⟩
              cases hok
            · rintro ⟨loginMs, hissued, hintime⟩
              rw [hall uid loginMs hissued] at hlate
              exact absurd hlate hintime
        · next hintime =>
            constructor
            · rintro ⟨-, huid⟩
              obtain ⟨loginMs, hissued, hexpires⟩ :=
                (hrecorded.tokens token record.uid record.expiresAtMs).mp hrecord
              rw [Option.some.injEq] at huid
              exact ⟨loginMs, huid ▸ hissued, hexpires ▸ hintime⟩
            · rintro ⟨loginMs, hissued, -⟩
              rw [hall uid loginMs hissued]
              exact ⟨rfl, rfl⟩
  · intro userId password now token
    rcases AuthService.login_cases hrecorded.sound userId password now token with
      ⟨⟨hok, -⟩, hbad⟩ | ⟨heq, huser, -, hpassword⟩
    · rw [hok]
      refine ⟨nofun, fun hgood => absurd ⟨hgood.1, ?_, hgood.2⟩ hbad⟩
      rw [hgood.2]
      exact hstring userId hgood.1
    · rw [heq]
      exact ⟨fun _ => ⟨huser, hpassword⟩, fun _ => rfl⟩
  · intro userId password
    have hknown : e.state.users userId = none ↔
        ∀ x ∈ e.events, admitted x ≠ some userId := by
      rw [← not_iff_not, ← ne_eq, hrecorded.users userId]
      simp
    rw [← hknown]
    rcases AuthService.register_cases (A := A) (s := e.state) userId password with
      ⟨⟨hok, -⟩, hbad⟩ | ⟨heq, huser, -, hpassword, hnew⟩
    · rw [hok]
      refine ⟨nofun, fun hgood => absurd ⟨hgood.1.1, ?_, hgood.1.2, hgood.2⟩ hbad⟩
      rw [hgood.1.2]
      exact hstring userId hgood.1.1
    · rw [heq]
      exact ⟨fun _ => ⟨⟨huser, hpassword⟩, hnew⟩, fun _ => rfl⟩
  · intro call hok hreason
    cases call with
    | register userId password =>
        rcases AuthService.register_cases (A := A) (s := e.state) userId password
          with ⟨⟨-, hsame⟩, -⟩ | ⟨heq, -⟩
        · exact hsame
        · rw [AuthService.handle, heq] at hok
          cases hok
    | login userId password now token =>
        rcases AuthService.login_cases hrecorded.sound userId password now token
          with ⟨⟨-, hsame⟩, -⟩ | ⟨heq, -⟩
        · exact hsame
        · rw [AuthService.handle, heq] at hok
          cases hok
    | verifyToken token now =>
        cases hrecord : e.state.tokens token with
        | none => rw [AuthService.handle, AuthService.verifyToken_none hrecord]
        | some record =>
            rw [AuthService.handle, AuthService.verifyToken_some hrecord] at *
            split at hreason
            · exact absurd rfl hreason
            · next hintime => rw [if_neg hintime]

end Runs

/-! ## A clock that goes backwards -/

/-- The run of no calls. -/
def AuthRun.start (A : AuthSettings) : AuthRun A :=
  ⟨[], {}, .init rfl⟩

/-- One more call. -/
def AuthRun.call {A : AuthSettings} (e : AuthRun A) (c : AuthCall) : AuthRun A :=
  Execution.extend e (l := ⟨c, (e.state.handle A c).1⟩)
    (s := (e.state.handle A c).2) rfl

/-- Tokens are good for ten milliseconds. -/
def sampleAuth : AuthSettings where
  engine :=
    { stringToNumber := fun _ => .finite 1
      numberToString := fun _ => ascii "1" }
  plus
    | .finite x, .finite y => .finite (x + y)
    | _, _ => .nan
  tokenTtlMs := .finite 10

def sampleToken : Text :=
  ascii "5f0c1b7a9d3e2468ace013579bdf8642f1e0d9c8b7a69584"

def sampleLogin : AuthCall :=
  .login (.finite 1) (ascii "1") (.finite 0) sampleToken

/-- The token of a login at 0 is good at 5. -/
theorem credentials_iff_sampleLogin :
    (((AuthRun.start sampleAuth).call sampleLogin).state.verifyToken
      sampleToken (.finite 5)).1.uid = some (.finite 1) := by
  refine (((credentials_iff ((AuthRun.start sampleAuth).call sampleLogin)
    ?_ ?_).1 sampleToken (.finite 5) (.finite 1)).mpr ?_).2
  · intro u _ hnil
    cases hnil
  · decide +kernel
  · refine ⟨.finite 0, ⟨[], _, [], rfl, ?_, by simp⟩, by decide +kernel⟩
    exact ⟨by decide +kernel, by decide +kernel, ascii "1", rfl⟩

/-- A token that was tried at 1000 before it existed is good at 5, although it has
been verified earlier at a time beyond its end. -/
theorem verified_before_login :
    ∃ e : AuthRun sampleAuth, (e.events.filterMap createdToken).Nodup ∧
      ¬∀ token now uid,
        (e.state.verifyToken token now).1.ok = true ∧
            (e.state.verifyToken token now).1.uid = some uid ↔
          ∃ loginMs, (∃ x ∈ e.events, IsLogin uid token loginMs x) ∧
            (sampleAuth.plus loginMs sampleAuth.tokenTtlMs).isLessThan now =
              some false ∧
            ∀ x ∈ e.events, ¬IsLate sampleAuth token loginMs x := by
  let e : AuthRun sampleAuth :=
    ((AuthRun.start sampleAuth).call
      (.verifyToken sampleToken (.finite 1000))).call sampleLogin
  refine ⟨e, by decide +kernel, fun hall => ?_⟩
  obtain ⟨loginMs, ⟨x, hx, hlogin⟩, -, hintime⟩ :=
    (hall sampleToken (.finite 5) (.finite 1)).mp
      ⟨by decide +kernel, by decide +kernel⟩
  have hevents : e.events =
      [⟨.verifyToken sampleToken (.finite 1000),
          { ok := false, reason := some (ascii "invalid token") }⟩,
        ⟨sampleLogin,
          { ok := true, uid := some (.finite 1), token := some sampleToken }⟩] := by
    decide +kernel
  rw [hevents] at hx hintime
  have hlate := hintime _ List.mem_cons_self
  obtain ⟨-, -, password, hcall⟩ := hlogin
  rw [List.mem_cons, List.mem_singleton] at hx
  rcases hx with rfl | rfl
  · cases hcall
  · cases hcall
    exact hlate ⟨rfl, by decide +kernel⟩

end ReliableDelivery
