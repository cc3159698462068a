import ReliableDelivery.Server.Footprint
import ReliableDelivery.Server.Justification
import ReliableDelivery.Server.Schedule

/-!
# Confirming a login

A login binds its user to the connection first and confirms it afterwards.  In
between, other threads already find the connection and push messages to it.
This module shows that this is the only way for a push to come first: if nobody
finds a connection in that window, every push on a connection comes after a
confirmed login.
-/

namespace ReliableDelivery

open Decimal Redis EnvelopeFactory TransitionSystem Program

variable {P : Platform}

/-- A positive answer to a login request. -/
def Envelope.confirmsLogin (envelope : Envelope) : Bool :=
  envelope.type = .loginResp ∧ envelope.loginResp?.any LoginResponse.ok

/-- The step sends a positive answer on the connection. -/
def ServerLabel.confirms (conn : Conn) : ServerLabel → Bool
  | .execute _ _ (.sendEnvelope conn' envelope) _ =>
      conn' = conn ∧ envelope.confirmsLogin
  | _ => false

/-- A login has been confirmed on the connection. -/
def Confirmed (e : ServerRun P) (conn : Conn) : Prop :=
  ∃ x ∈ e.history, x.2.confirms conn = true

def ConfirmsOn (conn : Conn) (command : Command) : Prop :=
  ∃ envelope, command = .sendEnvelope conn envelope ∧
    envelope.confirmsLogin = true

/-- Some thread is bound to confirm a login on the connection: it has bound the
user and not yet answered. -/
def Confirming (s : ServerState) (conn : Conn) : Prop :=
  ∃ t job code, s.running t = some (job, code) ∧
    Leads (fun _ _ => True) (ConfirmsOn conn) (fun _ => False) code

/-- The first login on the connection is bound and not yet confirmed. -/
def InWindow (e : ServerRun P) (conn : Conn) : Prop :=
  ¬Confirmed e conn ∧ Confirming e.state conn

section Steps

variable {e e' : ServerRun P} {l : ServerLabel} {conn : Conn} {uid : UInt64}

theorem Confirmed.mono (h : Confirmed e conn) (hlater : Execution.Later e e') :
    Confirmed e' conn := by
  obtain ⟨x, hx, hconfirms⟩ := h
  exact ⟨x, hlater.mem_history hx, hconfirms⟩

/-- Whoever is bound to confirm the login goes on until it does so. -/
theorem Confirming.goes {s s' : ServerState} (h : Confirming s conn)
    (hstep : ServerStep P s l s') :
    l.confirms conn = true ∨ Confirming s' conn := by
  obtain ⟨t, job, code, hrunning, hleads⟩ := h
  rcases hstep.goesOn hrunning with
    hsame | ⟨command, next, answer, rfl, rfl, hafter⟩ | ⟨rfl, -⟩
  · exact .inr ⟨t, job, code, hsame, hleads⟩
  · rcases hleads with ⟨envelope, rfl, hconfirms⟩ | hgoes
    · left
      simp [ServerLabel.confirms, hconfirms]
    · exact .inr ⟨t, job, next answer, hafter, hgoes answer trivial⟩
  · exact hleads.elim

theorem Confirming.next (h : Confirming e.state conn)
    (hnext : Execution.Next e l e') :
    Confirmed e' conn ∨ Confirming e'.state conn := by
  rcases h.goes hnext.1 with hconfirms | hconfirming
  · exact .inl ⟨_, hnext.mem_history, hconfirms⟩
  · exact .inr hconfirming

/-- Only the beginning of a login binds a user: the one it names. -/
theorem running_of_bindUser {t : Thread} {job : Job} {answer : Bool}
    (hnext : Execution.Next e (.execute t job (.bindUser conn uid) answer) e') :
    ∃ envelope, Handles job conn envelope ∧ envelope.type = .loginReq ∧
      envelope.loginUid = uid ∧ uid ≠ 0 ∧
      e.state.running t = some (job, handleLogin conn envelope) := by
  have hstep : ServerStep P e.state (.execute t job (.bindUser conn uid) answer)
      e'.state := hnext.1
  obtain ⟨next, -, hrunning, -, -⟩ := hstep.execute_inv
  obtain ⟨envelope, hhandles⟩ : Justified job e (.bindUser conn uid) :=
    justified_of_next hnext
  rcases rareFree_of_running e hhandles hrunning with
    hfree | ⟨conn', envelope', hevent, htype, huid, hcode⟩
  · exact absurd trivial (avoids_call.mp hfree).1
  · cases hevent
    have hlogin : envelope.loginUid = uid := by
      rw [handleLogin_eq conn huid] at hcode
      cases hcode
      rfl
    exact ⟨envelope, hhandles, htype, hlogin, hlogin ▸ huid, hcode ▸ hrunning⟩

/-- Once it has bound the user, a login is bound to confirm it. -/
theorem confirming_of_bindUser {t : Thread} {job : Job}
    (hnext : Execution.Next e (.execute t job (.bindUser conn uid) true) e') :
    Confirming e'.state conn := by
  obtain ⟨envelope, -, -, rfl, huid, hbegun⟩ := running_of_bindUser hnext
  have hstep : ServerStep P e.state
      (.execute t job (.bindUser conn envelope.loginUid) true) e'.state :=
    hnext.1
  obtain ⟨next, s', hrunning, -, hstate⟩ := hstep.execute_inv
  rw [hbegun, handleLogin_eq conn huid] at hrunning
  cases hrunning
  refine ⟨t, job, answerLogin conn envelope.seq envelope.loginUid (true, []),
    ?_, ?_⟩
  · simp only [hstate, ServerState.setRunning, Function.update_self, if_true]
  · refine .inr fun now _ => .inl ?_
    exact ⟨_, rfl, rfl⟩

/-- Every connection with a user is confirmed, or about to be. -/
theorem confirmed_or_confirming (e : ServerRun P)
    (hbound : e.state.users.getConnByUid uid = some conn) :
    Confirmed e conn ∨ Confirming e.state conn := by
  apply ServerRun.bound_induct
    (Q := fun e => Confirmed e conn ∨ Confirming e.state conn) ?_ ?_ e hbound
  · intro e e' t job hnext
    exact .inr (confirming_of_bindUser hnext)
  · intro e e' l ih hnext
    rcases ih with hconfirmed | hconfirming
    · exact .inl (hconfirmed.mono hnext.later)
    · exact hconfirming.next hnext

/-- Every connection with a user has received the login of this user. -/
theorem login_of_bound (e : ServerRun P)
    (hbound : e.state.users.getConnByUid uid = some conn) :
    ∃ envelope, Received e conn envelope ∧ envelope.type = .loginReq ∧
      envelope.loginUid = uid := by
  apply ServerRun.bound_induct (Q := fun e =>
    ∃ envelope, Received e conn envelope ∧ envelope.type = .loginReq ∧
      envelope.loginUid = uid) ?_ ?_ e hbound
  · intro e e' t job hnext
    obtain ⟨envelope, hhandles, htype, hlogin, -, hrunning⟩ :=
      running_of_bindUser hnext
    have hreceived : Received e conn envelope :=
      ServerRun.received e hhandles (.inr ⟨t, _, hrunning⟩)
    exact ⟨envelope, hreceived.mono hnext.later, htype, hlogin⟩
  · rintro e e' l ⟨envelope, hreceived, hlogin⟩ hnext
    exact ⟨envelope, hreceived.mono hnext.later, hlogin⟩

end Steps

/-- If no thread finds a connection between the binding and the confirmation of
its first login, every push on a connection is sent after a login on it has
been confirmed. -/
theorem login_confirmed_before_push {e e' : ServerRun P} {t : Thread} {job : Job}
    {conn : Conn} {envelope : Envelope} {push : ChatPush}
    (hsend : Execution.Next e
      (.execute t job (.sendEnvelope conn envelope) ()) e')
    (hpush : envelope.payload = some (.chatPush push))
    (hlookups : ∀ (e₀ e₁ : ServerRun P) t' job' uid conn',
      Execution.Next e₀
        (.execute t' job' (.getConnByUid uid) (some conn')) e₁ →
      Execution.Later e₁ e → ¬InWindow e₀ conn') :
    Confirmed e conn := by
  obtain ⟨-, hpushes⟩ : Justified job e (.sendEnvelope conn envelope) :=
    justified_of_next hsend
  obtain ⟨m, uid, s, -, -, -, -, hlookup, -⟩ := hpushes push hpush
  have hbound := hlookup.did.getConnByUid
  obtain ⟨t', hmem⟩ := hlookup.did
  obtain ⟨e₀, e₁, rfl, hnext, hlater⟩ := Execution.exists_next_of_mem hmem
  have hconfirmed : Confirmed e₀ conn := by
    by_contra hnot
    rcases confirmed_or_confirming e₀ hbound with hyes | hconfirming
    · exact hnot hyes
    · exact hlookups e₀ e₁ t' job uid conn hnext hlater ⟨hnot, hconfirming⟩
  exact hconfirmed.mono (hnext.later.trans hlater)

/-- The connection that the step finds for a user. -/
def ServerLabel.finds : ServerLabel → Option Conn
  | .execute _ _ (.getConnByUid _) answer => answer
  | _ => none

/-- Every connection that was found had been confirmed, in a form that can be
evaluated. -/
def foundConfirmed : List (ServerState × ServerLabel) → Bool
  | [] => true
  | x :: past =>
      (x.2.finds.all fun conn => past.any fun y => y.2.confirms conn) &&
        foundConfirmed past

theorem foundConfirmed_spec {history past : List (ServerState × ServerLabel)}
    {x : ServerState × ServerLabel} {conn : Conn}
    (h : foundConfirmed history = true) (hsuffix : x :: past <:+ history)
    (hfinds : x.2.finds = some conn) :
    ∃ y ∈ past, y.2.confirms conn = true := by
  induction history with
  | nil => simp at hsuffix
  | cons y history ih =>
      simp only [foundConfirmed, Bool.and_eq_true] at h
      rcases List.suffix_cons_iff.mp hsuffix with heq | hrest
      · cases heq
        simpa [hfinds] using h.1
      · exact ih h.2 hrest

/-- User 1 logs in and writes a note to self. -/
def noteAfterLogin : List Choice :=
  [.connect 0, .receive 0 (loginAs 1)] ++ complete 0 20 ++
    [.receive 0 (chatFrom 1 1 7 (literal "hi") (literal "a"))] ++ work 0 6

theorem login_confirmed_before_push_noteAfterLogin :
    ∃ e e' : ServerRun wirePlatform,
      Execution.Next e (.execute (.worker 0)
        ⟨1, .event (.envelope 0
          (chatFrom 1 1 7 (literal "hi") (literal "a")))⟩
        (.sendEnvelope 0
          { type := .chatPush, seq := 1, timestampMs := 1000,
            payload := some (.chatPush
              { msgId := 1, fromUid := 1, toUid := 1, content := literal "hi",
                serverTimestampMs := 1000 }) }) ()) e' ∧
      Confirmed e 0 := by
  obtain ⟨e, hstate, hhistory⟩ := exists_run wirePlatform noteAfterLogin
  have hissues : e.state.issues (.worker 0) = some
      (⟨1, .event (.envelope 0
          (chatFrom 1 1 7 (literal "hi") (literal "a")))⟩,
        .sendEnvelope 0
          { type := .chatPush, seq := 1, timestampMs := 1000,
            payload := some (.chatPush
              { msgId := 1, fromUid := 1, toUid := 1, content := literal "hi",
                serverTimestampMs := 1000 }) }) := by
    rw [hstate]
    decide +kernel
  have hfound : foundConfirmed e.history = true := by
    rw [hhistory]
    decide +kernel
  obtain ⟨e', hnext, -⟩ := exists_execute 1000 hissues
  refine ⟨e, e', hnext, login_confirmed_before_push hnext rfl ?_⟩
  intro e₀ e₁ t job uid conn hlookup hlater hwindow
  have hsuffix := hlater.history_suffix
  rw [hlookup.2] at hsuffix
  exact hwindow.1 (foundConfirmed_spec hfound hsuffix rfl)

/-- User 2 logs in on connection 1.  The login has bound the user when a message
from user 1 is delivered. -/
def pushIntoLogin : List Choice :=
  [.connect 0, .connect 1, .receive 0 (loginAs 1)] ++ complete 0 20 ++
    [.receive 1 (loginAs 2)] ++ work 6 1 ++
    [.receive 0 (chatFrom 1 2 7 (literal "hi") (literal "a"))] ++ work 0 6

/-- The message is pushed before the login is confirmed. -/
theorem push_before_confirmation :
    ∃ (e e' : ServerRun wirePlatform) (t : Thread) (job : Job)
      (envelope : Envelope) (push : ChatPush),
      Execution.Next e (.execute t job (.sendEnvelope 1 envelope) ()) e' ∧
      envelope.payload = some (.chatPush push) ∧ ¬Confirmed e 1 := by
  obtain ⟨e, hstate, hhistory⟩ := exists_run wirePlatform pushIntoLogin
  have hissues : e.state.issues (.worker 0) = some
      (⟨2, .event (.envelope 0
          (chatFrom 1 2 7 (literal "hi") (literal "a")))⟩,
        .sendEnvelope 1
          { type := .chatPush, seq := 1, timestampMs := 1000,
            payload := some (.chatPush
              { msgId := 1, fromUid := 1, toUid := 2, content := literal "hi",
                serverTimestampMs := 1000 }) }) := by
    rw [hstate]
    decide +kernel
  have hunconfirmed : (e.history.any fun x => x.2.confirms 1) = false := by
    rw [hhistory]
    decide +kernel
  obtain ⟨e', hnext, -⟩ := exists_execute 1000 hissues
  refine ⟨e, e', _, _, _, _, hnext, rfl, ?_⟩
  rintro ⟨x, hx, hconfirms⟩
  rw [List.any_eq_false] at hunconfirmed
  exact hunconfirmed x hx hconfirms

end ReliableDelivery
