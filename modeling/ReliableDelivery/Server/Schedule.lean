import ReliableDelivery.Protocol.Wire
import ReliableDelivery.Server.System
import ReliableDelivery.Support.Driver

/-!
# Scheduled runs

A schedule names the thread that moves next and what the clock shows.  Following
a schedule in which every call to Redis succeeds gives a run of the server, step
by step and by computation.  Concrete runs are written this way.
-/

namespace ReliableDelivery

open Decimal Redis TransitionSystem

/-- What happens next. -/
inductive Choice where
  | connect (conn : Conn)
  | receive (conn : Conn) (envelope : Envelope)
  | disconnect (conn : Conn)
  | begin (i : Fin kBusinessWorkerCount)
  | beginScan
  | call (t : Thread) (now : UInt64)
  | finish (t : Thread)

/-- The answer to a command and the state after it, when all goes well. -/
def ServerState.answer (P : Platform) (s : ServerState) (now : UInt64) :
    (command : Command) → command.Answer × ServerState
  | .redis request =>
      (some (s.store.run request).1,
        { s with store := (s.store.run request).2 })
  | .nowMs => (now, s)
  | .bindUser conn uid =>
      ((s.users.bindUser (some conn) uid now).1,
        { s with users := (s.users.bindUser (some conn) uid now).2 })
  | .getUidByConn conn => (s.users.getUidByConn (some conn), s)
  | .getConnByUid uid => (s.users.getConnByUid uid, s)
  | .updateHeartbeat conn =>
      ((), { s with users := s.users.updateHeartbeat (some conn) now })
  | .removeConnection conn =>
      ((), { s with users := s.users.removeConnection (some conn) })
  | .connected conn => (s.connected conn, s)
  | .sendEnvelope conn envelope => ((), s.sendEnvelope P conn envelope)

theorem effect_answer (P : Platform) (s : ServerState) (now : UInt64)
    (command : Command) :
    Effect P s command (s.answer P now command).1
      (s.answer P now command).2 := by
  cases command with
  | redis request => exact .redisAnswered request
  | nowMs => exact .nowMs now
  | bindUser conn uid => exact .bindUser conn uid now
  | getUidByConn conn => exact .getUidByConn conn
  | getConnByUid uid => exact .getConnByUid uid
  | updateHeartbeat conn => exact .updateHeartbeat conn now
  | removeConnection conn => exact .removeConnection conn
  | connected conn => exact .connected conn
  | sendEnvelope conn envelope => exact .sendEnvelope conn envelope

/-- The step a choice leads to, if it is possible. -/
def ServerState.advance (P : Platform) (s : ServerState) :
    Choice → Option (ServerLabel × ServerState)
  | .connect conn =>
      if s.phase conn = none then
        some (.connect conn,
          { s with phase := Function.update s.phase conn (some .up) })
      else none
  | .receive conn envelope =>
      if s.phase conn = some .up ∨ s.phase conn = some .closing then
        some (.receive conn envelope,
          s.enqueue P conn (.envelope conn envelope))
      else none
  | .disconnect conn =>
      if s.phase conn = some .up ∨ s.phase conn = some .closing then
        some (.disconnect conn,
          { s with phase := Function.update s.phase conn (some .closed) })
      else none
  | .begin i =>
      match s.running (.worker i), s.queues i with
      | none, job :: rest =>
          some (.begin (.worker i) job,
            ({ s with queues := Function.update s.queues i rest } :
              ServerState).setRunning (.worker i) (some (job, job.code)))
      | _, _ => none
  | .beginScan =>
      match s.running .delivery with
      | none =>
          some (.begin .delivery ⟨s.nextJob, .scan⟩,
            ({ s with nextJob := s.nextJob + 1 } : ServerState).setRunning
              .delivery (some (⟨s.nextJob, .scan⟩, deliveryScan)))
      | some _ => none
  | .call t now =>
      match s.running t with
      | some (job, .call command next) =>
          some (.execute t job command (s.answer P now command).1,
            (s.answer P now command).2.setRunning t
              (some (job, next (s.answer P now command).1)))
      | _ => none
  | .finish t =>
      match s.running t with
      | some (job, .done ()) => some (.finish t job, s.setRunning t none)
      | _ => none

theorem step_advance {P : Platform} {s s' : ServerState} {choice : Choice}
    {l : ServerLabel} (h : s.advance P choice = some (l, s')) :
    ServerStep P s l s' := by
  cases choice with
  | connect conn =>
      simp only [ServerState.advance] at h
      split at h
      · next hphase => cases h; exact .connect conn hphase
      · cases h
  | receive conn envelope =>
      simp only [ServerState.advance] at h
      split at h
      · next hphase => cases h; exact .receive conn envelope hphase
      · cases h
  | disconnect conn =>
      simp only [ServerState.advance] at h
      split at h
      · next hphase => cases h; exact .disconnect conn hphase
      · cases h
  | begin i =>
      simp only [ServerState.advance] at h
      split at h
      · next job rest hidle hqueue =>
          cases h
          exact .beginEvent i job rest hidle hqueue
      · cases h
  | beginScan =>
      simp only [ServerState.advance] at h
      split at h
      · next hidle => cases h; exact .beginScan hidle
      · cases h
  | call t now =>
      simp only [ServerState.advance] at h
      split at h
      · next job command next hrunning =>
          cases h
          exact .execute t job command next _ _ hrunning
            (effect_answer P s now command)
      · cases h
  | finish t =>
      simp only [ServerState.advance] at h
      split at h
      · next job hrunning => cases h; exact .finish t job hrunning
      · cases h

def serverDriver (P : Platform) : Driver (server P) Choice where
  advance s choice := s.advance P choice
  sound _ _ _ _ h := step_advance h

/-- In a scheduled run every call to Redis gets a reply. -/
theorem answer_ne_none_of_trace {P : Platform} {s s' : ServerState}
    {choices : List Choice} {t : Thread} {job : Job} {request : RedisRequest}
    {answer : Option Reply}
    (h : (s', .execute t job (.redis request) answer) ∈
      (serverDriver P).trace s choices) : answer ≠ none := by
  obtain ⟨choice, s'', hadvance⟩ := Driver.advance_of_mem_trace h
  simp only [serverDriver] at hadvance
  cases choice with
  | call t' now =>
      simp only [ServerState.advance] at hadvance
      split at hadvance
      · cases hadvance
        simp [ServerState.answer]
      · cases hadvance
  | begin i =>
      simp only [ServerState.advance] at hadvance
      split at hadvance
      · cases hadvance
      · cases hadvance
  | beginScan =>
      simp only [ServerState.advance] at hadvance
      split at hadvance
      · cases hadvance
      · cases hadvance
  | finish t' =>
      simp only [ServerState.advance] at hadvance
      split at hadvance
      · cases hadvance
      · cases hadvance
  | _ => simp [ServerState.advance] at hadvance

/-- The command that a thread issues next, and for which job. -/
def ServerState.issues (s : ServerState) (t : Thread) :
    Option (Job × Command) :=
  match s.running t with
  | some (job, .call command _) => some (job, command)
  | _ => none

/-- A thread that is about to issue a command can do so. -/
theorem exists_execute {P : Platform} {e : ServerRun P} {t : Thread}
    {job : Job} {command : Command} (now : UInt64)
    (h : e.state.issues t = some (job, command)) :
    ∃ e' : ServerRun P, Execution.Next e
      (.execute t job command (e.state.answer P now command).1) e' ∧
      e'.state = (serverDriver P).follow e.state [.call t now] ∧
      e'.history =
        ((serverDriver P).trace e.state [.call t now]).reverse ++ e.history := by
  unfold ServerState.issues at h
  split at h
  · next job' command' next hrunning =>
      rw [Option.some.injEq, Prod.mk.injEq] at h
      obtain ⟨rfl, rfl⟩ := h
      have hstep : (server P).step e.state
          (.execute t job' command' (e.state.answer P now command').1)
          ((e.state.answer P now command').2.setRunning t
            (some (job', next (e.state.answer P now command').1))) :=
        .execute t job' command' next _ _ hrunning
          (effect_answer P e.state now command')
      refine ⟨e.extend hstep, e.next_extend hstep, ?_, ?_⟩
      · simp only [Execution.extend, Driver.follow, serverDriver,
          ServerState.advance, hrunning]
      · simp only [Execution.extend, Driver.trace, serverDriver,
          ServerState.advance, hrunning]
        rfl
  · cases h

/-- The run in which nothing has happened. -/
def ServerRun.initial (P : Platform) : ServerRun P where
  history := []
  state := {}
  run := .init rfl

/-- The run along a schedule from the beginning. -/
theorem exists_run (P : Platform) (choices : List Choice) :
    ∃ e : ServerRun P, e.state = (serverDriver P).follow {} choices ∧
      e.history = ((serverDriver P).trace {} choices).reverse := by
  obtain ⟨e, -, hstate, hhistory⟩ :=
    (serverDriver P).exists_follow choices (ServerRun.initial P)
  refine ⟨e, hstate, ?_⟩
  rw [hhistory]
  exact List.append_nil _

/-! ## A concrete server -/

/-- The wire format of `Message.proto`, and connection objects one cache line
apart.  Connection 0 has worker 0, and connection 1 has worker 6. -/
def wirePlatform : Platform where
  serialize := Envelope.serializeToString
  address conn := UInt64.ofNat (64 * conn)

instance : NeZero kBusinessWorkerCount :=
  ⟨by decide⟩

/-- A worker takes its next event and issues up to `n` commands. -/
def work (i : Fin kBusinessWorkerCount) (n : ℕ) : List Choice :=
  .begin i :: List.replicate n (.call (.worker i) 1000)

/-- A worker handles its next event, which takes at most `n` commands. -/
def complete (i : Fin kBusinessWorkerCount) (n : ℕ) : List Choice :=
  work i n ++ [.finish (.worker i)]

def loginAs (uid : UInt64) : Envelope where
  type := .loginReq
  payload := some (.loginReq { uid })

def chatFrom (fromUid toUid seq : UInt64) (content clientMsgId : Bytes) :
    Envelope where
  type := .chatReq
  seq := seq
  payload := some (.chatReq { fromUid, toUid, content, clientMsgId })

def ackOf (msgId : UInt64) : Envelope where
  type := .ack
  payload := some (.ack { msgId, ok := true })

/-- User 1 is online on connection 0, and user 2 on connection 1. -/
def twoUsers : List Choice :=
  [.connect 0, .connect 1, .receive 0 (loginAs 1)] ++ complete 0 20 ++
    [.receive 1 (loginAs 2)] ++ complete 6 20

/-- The job a thread is at work on. -/
def ServerState.jobOf (s : ServerState) (t : Thread) : Option Job :=
  (s.running t).map Prod.fst

theorem ServerState.jobOf_of_running {s : ServerState} {t : Thread} {job : Job}
    {code : Handler Unit} (h : s.running t = some (job, code)) :
    s.jobOf t = some job := by
  rw [ServerState.jobOf, h]
  rfl

/-- Nothing queued and nobody at work, in a form that can be evaluated. -/
theorem ServerState.quiescent_of_idle {s : ServerState}
    (hworkers : ∀ i, s.queues i = [] ∧ s.jobOf (.worker i) = none)
    (hdelivery : s.jobOf .delivery = none) : s.Quiescent := by
  refine ⟨fun i => (hworkers i).1, ?_⟩
  rintro (i | _)
  · exact Option.map_eq_none_iff.mp (hworkers i).2
  · exact Option.map_eq_none_iff.mp hdelivery

end ReliableDelivery
