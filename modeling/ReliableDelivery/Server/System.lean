import ReliableDelivery.Server.Dispatcher
import ReliableDelivery.Store.Answers
import ReliableDelivery.Support.Interleaving

/-!
# The running server

The server as a transition system: network threads that accept connections and
queue events, the workers of the thread pool, the delivery thread, and Redis.
Each worker takes the events of its queue one after another; all threads
interleave command by command.  A call to Redis may fail, before or after the
request was executed.
-/

namespace ReliableDelivery

open Decimal Redis MessageCodec TransitionSystem

/-- What the server is given by its surroundings: `SerializeToString`, and the
addresses of the connection objects, which select the worker. -/
structure Platform where
  serialize : Envelope → Option Bytes
  address : Conn → UInt64

/-- The life of a connection: open, shut down by the server but still reading,
closed by the network library, and closed with the event queued. -/
inductive ConnPhase where
  | up
  | closing
  | closed
  | gone
  deriving DecidableEq, Repr

inductive Thread where
  | worker (i : Fin kBusinessWorkerCount)
  | delivery
  deriving DecidableEq, Repr

inductive Task where
  | event (event : ServerEvent)
  | scan
  deriving DecidableEq, Repr

/-- One run of a handler.  The number tells apart runs on equal events. -/
structure Job where
  number : ℕ
  task : Task
  deriving DecidableEq, Repr

def Job.code (job : Job) : Handler Unit :=
  match job.task with
  | .event event => handle event
  | .scan => deliveryScan

structure ServerState where
  store : StoreDb := .empty
  users : UserStateService := {}
  phase : Conn → Option ConnPhase := fun _ => none
  queues : Fin kBusinessWorkerCount → List Job := fun _ => []
  running : Thread → Option (Job × Handler Unit) := fun _ => none
  nextJob : ℕ := 0

namespace ServerState

/-- `TcpConnection::connected`. -/
def connected (s : ServerState) (conn : Conn) : Bool :=
  s.phase conn = some .up

/-- `TcpConnection::shutdown` has an effect on an open connection only. -/
def shutdown (s : ServerState) (conn : Conn) : ServerState :=
  if s.phase conn = some .up then
    { s with phase := Function.update s.phase conn (some .closing) }
  else s

/-- An envelope that cannot be encoded shuts the connection down. -/
def sendEnvelope (P : Platform) (s : ServerState) (conn : Conn)
    (envelope : Envelope) : ServerState :=
  if encode P.serialize envelope = [] then s.shutdown conn else s

/-- The mixing function of `ShardedThreadPool::submit`. -/
def mixKey (key : UInt64) : UInt64 :=
  let key := key ^^^ (key >>> 33)
  let key := key * 0xff51afd7ed558ccd
  let key := key ^^^ (key >>> 33)
  let key := key * 0xc4ceb9fe1a85ec53
  key ^^^ (key >>> 33)

def shard (P : Platform) (conn : Conn) : Fin kBusinessWorkerCount :=
  ⟨(mixKey (P.address conn)).toNat % kBusinessWorkerCount,
    Nat.mod_lt _ (by decide)⟩

/-- Queue an event with the worker of its connection. -/
def enqueue (P : Platform) (s : ServerState) (conn : Conn)
    (event : ServerEvent) : ServerState :=
  { s with
    queues := Function.update s.queues (shard P conn)
      (s.queues (shard P conn) ++ [⟨s.nextJob, .event event⟩])
    nextJob := s.nextJob + 1 }

def setRunning (s : ServerState) (t : Thread)
    (code : Option (Job × Handler Unit)) : ServerState :=
  { s with running := Function.update s.running t code }

/-- No event is queued and no thread is at work. -/
def Quiescent (s : ServerState) : Prop :=
  (∀ i, s.queues i = []) ∧ ∀ t, s.running t = none

end ServerState

/-- The effect of a command.  A failed call to Redis gets no reply; its request
was either not executed or executed all the same. -/
inductive Effect (P : Platform) (s : ServerState) :
    (command : Command) → command.Answer → ServerState → Prop where
  | redisAnswered (request : RedisRequest) :
      Effect P s (.redis request) (some (s.store.run request).1)
        { s with store := (s.store.run request).2 }
  | redisNotExecuted (request : RedisRequest) :
      Effect P s (.redis request) none s
  | redisReplyLost (request : RedisRequest) :
      Effect P s (.redis request) none
        { s with store := (s.store.run request).2 }
  | nowMs (now : UInt64) : Effect P s .nowMs now s
  | bindUser (conn : Conn) (uid now : UInt64) :
      Effect P s (.bindUser conn uid)
        (s.users.bindUser (some conn) uid now).1
        { s with users := (s.users.bindUser (some conn) uid now).2 }
  | getUidByConn (conn : Conn) :
      Effect P s (.getUidByConn conn) (s.users.getUidByConn (some conn)) s
  | getConnByUid (uid : UInt64) :
      Effect P s (.getConnByUid uid) (s.users.getConnByUid uid) s
  | updateHeartbeat (conn : Conn) (now : UInt64) :
      Effect P s (.updateHeartbeat conn) ()
        { s with users := s.users.updateHeartbeat (some conn) now }
  | removeConnection (conn : Conn) :
      Effect P s (.removeConnection conn) ()
        { s with users := s.users.removeConnection (some conn) }
  | connected (conn : Conn) :
      Effect P s (.connected conn) (s.connected conn) s
  | sendEnvelope (conn : Conn) (envelope : Envelope) :
      Effect P s (.sendEnvelope conn envelope) ()
        (s.sendEnvelope P conn envelope)

inductive ServerLabel where
  | connect (conn : Conn)
  | receive (conn : Conn) (envelope : Envelope)
  | shutdown (conn : Conn)
  | disconnect (conn : Conn)
  | notifyClosed (conn : Conn)
  | begin (t : Thread) (job : Job)
  | execute (t : Thread) (job : Job) (command : Command)
      (answer : command.Answer)
  | finish (t : Thread) (job : Job)

inductive ServerStep (P : Platform) (s : ServerState) :
    ServerLabel → ServerState → Prop where
  | connect (conn : Conn) (h : s.phase conn = none) :
      ServerStep P s (.connect conn)
        { s with phase := Function.update s.phase conn (some .up) }
  /-- A network thread hands over a decoded envelope. -/
  | receive (conn : Conn) (envelope : Envelope)
      (h : s.phase conn = some .up ∨ s.phase conn = some .closing) :
      ServerStep P s (.receive conn envelope)
        (s.enqueue P conn (.envelope conn envelope))
  /-- A network thread shuts the connection down after a decode error. -/
  | shutdown (conn : Conn) : ServerStep P s (.shutdown conn) (s.shutdown conn)
  | disconnect (conn : Conn)
      (h : s.phase conn = some .up ∨ s.phase conn = some .closing) :
      ServerStep P s (.disconnect conn)
        { s with phase := Function.update s.phase conn (some .closed) }
  | notifyClosed (conn : Conn) (h : s.phase conn = some .closed) :
      ServerStep P s (.notifyClosed conn)
        (({ s with phase := Function.update s.phase conn (some .gone) } :
          ServerState).enqueue P conn (.connectionClosed conn))
  /-- A worker takes the next event from its queue. -/
  | beginEvent (i : Fin kBusinessWorkerCount) (job : Job) (rest : List Job)
      (hidle : s.running (.worker i) = none) (hqueue : s.queues i = job :: rest) :
      ServerStep P s (.begin (.worker i) job)
        (({ s with queues := Function.update s.queues i rest } :
          ServerState).setRunning (.worker i) (some (job, job.code)))
  /-- The delivery thread wakes up. -/
  | beginScan (hidle : s.running .delivery = none) :
      ServerStep P s (.begin .delivery ⟨s.nextJob, .scan⟩)
        (({ s with nextJob := s.nextJob + 1 } : ServerState).setRunning
          .delivery (some (⟨s.nextJob, .scan⟩, deliveryScan)))
  | execute (t : Thread) (job : Job) (command : Command)
      (next : command.Answer → Handler Unit) (answer : command.Answer)
      (s' : ServerState)
      (hrunning : s.running t = some (job, .call command next))
      (heffect : Effect P s command answer s') :
      ServerStep P s (.execute t job command answer)
        (s'.setRunning t (some (job, next answer)))
  | finish (t : Thread) (job : Job)
      (hrunning : s.running t = some (job, .done ())) :
      ServerStep P s (.finish t job) (s.setRunning t none)

/-- All runs of the server. -/
def server (P : Platform) : TransitionSystem ServerState ServerLabel where
  init s := s = {}
  step := ServerStep P

abbrev ServerRun (P : Platform) := (server P).Execution

/-! ## Commands change little -/

section Effects

variable {P : Platform} {s s' : ServerState} {command : Command}
  {answer : command.Answer}

/-- No command touches the threads and their queues. -/
theorem Effect.threads (h : Effect P s command answer s') :
    s'.running = s.running ∧ s'.queues = s.queues ∧ s'.nextJob = s.nextJob := by
  cases h with
  | sendEnvelope conn envelope =>
      simp only [ServerState.sendEnvelope, ServerState.shutdown]
      split
      · split
        · exact ⟨rfl, rfl, rfl⟩
        · exact ⟨rfl, rfl, rfl⟩
      · exact ⟨rfl, rfl, rfl⟩
  | _ => exact ⟨rfl, rfl, rfl⟩

/-- The ledger changes only through an executed request. -/
theorem Effect.ledger (h : Effect P s command answer s') :
    s'.store.ledger = s.store.ledger ∨
      ∃ request, command = .redis request ∧
        s'.store.ledger = s.store.ledger.after request := by
  cases h with
  | redisAnswered request =>
      exact .inr ⟨request, rfl, StoreDb.ledger_run _ _⟩
  | redisReplyLost request =>
      exact .inr ⟨request, rfl, StoreDb.ledger_run _ _⟩
  | sendEnvelope conn envelope =>
      left
      simp only [ServerState.sendEnvelope, ServerState.shutdown]
      split
      · split
        · rfl
        · rfl
      · rfl
  | _ => exact .inl rfl

/-- The user state stays consistent. -/
theorem Effect.users (h : Effect P s command answer s')
    (hs : s.users.Consistent) : s'.users.Consistent := by
  cases h with
  | bindUser conn uid now =>
      by_cases huid : uid = 0
      · simp only [UserStateService.bindUser, huid, if_true]
        exact hs
      · exact hs.bindUser huid
  | updateHeartbeat conn now => exact hs.updateHeartbeat
  | removeConnection conn => exact hs.removeConnection
  | sendEnvelope conn envelope =>
      simp only [ServerState.sendEnvelope, ServerState.shutdown]
      split
      · split
        · exact hs
        · exact hs
      · exact hs
  | _ => exact hs

end Effects

/-! ## Steps -/

section Steps

variable {P : Platform} {s s' : ServerState} {l : ServerLabel}

/-- A step changes the ledger only by executing a request. -/
theorem ServerStep.ledger (h : ServerStep P s l s') :
    s'.store.ledger = s.store.ledger ∨
      ∃ t job request answer, l = .execute t job (.redis request) answer ∧
        s'.store.ledger = s.store.ledger.after request := by
  cases h with
  | execute t job command next answer s'' hrunning heffect =>
      rcases heffect.ledger with hsame | ⟨request, rfl, hafter⟩
      · exact .inl hsame
      · exact .inr ⟨t, job, request, answer, rfl, hafter⟩
  | shutdown conn =>
      left
      simp only [ServerState.shutdown]
      split
      · rfl
      · rfl
  | _ => exact .inl rfl

theorem ServerStep.users (h : ServerStep P s l s')
    (hs : s.users.Consistent) : s'.users.Consistent := by
  cases h with
  | execute t job command next answer s'' hrunning heffect =>
      exact heffect.users hs
  | shutdown conn =>
      simp only [ServerState.shutdown]
      split
      · exact hs
      · exact hs
  | _ => exact hs

/-- A command leaves the phases as they are, or shuts a connection down. -/
theorem Effect.phase {command : Command} {answer : command.Answer}
    (h : Effect P s command answer s') (conn : Conn) :
    s'.phase conn = s.phase conn ∨
      s.phase conn = some .up ∧ s'.phase conn = some .closing := by
  have hshutdown : ∀ conn', (s.shutdown conn').phase conn = s.phase conn ∨
      s.phase conn = some .up ∧
        (s.shutdown conn').phase conn = some .closing := by
    intro conn'
    simp only [ServerState.shutdown]
    split
    · next hup =>
        simp only [Function.update_apply]
        split
        · next heq =>
            rw [heq]
            exact .inr ⟨hup, rfl⟩
        · exact .inl rfl
    · exact .inl rfl
  cases h with
  | sendEnvelope conn' envelope =>
      simp only [ServerState.sendEnvelope]
      split
      · exact hshutdown conn'
      · exact .inl rfl
  | _ => exact .inl rfl

/-- The phase of a connection only moves forward. -/
theorem ServerStep.phase (h : ServerStep P s l s') (conn : Conn) :
    s'.phase conn = s.phase conn ∨
      (l = .connect conn ∧ s.phase conn = none) ∨
      (s.phase conn ≠ none ∧ s'.phase conn ≠ none ∧
        s'.phase conn ≠ some .up) := by
  cases h with
  | connect conn' hphase =>
      simp only [Function.update_apply]
      split
      · next heq =>
          rw [heq]
          exact .inr (.inl ⟨rfl, hphase⟩)
      · exact .inl rfl
  | shutdown conn' =>
      simp only [ServerState.shutdown]
      split
      · next hup =>
          simp only [Function.update_apply]
          split
          · next heq =>
              rw [heq, hup]
              exact .inr (.inr (by simp))
          · exact .inl rfl
      · exact .inl rfl
  | disconnect conn' hphase =>
      simp only [Function.update_apply]
      split
      · next heq =>
          rw [heq]
          refine .inr (.inr ⟨?_, by simp, by simp⟩)
          rcases hphase with hphase | hphase
          · simp [hphase]
          · simp [hphase]
      · exact .inl rfl
  | notifyClosed conn' hphase =>
      simp only [ServerState.enqueue, Function.update_apply]
      split
      · next heq =>
          rw [heq, hphase]
          exact .inr (.inr (by simp))
      · exact .inl rfl
  | execute t job command next answer s'' hrunning heffect =>
      rcases heffect.phase conn with hsame | ⟨hup, hclosing⟩
      · exact .inl hsame
      · right
        right
        simp only [ServerState.setRunning, hup, hclosing]
        simp
  | _ => exact .inl rfl

/-- A user is online where they were before, or where they have just logged
in. -/
theorem ServerStep.bound (h : ServerStep P s l s') (hs : s.users.Consistent)
    {uid : UInt64} {conn : Conn}
    (hbound : s'.users.getConnByUid uid = some conn) :
    s.users.getConnByUid uid = some conn ∨
      ∃ t job, l = .execute t job (.bindUser conn uid) true := by
  cases h with
  | execute t job command next answer s'' hrunning heffect =>
      cases heffect with
      | bindUser conn' uid' now =>
          by_cases huid : uid' = 0
          · left
            simp only [ServerState.setRunning, UserStateService.bindUser,
              if_pos huid] at hbound
            exact hbound
          · have hmoved := (hs.bindUser_uidToConn huid).mp hbound
            split at hmoved
            · next heq =>
                right
                refine ⟨t, job, ?_⟩
                rw [hmoved, heq]
                simp only [UserStateService.bindUser, if_neg huid]
            · exact .inl hmoved.1
      | removeConnection conn' =>
          left
          simp only [ServerState.setRunning,
            UserStateService.removeConnection] at hbound
          split at hbound
          · exact hbound
          · simp only [UserStateService.getConnByUid,
              UserStateService.dropOnline] at hbound
            split at hbound
            · rw [Function.update_apply] at hbound
              split at hbound
              · cases hbound
              · exact hbound
            · exact hbound
      | updateHeartbeat conn' now =>
          left
          simp only [ServerState.setRunning,
            UserStateService.updateHeartbeat] at hbound
          split at hbound
          · exact hbound
          · exact hbound
      | sendEnvelope conn' envelope =>
          left
          simp only [ServerState.setRunning, ServerState.sendEnvelope,
            ServerState.shutdown] at hbound
          split at hbound
          · split at hbound
            · exact hbound
            · exact hbound
          · exact hbound
      | _ => exact .inl hbound
  | shutdown conn' =>
      left
      simp only [ServerState.shutdown] at hbound
      split at hbound
      · exact hbound
      · exact hbound
  | _ => exact .inl hbound

/-- A user stays online until their connection is removed or logs in as another
user. -/
theorem ServerStep.unbound (h : ServerStep P s l s') (hs : s.users.Consistent)
    {uid : UInt64} {conn : Conn}
    (hbound : s.users.getConnByUid uid = some conn) :
    s'.users.getConnByUid uid ≠ none ∨
      (∃ t job, l = .execute t job (.removeConnection conn) ()) ∨
      ∃ t job uid' answer, uid' ≠ uid ∧
        l = .execute t job (.bindUser conn uid') answer := by
  have hstays : ∀ s₁ : ServerState, s₁.users.getConnByUid uid =
      s.users.getConnByUid uid → s₁.users.getConnByUid uid ≠ none := by
    intro s₁ hsame
    rw [hsame, hbound]
    exact nofun
  cases h with
  | execute t job command next answer s'' hrunning heffect =>
      cases heffect with
      | bindUser conn' uid' now =>
          by_cases hzero : uid' = 0
          · left
            apply hstays
            simp only [ServerState.setRunning, UserStateService.bindUser,
              if_pos hzero]
          · by_cases huid : uid = uid'
            · left
              have hmoved : (s.users.bindUser (some conn') uid'
                  now).2.uidToConn uid = some conn' :=
                (hs.bindUser_uidToConn hzero).mpr (by rw [if_pos huid])
              intro hnone
              cases hmoved.symm.trans hnone
            · by_cases hconn : conn = conn'
              · subst hconn
                exact .inr (.inr ⟨t, job, uid', _, Ne.symm huid, rfl⟩)
              · left
                have hsame : (s.users.bindUser (some conn') uid'
                    now).2.uidToConn uid = some conn :=
                  (hs.bindUser_uidToConn hzero).mpr (by
                    rw [if_neg huid]
                    exact ⟨hbound, hconn⟩)
                intro hnone
                cases hsame.symm.trans hnone
      | removeConnection conn' =>
          by_cases hconn : conn = conn'
          · subst hconn
            exact .inr (.inl ⟨t, job, rfl⟩)
          · left
            apply hstays
            simp only [ServerState.setRunning,
              UserStateService.removeConnection]
            split
            · rfl
            · next state hstate =>
                have hget : (s.users.connStates conn').getD {} = state := by
                  rw [hstate]
                  rfl
                rw [hbound]
                exact (hs.dropOnline_iff hget).mpr ⟨hbound, hconn⟩
      | updateHeartbeat conn' now =>
          left
          apply hstays
          simp only [ServerState.setRunning, UserStateService.updateHeartbeat]
          split
          · rfl
          · rfl
      | sendEnvelope conn' envelope =>
          left
          apply hstays
          simp only [ServerState.setRunning, ServerState.sendEnvelope,
            ServerState.shutdown]
          split
          · split
            · rfl
            · rfl
          · rfl
      | _ => exact .inl (hstays _ rfl)
  | shutdown conn' =>
      left
      apply hstays
      simp only [ServerState.shutdown]
      split
      · rfl
      · rfl
  | _ => exact .inl (hstays _ rfl)

/-- After one thread has been set, a thread runs what was set or what it ran. -/
theorem ServerState.of_setRunning {s : ServerState} {t t' : Thread}
    {set : Option (Job × Handler Unit)} {x : Job × Handler Unit}
    (h : (s.setRunning t' set).running t = some x) :
    (t = t' ∧ set = some x) ∨ (t ≠ t' ∧ s.running t = some x) := by
  simp only [ServerState.setRunning, Function.update_apply] at h
  split at h
  · next ht => exact .inl ⟨ht, h⟩
  · next ht => exact .inr ⟨ht, h⟩

/-- Setting one thread leaves the others alone. -/
theorem ServerState.setRunning_of_ne (s : ServerState) {t t' : Thread}
    (ht : t ≠ t') (set : Option (Job × Handler Unit)) :
    (s.setRunning t' set).running t = s.running t :=
  Function.update_of_ne ht _ _

/-- What one thread runs after a step. -/
theorem ServerStep.running (h : ServerStep P s l s') {t : Thread} {job : Job}
    {code : Handler Unit} (hrunning : s'.running t = some (job, code)) :
    (s.running t = some (job, code) ∧
      ∀ job' command answer, l ≠ .execute t job' command answer) ∨
      (code = job.code ∧ l = .begin t job) ∨
      ∃ command next answer, s.running t = some (job, .call command next) ∧
        l = .execute t job command answer ∧ code = next answer := by
  cases h with
  | beginEvent i job' rest hidle hqueue =>
      rcases ServerState.of_setRunning hrunning with ⟨rfl, hset⟩ | ⟨-, hold⟩
      · cases hset
        exact .inr (.inl ⟨rfl, rfl⟩)
      · exact .inl ⟨hold, by intro _ _ _ hl; cases hl⟩
  | beginScan hidle =>
      rcases ServerState.of_setRunning hrunning with ⟨rfl, hset⟩ | ⟨-, hold⟩
      · cases hset
        exact .inr (.inl ⟨rfl, rfl⟩)
      · exact .inl ⟨hold, by intro _ _ _ hl; cases hl⟩
  | execute t' job' command next answer s'' hbefore heffect =>
      rcases ServerState.of_setRunning hrunning with ⟨rfl, hset⟩ | ⟨ht, hold⟩
      · cases hset
        exact .inr (.inr ⟨command, next, answer, hbefore, rfl, rfl⟩)
      · rw [heffect.threads.1] at hold
        refine .inl ⟨hold, ?_⟩
        intro _ _ _ hl
        cases hl
        exact ht rfl
  | finish t' job' hbefore =>
      rcases ServerState.of_setRunning hrunning with ⟨-, hset⟩ | ⟨-, hold⟩
      · cases hset
      · exact .inl ⟨hold, by intro _ _ _ hl; cases hl⟩
  | shutdown conn =>
      refine .inl ⟨?_, by intro _ _ _ hl; cases hl⟩
      simp only [ServerState.shutdown] at hrunning
      split at hrunning
      · exact hrunning
      · exact hrunning
  | _ => exact .inl ⟨hrunning, by intro _ _ _ hl; cases hl⟩

/-- A thread goes on with its program, issues its next command, or is done. -/
theorem ServerStep.goesOn (h : ServerStep P s l s') {t : Thread} {job : Job}
    {code : Handler Unit} (hrunning : s.running t = some (job, code)) :
    s'.running t = some (job, code) ∨
      (∃ command next answer, code = .call command next ∧
        l = .execute t job command answer ∧
        s'.running t = some (job, next answer)) ∨
      code = .done () ∧ l = .finish t job := by
  have hbusy : ∀ {t'}, s.running t' = none → t ≠ t' := by
    rintro t' hidle rfl
    rw [hidle] at hrunning
    cases hrunning
  cases h with
  | beginEvent i job' rest hidle hqueue =>
      left
      rw [ServerState.setRunning_of_ne _ (hbusy hidle)]
      exact hrunning
  | beginScan hidle =>
      left
      rw [ServerState.setRunning_of_ne _ (hbusy hidle)]
      exact hrunning
  | execute t' job' command next answer s'' hbefore heffect =>
      simp only [ServerState.setRunning, Function.update_apply]
      split
      · next ht =>
          rw [ht, hbefore, Option.some.injEq, Prod.mk.injEq] at hrunning
          obtain ⟨rfl, rfl⟩ := hrunning
          rw [ht]
          exact .inr (.inl ⟨command, next, answer, rfl, rfl, rfl⟩)
      · left
        rw [heffect.threads.1]
        exact hrunning
  | finish t' job' hbefore =>
      simp only [ServerState.setRunning, Function.update_apply]
      split
      · next ht =>
          rw [ht, hbefore, Option.some.injEq, Prod.mk.injEq] at hrunning
          refine .inr (.inr ⟨hrunning.2.symm, ?_⟩)
          rw [ht, hrunning.1]
      · exact .inl hrunning
  | shutdown conn =>
      left
      simp only [ServerState.shutdown]
      split
      · exact hrunning
      · exact hrunning
  | _ => exact .inl hrunning

/-- A command is issued by a thread whose program calls it. -/
theorem ServerStep.execute_inv {t : Thread} {job : Job} {command : Command}
    {answer : command.Answer}
    (h : ServerStep P s (.execute t job command answer) s') :
    ∃ next s'', s.running t = some (job, .call command next) ∧
      Effect P s command answer s'' ∧
      s' = s''.setRunning t (some (job, next answer)) := by
  cases h with
  | execute _ _ _ next _ s'' hrunning heffect =>
      exact ⟨next, s'', hrunning, heffect, rfl⟩

/-- A thread finishes a job whose program has returned, and is idle then. -/
theorem ServerStep.finish_inv {t : Thread} {job : Job}
    (h : ServerStep P s (.finish t job) s') :
    s.running t = some (job, .done ()) ∧ s'.running t = none := by
  cases h with
  | finish _ _ hrunning =>
      refine ⟨hrunning, ?_⟩
      simp only [ServerState.setRunning, Function.update_self]

/-- Envelopes come over connections that were opened. -/
theorem ServerStep.phase_of_receive {conn : Conn} {envelope : Envelope}
    (h : ServerStep P s (.receive conn envelope) s') : s.phase conn ≠ none := by
  cases h with
  | receive _ _ hphase =>
      rcases hphase with hphase | hphase
      · simp [hphase]
      · simp [hphase]

end Steps

/-! ## Jobs and their threads -/

def ServerEvent.conn : ServerEvent → Conn
  | .envelope conn _ => conn
  | .connectionClosed conn => conn

/-- The thread on which a job runs.  All events of one connection have the same
worker. -/
def Job.thread (P : Platform) (job : Job) : Thread :=
  match job.task with
  | .event event => .worker (ServerState.shard P event.conn)
  | .scan => .delivery

/-- Jobs are queued and running where they belong. -/
structure ServerState.Assigned (P : Platform) (s : ServerState) : Prop where
  queued : ∀ i, ∀ job ∈ s.queues i, job.thread P = .worker i
  running : ∀ t job code, s.running t = some (job, code) → job.thread P = t

theorem ServerState.Assigned.enqueue {P : Platform} {s : ServerState}
    (h : s.Assigned P) (event : ServerEvent) :
    (s.enqueue P event.conn event).Assigned P := by
  refine ⟨?_, h.running⟩
  intro i job hjob
  simp only [ServerState.enqueue, Function.update_apply] at hjob
  split at hjob
  · next hi =>
      rw [List.mem_append, List.mem_singleton] at hjob
      rcases hjob with hjob | rfl
      · rw [hi]
        exact h.queued _ job hjob
      · rw [hi]
        rfl
  · exact h.queued i job hjob

/-- A thread goes on with a job of its own. -/
theorem ServerState.Assigned.setRunning {P : Platform} {s : ServerState}
    (h : s.Assigned P) (t : Thread) (code : Option (Job × Handler Unit))
    (hcode : ∀ job p, code = some (job, p) → job.thread P = t) :
    (s.setRunning t code).Assigned P := by
  refine ⟨h.queued, ?_⟩
  intro t' job p hrunning
  rcases ServerState.of_setRunning hrunning with ⟨rfl, hset⟩ | ⟨-, hold⟩
  · exact hcode job p hset
  · exact h.running t' job p hold

theorem ServerStep.assigned {P : Platform} {s s' : ServerState}
    {l : ServerLabel} (h : ServerStep P s l s') (hs : s.Assigned P) :
    s'.Assigned P := by
  cases h with
  | receive conn envelope hphase => exact hs.enqueue (.envelope conn envelope)
  | notifyClosed conn hphase =>
      have hclosed : ({ s with
          phase := Function.update s.phase conn (some .gone) } :
            ServerState).Assigned P := ⟨hs.queued, hs.running⟩
      exact hclosed.enqueue (.connectionClosed conn)
  | shutdown conn =>
      simp only [ServerState.shutdown]
      split
      · exact ⟨hs.queued, hs.running⟩
      · exact hs
  | beginEvent i job rest hidle hqueue =>
      have hjobs : ∀ job' ∈ s.queues i, job'.thread P = .worker i :=
        hs.queued i
      rw [hqueue] at hjobs
      have hrest : ({ s with queues := Function.update s.queues i rest } :
          ServerState).Assigned P := by
        refine ⟨?_, hs.running⟩
        intro j job' hjob'
        simp only [Function.update_apply] at hjob'
        split at hjob'
        · next hj =>
            rw [hj]
            exact hjobs job' (List.mem_cons_of_mem job hjob')
        · exact hs.queued j job' hjob'
      apply hrest.setRunning
      intro job' p hjob'
      rw [Option.some.injEq, Prod.mk.injEq] at hjob'
      rw [← hjob'.1]
      exact hjobs job List.mem_cons_self
  | beginScan hidle =>
      have hnumber : ({ s with nextJob := s.nextJob + 1 } :
          ServerState).Assigned P := ⟨hs.queued, hs.running⟩
      apply hnumber.setRunning
      intro job' p hjob'
      rw [Option.some.injEq, Prod.mk.injEq] at hjob'
      rw [← hjob'.1]
      rfl
  | execute t job command next answer s'' hrunning heffect =>
      obtain ⟨hthreads, hqueues, -⟩ := heffect.threads
      have hafter : s''.Assigned P := by
        refine ⟨?_, ?_⟩
        · rw [hqueues]
          exact hs.queued
        · rw [hthreads]
          exact hs.running
      apply hafter.setRunning
      intro job' p hjob'
      rw [Option.some.injEq, Prod.mk.injEq] at hjob'
      rw [← hjob'.1]
      exact hs.running t job _ hrunning
  | finish t job hrunning =>
      apply hs.setRunning
      intro job' p hjob'
      cases hjob'
  | _ => exact ⟨hs.queued, hs.running⟩

theorem ServerRun.assigned {P : Platform} (e : ServerRun P) :
    e.state.Assigned P := by
  apply Execution.induct (P := fun e : ServerRun P => e.state.Assigned P)
  · intro e _ hinit
    have hs : e.state = {} := hinit
    rw [hs]
    refine ⟨?_, ?_⟩
    · intro i job hjob
      cases hjob
    · intro t job code hrunning
      cases hrunning
  · intro e e' l hassigned hnext
    exact ServerStep.assigned hnext.1 hassigned

/-- The job is queued or running. -/
def ServerState.Has (s : ServerState) (job : Job) : Prop :=
  (∃ i, job ∈ s.queues i) ∨ ∃ t code, s.running t = some (job, code)

theorem ServerState.has_enqueue {P : Platform} {s : ServerState} {conn : Conn}
    {event : ServerEvent} {job : Job} (h : (s.enqueue P conn event).Has job) :
    s.Has job ∨ job.task = .event event := by
  rcases h with ⟨i, hjob⟩ | hrunning
  · simp only [ServerState.enqueue, Function.update_apply] at hjob
    split at hjob
    · rw [List.mem_append, List.mem_singleton] at hjob
      rcases hjob with hjob | rfl
      · exact .inl (.inl ⟨_, hjob⟩)
      · exact .inr rfl
    · exact .inl (.inl ⟨i, hjob⟩)
  · exact .inl (.inr hrunning)

/-- A job on an envelope comes into being when the envelope is received. -/
theorem ServerStep.has {P : Platform} {s s' : ServerState} {l : ServerLabel}
    (h : ServerStep P s l s') {job : Job} {conn : Conn} {envelope : Envelope}
    (htask : job.task = .event (.envelope conn envelope))
    (hjob : s'.Has job) : s.Has job ∨ l = .receive conn envelope := by
  have hqueued : ∀ i rest job', s.queues i = job' :: rest →
      (∃ j, job ∈ Function.update s.queues i rest j) → s.Has job := by
    rintro i rest job' hqueue ⟨j, hj⟩
    rw [Function.update_apply] at hj
    split at hj
    · refine .inl ⟨i, ?_⟩
      rw [hqueue]
      exact List.mem_cons_of_mem job' hj
    · exact .inl ⟨j, hj⟩
  cases h with
  | receive conn' envelope' hphase =>
      rcases ServerState.has_enqueue hjob with hold | hnew
      · exact .inl hold
      · rw [hnew] at htask
        cases htask
        exact .inr rfl
  | notifyClosed conn' hphase =>
      rcases ServerState.has_enqueue hjob with hold | hnew
      · exact .inl hold
      · rw [hnew] at htask
        cases htask
  | shutdown conn' =>
      left
      simp only [ServerState.shutdown] at hjob
      split at hjob
      · exact hjob
      · exact hjob
  | beginEvent i job' rest hidle hqueue =>
      left
      rcases hjob with hjob | ⟨t, code, hrunning⟩
      · exact hqueued i rest job' hqueue hjob
      · rcases ServerState.of_setRunning hrunning with ⟨-, hset⟩ | ⟨-, hold⟩
        · cases hset
          refine .inl ⟨i, ?_⟩
          rw [hqueue]
          exact List.mem_cons_self
        · exact .inr ⟨t, code, hold⟩
  | beginScan hidle =>
      left
      rcases hjob with hjob | ⟨t, code, hrunning⟩
      · exact .inl hjob
      · rcases ServerState.of_setRunning hrunning with ⟨-, hset⟩ | ⟨-, hold⟩
        · cases hset
          cases htask
        · exact .inr ⟨t, code, hold⟩
  | execute t' job' command next answer s'' hbefore heffect =>
      left
      obtain ⟨hthreads, hqueues, -⟩ := heffect.threads
      rcases hjob with ⟨i, hjob⟩ | ⟨t, code, hrunning⟩
      · refine .inl ⟨i, ?_⟩
        rw [← hqueues]
        exact hjob
      · rcases ServerState.of_setRunning hrunning with ⟨-, hset⟩ | ⟨-, hold⟩
        · cases hset
          exact .inr ⟨t', _, hbefore⟩
        · rw [hthreads] at hold
          exact .inr ⟨t, code, hold⟩
  | finish t' job' hbefore =>
      left
      rcases hjob with hjob | ⟨t, code, hrunning⟩
      · exact .inl hjob
      · rcases ServerState.of_setRunning hrunning with ⟨-, hset⟩ | ⟨-, hold⟩
        · cases hset
        · exact .inr ⟨t, code, hold⟩
  | _ => exact .inl hjob

/-- In the run so far, the envelope was received on the connection. -/
def Received {P : Platform} (e : ServerRun P) (conn : Conn)
    (envelope : Envelope) : Prop :=
  ∃ s, (s, .receive conn envelope) ∈ e.history

theorem Received.mono {P : Platform} {e e' : ServerRun P} {conn : Conn}
    {envelope : Envelope} (h : Received e conn envelope)
    (hlater : Execution.Later e e') : Received e' conn envelope := by
  obtain ⟨s, hs⟩ := h
  exact ⟨s, hlater.mem_history hs⟩

/-- What is being handled was received. -/
theorem ServerRun.received {P : Platform} (e : ServerRun P) {job : Job}
    {conn : Conn} {envelope : Envelope}
    (htask : job.task = .event (.envelope conn envelope))
    (hjob : e.state.Has job) : Received e conn envelope := by
  revert hjob
  apply Execution.induct (P := fun e : ServerRun P =>
    e.state.Has job → Received e conn envelope)
  · intro e _ hinit hjob
    have hs : e.state = {} := hinit
    rw [hs] at hjob
    rcases hjob with ⟨i, hjob⟩ | ⟨t, code, hrunning⟩
    · cases hjob
    · cases hrunning
  · intro e e' l ih hnext hjob
    rcases ServerStep.has hnext.1 htask hjob with hold | rfl
    · exact (ih hold).mono hnext.later
    · exact ⟨e.state, hnext.mem_history⟩

/-- The command issued under a label, and by which job. -/
def ServerLabel.action :
    ServerLabel → Option (Job × Σ command : Command, command.Answer)
  | .execute _ job command answer => some (job, ⟨command, answer⟩)
  | _ => none

theorem ServerLabel.action_eq_some {l : ServerLabel} {job : Job}
    {a : Σ command : Command, command.Answer} :
    l.action = some (job, a) ↔ ∃ t, l = .execute t job a.1 a.2 := by
  constructor
  · intro h
    cases l with
    | execute t job' command answer =>
        simp only [ServerLabel.action, Option.some.injEq, Prod.mk.injEq] at h
        obtain ⟨rfl, rfl⟩ := h
        exact ⟨t, rfl⟩
    | _ => cases h
  · rintro ⟨t, rfl⟩
    rfl

/-- The threads of the server as a pool. -/
def serverThreads (P : Platform) :
    ThreadPool (server P) Thread Job Command Command.Answer where
  running s := s.running
  code := Job.code
  action := ServerLabel.action
  begins l job := ∃ t, l = .begin t job
  initIdle s hinit t := by
    have hs : s = {} := hinit
    rw [hs]
  stepCases s l s' t job code hstep hrunning := by
    rcases hstep.running hrunning with
      ⟨hsame, hother⟩ | ⟨hcode, hl⟩ |
      ⟨command, next, answer, hbefore, hl, hcode⟩
    · refine .inl ⟨hsame, ?_⟩
      intro a ha
      obtain ⟨t', rfl⟩ := ServerLabel.action_eq_some.mp ha
      have hexecute : ServerStep P s (.execute t' job a.1 a.2) s' := hstep
      obtain ⟨next, -, hrunning', -, -⟩ := hexecute.execute_inv
      refine ⟨t', _, ?_, hrunning'⟩
      rintro rfl
      exact hother job a.1 a.2 rfl
    · exact .inr (.inl ⟨⟨t, hl⟩, hcode⟩)
    · refine .inr (.inr ⟨command, next, answer, hbefore, ?_, hcode⟩)
      exact ServerLabel.action_eq_some.mpr ⟨t, hl⟩
  distinct e t t' job code code' hrunning hrunning' := by
    have hassigned : e.state.Assigned P := ServerRun.assigned e
    rw [← hassigned.running t job code hrunning,
      ← hassigned.running t' job code' hrunning']

theorem performs_iff {P : Platform} {l : ServerLabel} {job : Job}
    {command : Command} {answer : command.Answer} :
    (serverThreads P).performs l job command answer ↔
      ∃ t, l = .execute t job command answer :=
  ServerLabel.action_eq_some

namespace ServerRun

variable {P : Platform}

/-- The ledger at the end of a run. -/
noncomputable def ledger (e : ServerRun P) : Ledger :=
  e.state.store.ledger

theorem represents (e : ServerRun P) :
    Represents (entriesOf e.state.store.db) e.ledger :=
  e.state.store.represents_ledger

/-- One step of a run changes the ledger only by executing a request. -/
theorem ledger_next {e e' : ServerRun P} {l : ServerLabel}
    (h : Execution.Next e l e') :
    ledger e' = ledger e ∨
      ∃ t job request answer, l = .execute t job (.redis request) answer ∧
        ledger e' = (ledger e).after request :=
  ServerStep.ledger h.1

theorem extends_later {e e' : ServerRun P} (h : Execution.Later e e') :
    (ledger e).Extends (ledger e') := by
  apply h.preserves (P := fun e' => (ledger e).Extends (ledger e'))
  · exact Ledger.Extends.refl _
  · intro e₁ e₂ l hextends hnext
    rcases ledger_next hnext with hsame | ⟨t, job, request, answer, -, hafter⟩
    · rw [hsame]
      exact hextends
    · rw [hafter]
      exact hextends.trans (Ledger.extends_after _ _)

/-- The user tables agree in every run. -/
theorem users_consistent (e : ServerRun P) : e.state.users.Consistent := by
  apply Execution.induct (P := fun e : ServerRun P => e.state.users.Consistent)
  · intro e _ hinit
    have hs : e.state = {} := hinit
    rw [hs]
    exact UserStateService.consistent_empty
  · intro e e' l hconsistent hnext
    exact ServerStep.users hnext.1 hconsistent

/-- Induction over a run in which the user is online on the connection now: what
the login establishes and every later step preserves holds. -/
theorem bound_induct {uid : UInt64} {conn : Conn} {Q : ServerRun P → Prop}
    (hlogin : ∀ (e e' : ServerRun P) t job,
      Execution.Next e (.execute t job (.bindUser conn uid) true) e' → Q e')
    (hnext : ∀ (e e' : ServerRun P) l, Q e → Execution.Next e l e' → Q e')
    (e : ServerRun P) (hbound : e.state.users.getConnByUid uid = some conn) :
    Q e := by
  revert hbound
  apply Execution.induct (P := fun e : ServerRun P =>
    e.state.users.getConnByUid uid = some conn → Q e)
  · intro e _ hinit hbound
    have hs : e.state = {} := hinit
    rw [hs] at hbound
    cases hbound
  · intro e e' l ih hstep hbound
    rcases ServerStep.bound hstep.1 (users_consistent e) hbound with
      hold | ⟨t, job, rfl⟩
    · exact hnext e e' l (ih hold) hstep
    · exact hlogin e e' t job hstep

end ServerRun

end ReliableDelivery
