import ReliableDelivery.Client.Client
import ReliableDelivery.Server.System

/-!
# The client process

A process with any number of clients as a transition system.  Any thread of the
process may call `startClient`, `sendMessage` and `stopClient`; each client has
a receiving thread and a retry thread of its own.  All threads interleave
command by command.
-/

namespace ReliableDelivery

open Decimal MessageCodec TransitionSystem

/-- The retry thread of a client: not there yet, started, at work. -/
inductive RetryThread where
  | absent
  | ready
  | taken
  deriving DecidableEq, Repr

structure ClientState where
  started : Bool := false
  stop : Bool := false
  loginDone : Bool := false
  loginOk : Bool := false
  pendingAcks : PendingAcks := ∅
  messageQueue : List Envelope := []
  receiving : Bool := false
  retryThread : RetryThread := .absent

inductive ClientThread where
  | caller (n : ℕ)
  | receiver (client : Conn)
  | retry (client : Conn)
  deriving DecidableEq, Repr

inductive ClientTask where
  | start
  | stop
  | send (toUid : UInt64) (content : Bytes)
  | handle (envelope : Envelope)
  | lost
  | retry (rounds : ℕ)
  deriving DecidableEq, Repr

/-- One call on a client, or one piece of work of its threads.  The number tells
apart equal calls. -/
structure ClientJob where
  number : ℕ
  client : Conn
  uid : UInt64
  task : ClientTask
  deriving DecidableEq, Repr

/-- A call ends by returning its result to the caller. -/
def ClientJob.code (job : ClientJob) : ClientProgram Unit :=
  match job.task with
  | .start => do
      let ok ← Client.startClient job.client job.uid
      Program.perform (ClientCommand.returns ok)
  | .stop => Client.stopClient job.client
  | .send toUid content => do
      let ok ← Client.sendMessage job.client job.uid toUid content
      Program.perform (ClientCommand.returns ok)
  | .handle envelope => Client.handleEnvelope job.client envelope
  | .lost => Client.connectionLost job.client
  | .retry rounds => Client.retryLoop job.client rounds

structure ProcessState where
  clients : Conn → ClientState := fun _ => {}
  counters : Counter → ℕ := Counter.start
  running : ClientThread → Option (ClientJob × ClientProgram Unit) :=
    fun _ => none
  nextJob : ℕ := 0

namespace ProcessState

def modify (s : ProcessState) (client : Conn)
    (change : ClientState → ClientState) : ProcessState :=
  { s with clients :=
      Function.update s.clients client (change (s.clients client)) }

def setRunning (s : ProcessState) (t : ClientThread)
    (code : Option (ClientJob × ClientProgram Unit)) : ProcessState :=
  { s with running := Function.update s.running t code }

/-- The requests of a client that wait for their acknowledgement. -/
def pendingAcks (s : ProcessState) (client : Conn) : PendingAcks :=
  (s.clients client).pendingAcks

/-- Whether the thread may take the job: a client is started once, and its own
threads have to be there. -/
def ready (s : ProcessState) (t : ClientThread) (job : ClientJob) : Bool :=
  match job.task, t with
  | .start, .caller _ => !(s.clients job.client).started
  | .stop, .caller _ => true
  | .send _ _, .caller _ => true
  | .handle _, .receiver client =>
      client = job.client && (s.clients client).receiving
  | .lost, .receiver client =>
      client = job.client && (s.clients client).receiving
  | .retry _, .retry client =>
      client = job.client && (s.clients client).retryThread = .ready
  | _, _ => false

/-- The state in which the job has been taken. -/
def taken (s : ProcessState) (job : ClientJob) : ProcessState :=
  let s := { s with nextJob := s.nextJob + 1 }
  match job.task with
  | .start => s.modify job.client fun c => { c with started := true }
  | .retry _ => s.modify job.client fun c => { c with retryThread := .taken }
  | _ => s

end ProcessState

/-- The effect of a command.  Writing to the socket may fail at any time.  The
order in which a scan comes to the entries is unspecified.  The counters stay
within 64 bits, as they do in any process that does not live to make `2 ^ 64`
calls. -/
inductive ClientEffect (P : Platform) (s : ProcessState) :
    (command : ClientCommand) → command.Answer → ProcessState → Prop where
  | nowMs (now : UInt64) : ClientEffect P s .nowMs now s
  | stopped (client : Conn) :
      ClientEffect P s (.stopped client) (s.clients client).stop s
  | setStop (client : Conn) :
      ClientEffect P s (.setStop client) ()
        (s.modify client fun c => { c with stop := true })
  | loginOk (client : Conn) :
      ClientEffect P s (.loginOk client) (s.clients client).loginOk s
  | handleLogin (client : Conn) (ok : Bool) :
      ClientEffect P s (.handleLogin client ok) ()
        (s.modify client fun c => { c with loginDone := true, loginOk := ok })
  | failPendingLogin (client : Conn) :
      ClientEffect P s (.failPendingLogin client) ()
        (s.modify client fun c =>
          if c.loginDone then c
          else { c with loginDone := true, loginOk := false })
  | waitLogin (client : Conn) :
      ClientEffect P s (.waitLogin client)
        ((s.clients client).loginDone && (s.clients client).loginOk) s
  | fetchAdd (counter : Counter) (h : s.counters counter < 2 ^ 64) :
      ClientEffect P s (.fetchAdd counter)
        (UInt64.ofNat (s.counters counter))
        { s with counters :=
            Function.update s.counters counter (s.counters counter + 1) }
  | register (client : Conn) (seq : UInt64) (envelope : Envelope)
      (now : UInt64) :
      ClientEffect P s (.register client seq envelope) now
        (s.modify client fun c => { c with
          pendingAcks := c.pendingAcks.insert seq
            { envelope, lastSendMs := now, retryCount := 0 } })
  | erase (client : Conn) (seq : UInt64) :
      ClientEffect P s (.erase client seq) ()
        (s.modify client fun c => { c with
          pendingAcks := c.pendingAcks.erase seq })
  | scan (client : Conn) (now : UInt64) (messages : List Envelope)
      (h : messages.Perm (PendingAcks.scan now (s.pendingAcks client)).2) :
      ClientEffect P s (.scan client now) messages
        (s.modify client fun c => { c with
          pendingAcks := (PendingAcks.scan now c.pendingAcks).1 })
  | pushMessage (client : Conn) (envelope : Envelope) :
      ClientEffect P s (.pushMessage client envelope) ()
        (s.modify client fun c => { c with
          messageQueue := c.messageQueue ++ [envelope] })
  | sendEnvelope (client : Conn) (envelope : Envelope) (sent : Bool)
      (h : sent = true → encode P.serialize envelope ≠ []) :
      ClientEffect P s (.sendEnvelope client envelope) sent s
  | connectServer (client : Conn) (connected : Bool) :
      ClientEffect P s (.connectServer client) connected s
  | startReceiver (client : Conn) :
      ClientEffect P s (.startReceiver client) ()
        (s.modify client fun c => { c with receiving := true })
  | startRetry (client : Conn) :
      ClientEffect P s (.startRetry client) ()
        (s.modify client fun c =>
          if c.retryThread = .absent then { c with retryThread := .ready }
          else c)
  | returns (ok : Bool) : ClientEffect P s (.returns ok) () s

inductive ProcessLabel where
  | begin (t : ClientThread) (job : ClientJob)
  | execute (t : ClientThread) (job : ClientJob) (command : ClientCommand)
      (answer : command.Answer)
  | finish (t : ClientThread) (job : ClientJob)

/-- The users of the clients of a process.  The other connections of the server
belong to others. -/
abbrev Sessions := Conn → Option UInt64

inductive ProcessStep (P : Platform) (S : Sessions) (s : ProcessState) :
    ProcessLabel → ProcessState → Prop where
  | begin (t : ClientThread) (job : ClientJob)
      (hsession : S job.client = some job.uid)
      (hnumber : job.number = s.nextJob) (hidle : s.running t = none)
      (hready : s.ready t job = true) :
      ProcessStep P S s (.begin t job)
        ((s.taken job).setRunning t (some (job, job.code)))
  | execute (t : ClientThread) (job : ClientJob) (command : ClientCommand)
      (next : command.Answer → ClientProgram Unit) (answer : command.Answer)
      (s' : ProcessState)
      (hrunning : s.running t = some (job, .call command next))
      (heffect : ClientEffect P s command answer s') :
      ProcessStep P S s (.execute t job command answer)
        (s'.setRunning t (some (job, next answer)))
  | finish (t : ClientThread) (job : ClientJob)
      (hrunning : s.running t = some (job, .done ())) :
      ProcessStep P S s (.finish t job) (s.setRunning t none)

/-- All runs of the client process. -/
def process (P : Platform) (S : Sessions) :
    TransitionSystem ProcessState ProcessLabel where
  init s := s = {}
  step := ProcessStep P S

abbrev ProcessRun (P : Platform) (S : Sessions) := (process P S).Execution

/-! ## Threads and jobs -/

@[simp] theorem ProcessState.modify_running (s : ProcessState) (client : Conn)
    (change : ClientState → ClientState) :
    (s.modify client change).running = s.running :=
  rfl

@[simp] theorem ProcessState.modify_nextJob (s : ProcessState) (client : Conn)
    (change : ClientState → ClientState) :
    (s.modify client change).nextJob = s.nextJob :=
  rfl

@[simp] theorem ProcessState.taken_running (s : ProcessState)
    (job : ClientJob) : (s.taken job).running = s.running := by
  unfold ProcessState.taken
  split <;> rfl

@[simp] theorem ProcessState.taken_nextJob (s : ProcessState)
    (job : ClientJob) : (s.taken job).nextJob = s.nextJob + 1 := by
  unfold ProcessState.taken
  split <;> rfl

section Steps

variable {P : Platform} {S : Sessions} {s s' : ProcessState}

/-- No command touches the threads. -/
theorem ClientEffect.threads {command : ClientCommand}
    {answer : command.Answer} (h : ClientEffect P s command answer s') :
    s'.running = s.running ∧ s'.nextJob = s.nextJob := by
  cases h with
  | _ => exact ⟨rfl, rfl⟩

theorem ProcessStep.execute_inv {t : ClientThread} {job : ClientJob}
    {command : ClientCommand} {answer : command.Answer}
    (h : ProcessStep P S s (.execute t job command answer) s') :
    ∃ next s'', s.running t = some (job, .call command next) ∧
      ClientEffect P s command answer s'' ∧
      s' = s''.setRunning t (some (job, next answer)) := by
  cases h with
  | execute _ _ _ next _ s'' hrunning heffect =>
      exact ⟨next, s'', hrunning, heffect, rfl⟩

theorem ProcessStep.begin_inv {t : ClientThread} {job : ClientJob}
    (h : ProcessStep P S s (.begin t job) s') :
    S job.client = some job.uid ∧ job.number = s.nextJob ∧
      s.running t = none ∧ s.ready t job = true ∧
      s' = (s.taken job).setRunning t (some (job, job.code)) := by
  cases h with
  | begin _ _ hsession hnumber hidle hready =>
      exact ⟨hsession, hnumber, hidle, hready, rfl⟩

theorem ProcessStep.nextJob_le {l : ProcessLabel}
    (h : ProcessStep P S s l s') : s.nextJob ≤ s'.nextJob := by
  cases h with
  | begin t job hsession hnumber hidle hready =>
      simp [ProcessState.setRunning]
  | execute t job command next answer s'' hrunning heffect =>
      exact heffect.threads.2.ge
  | finish t job hrunning => exact le_refl _

/-- After one thread has been set, a thread runs what was set or what it ran. -/
theorem ProcessState.of_setRunning {s : ProcessState} {t t' : ClientThread}
    {set : Option (ClientJob × ClientProgram Unit)}
    {x : ClientJob × ClientProgram Unit}
    (h : (s.setRunning t' set).running t = some x) :
    (t = t' ∧ set = some x) ∨ (t ≠ t' ∧ s.running t = some x) := by
  simp only [ProcessState.setRunning, Function.update_apply] at h
  split at h
  · next ht => exact .inl ⟨ht, h⟩
  · next ht => exact .inr ⟨ht, h⟩

/-- What one thread runs after a step. -/
theorem ProcessStep.running {l : ProcessLabel} (h : ProcessStep P S s l s')
    {t : ClientThread} {job : ClientJob} {code : ClientProgram Unit}
    (hrunning : s'.running t = some (job, code)) :
    (s.running t = some (job, code) ∧
      ∀ job' command answer, l ≠ .execute t job' command answer) ∨
      (code = job.code ∧ l = .begin t job) ∨
      ∃ command next answer, s.running t = some (job, .call command next) ∧
        l = .execute t job command answer ∧ code = next answer := by
  cases h with
  | begin t' job' hsession hnumber hidle hready =>
      rcases ProcessState.of_setRunning hrunning with ⟨rfl, hset⟩ | ⟨-, hold⟩
      · cases hset
        exact .inr (.inl ⟨rfl, rfl⟩)
      · rw [ProcessState.taken_running] at hold
        exact .inl ⟨hold, by intro _ _ _ hl; cases hl⟩
  | execute t' job' command next answer s'' hbefore heffect =>
      rcases ProcessState.of_setRunning hrunning with ⟨rfl, hset⟩ | ⟨ht, hold⟩
      · cases hset
        exact .inr (.inr ⟨command, next, answer, hbefore, rfl, rfl⟩)
      · rw [heffect.threads.1] at hold
        refine .inl ⟨hold, ?_⟩
        intro _ _ _ hl
        cases hl
        exact ht rfl
  | finish t' job' hbefore =>
      rcases ProcessState.of_setRunning hrunning with ⟨-, hset⟩ | ⟨-, hold⟩
      · cases hset
      · exact .inl ⟨hold, by intro _ _ _ hl; cases hl⟩

end Steps

/-- Running jobs have been numbered, and no number is given twice. -/
structure ProcessState.Numbered (s : ProcessState) : Prop where
  below : ∀ t job code, s.running t = some (job, code) → job.number < s.nextJob
  distinct : ∀ t t' job code code', s.running t = some (job, code) →
    s.running t' = some (job, code') → t = t'

theorem ProcessStep.numbered {P : Platform} {S : Sessions}
    {s s' : ProcessState} {l : ProcessLabel} (h : ProcessStep P S s l s')
    (hs : s.Numbered) : s'.Numbered := by
  have hbefore : ∀ t job code, s'.running t = some (job, code) →
      (∃ code', s.running t = some (job, code')) ∨
        l = .begin t job ∧ job.number = s.nextJob ∧
          s'.nextJob = s.nextJob + 1 := by
    intro t job code hrunning
    rcases h.running hrunning with
      ⟨hsame, -⟩ | ⟨-, rfl⟩ | ⟨command, next, answer, hcalling, -, -⟩
    · exact .inl ⟨code, hsame⟩
    · obtain ⟨-, hnumber, -, -, hstate⟩ := h.begin_inv
      refine .inr ⟨rfl, hnumber, ?_⟩
      rw [hstate]
      exact s.taken_nextJob job
    · exact .inl ⟨_, hcalling⟩
  have hgrows : s.nextJob ≤ s'.nextJob := h.nextJob_le
  refine ⟨?_, ?_⟩
  · intro t job code hrunning
    rcases hbefore t job code hrunning with ⟨code', hold⟩ | ⟨-, hnumber, hnew⟩
    · exact (hs.below t job code' hold).trans_le hgrows
    · omega
  · intro t t' job code code' hrunning hrunning'
    rcases hbefore t job code hrunning with ⟨c, hold⟩ | ⟨hl, hnumber, -⟩
    · rcases hbefore t' job code' hrunning' with ⟨c', hold'⟩ | ⟨-, hnumber, -⟩
      · exact hs.distinct t t' job c c' hold hold'
      · have hbelow := hs.below t job c hold
        omega
    · rcases hbefore t' job code' hrunning' with ⟨c', hold'⟩ | ⟨hl', -, -⟩
      · have hbelow := hs.below t' job c' hold'
        omega
      · rw [hl] at hl'
        cases hl'
        rfl

namespace ProcessRun

variable {P : Platform} {S : Sessions}

theorem numbered (e : ProcessRun P S) : e.state.Numbered := by
  apply Execution.induct (P := fun e : ProcessRun P S => e.state.Numbered)
  · intro e _ hinit
    have hs : e.state = {} := hinit
    rw [hs]
    refine ⟨?_, ?_⟩
    · intro t job code hrunning
      cases hrunning
    · intro t t' job code code' hrunning
      cases hrunning
  · intro e e' l hnumbered hnext
    exact ProcessStep.numbered hnext.1 hnumbered

end ProcessRun

/-- The command issued under a label, and by which job. -/
def ProcessLabel.action : ProcessLabel →
    Option (ClientJob × Σ command : ClientCommand, command.Answer)
  | .execute _ job command answer => some (job, ⟨command, answer⟩)
  | _ => none

theorem ProcessLabel.action_eq_some {l : ProcessLabel} {job : ClientJob}
    {a : Σ command : ClientCommand, command.Answer} :
    l.action = some (job, a) ↔ ∃ t, l = .execute t job a.1 a.2 := by
  constructor
  · intro h
    cases l with
    | execute t job' command answer =>
        simp only [ProcessLabel.action, Option.some.injEq, Prod.mk.injEq] at h
        obtain ⟨rfl, rfl⟩ := h
        exact ⟨t, rfl⟩
    | _ => cases h
  · rintro ⟨t, rfl⟩
    rfl

/-- The threads of the process as a pool. -/
def clientThreads (P : Platform) (S : Sessions) :
    ThreadPool (process P S) ClientThread ClientJob ClientCommand
      ClientCommand.Answer where
  running s := s.running
  code := ClientJob.code
  action := ProcessLabel.action
  begins l job := ∃ t, l = .begin t job
  initIdle s hinit t := by
    have hs : s = {} := hinit
    rw [hs]
  stepCases s l s' t job code hstep hrunning := by
    rcases hstep.running hrunning with
      ⟨hsame, hother⟩ | ⟨hcode, hl⟩ |
      ⟨command, next, answer, hbefore, hl, hcode⟩
    · refine .inl ⟨hsame, ?_⟩
      intro a ha
      obtain ⟨t', rfl⟩ := ProcessLabel.action_eq_some.mp ha
      have hexecute : ProcessStep P S s (.execute t' job a.1 a.2) s' := hstep
      obtain ⟨next, -, hrunning', -, -⟩ := hexecute.execute_inv
      refine ⟨t', _, ?_, hrunning'⟩
      rintro rfl
      exact hother job a.1 a.2 rfl
    · exact .inr (.inl ⟨⟨t, hl⟩, hcode⟩)
    · refine .inr (.inr ⟨command, next, answer, hbefore, ?_, hcode⟩)
      exact ProcessLabel.action_eq_some.mpr ⟨t, hl⟩
  distinct e t t' job code code' hrunning hrunning' :=
    (ProcessRun.numbered e).distinct t t' job code code' hrunning hrunning'

end ReliableDelivery
