import ReliableDelivery.EndToEnd.World
import ReliableDelivery.Server.Schedule
import ReliableDelivery.Client.Schedule

/-!
# Scheduled runs of client and server

A schedule for the client process, the server and the connections.  Commands
succeed where they can, apart from calls to Redis that the schedule lets fail.
-/

namespace ReliableDelivery

open Decimal MessageCodec TransitionSystem

inductive WorldChoice where
  | server (choice : Choice)
  | redisDown (t : Thread)
  | arrive (conn : Conn)
  | client (choice : ClientChoice)
  | deliver (client : Conn)

/-- The step of the server that a choice leads to.  Nothing comes from others. -/
def WorldState.serve (P : Platform) (w : WorldState) (choice : Choice) :
    Option (WorldLabel × WorldState) :=
  match w.server.advance P choice with
  | some (.receive _ _, _) => none
  | some (l, s) =>
      some (.server l,
        { w with server := s,
                 toClient := w.toClient.post (l.transmits P w.server) })
  | none => none

/-- The step of the client process that a choice leads to, when it takes nothing
from the connections. -/
def WorldState.move (P : Platform) (S : Sessions) (w : WorldState)
    (choice : ClientChoice) : Option (WorldLabel × WorldState) :=
  match w.process.advance P S choice with
  | some (.begin _ ⟨_, _, _, .handle _⟩, _) => none
  | some (l, s) =>
      some (.client l,
        { w with process := s, toServer := w.toServer.post l.transmits })
  | none => none

def WorldState.advance (P : Platform) (S : Sessions) (w : WorldState) :
    WorldChoice → Option (WorldLabel × WorldState)
  | .server choice => w.serve P choice
  | .redisDown t =>
      match w.server.running t with
      | some (job, .call (.redis request) next) =>
          some (.server (.execute t job (.redis request) none),
            { w with server := w.server.setRunning t (some (job, next none)) })
      | _ => none
  | .arrive conn =>
      match S conn, w.toServer conn with
      | some _, envelope :: rest =>
          match w.server.advance P (.receive conn envelope) with
          | some (_, s) =>
              some (.server (.receive conn envelope),
                { w with server := s,
                         toServer := Function.update w.toServer conn rest })
          | none => none
      | _, _ => none
  | .client choice => w.move P S choice
  | .deliver client =>
      match w.toClient client with
      | envelope :: rest =>
          match w.process.advance P S
            (.begin (.receiver client) client (.handle envelope)) with
          | some (l, s) =>
              some (.client l,
                { w with process := s,
                         toClient := Function.update w.toClient client rest })
          | none => none
      | [] => none

theorem worldStep_serve {P : Platform} {S : Sessions} {w w' : WorldState}
    {choice : Choice} {l : WorldLabel} (h : w.serve P choice = some (l, w')) :
    WorldStep P S w l w' := by
  simp only [WorldState.serve] at h
  split at h
  · cases h
  · next l' s hother hadvance =>
      cases h
      refine .serve l' s (step_advance hadvance) ?_
      rintro conn envelope rfl
      exact (hother conn envelope rfl).elim
  · cases h

theorem worldStep_move {P : Platform} {S : Sessions} {w w' : WorldState}
    {choice : ClientChoice} {l : WorldLabel}
    (h : w.move P S choice = some (l, w')) : WorldStep P S w l w' := by
  simp only [WorldState.move] at h
  split at h
  · cases h
  · next l' s hother hadvance =>
      cases h
      refine .move l' s (processStep_advance hadvance) ?_
      rintro t ⟨number, client, uid, task⟩ envelope rfl rfl
      exact hother t number client uid envelope rfl
  · cases h

/-- A job that is taken is the one asked for. -/
theorem begin_of_advance {P : Platform} {S : Sessions} {s s' : ProcessState}
    {t : ClientThread} {client : Conn} {task : ClientTask} {l : ProcessLabel}
    (h : s.advance P S (.begin t client task) = some (l, s')) :
    ∃ job : ClientJob, l = .begin t job ∧ job.client = client ∧
      job.task = task := by
  simp only [ProcessState.advance] at h
  split at h
  · split at h
    · cases h
      exact ⟨_, rfl, rfl, rfl⟩
    · cases h
  · cases h

theorem worldStep_advance {P : Platform} {S : Sessions} {w w' : WorldState}
    {choice : WorldChoice} {l : WorldLabel}
    (h : w.advance P S choice = some (l, w')) : WorldStep P S w l w' := by
  cases choice with
  | server choice => exact worldStep_serve h
  | client choice => exact worldStep_move h
  | redisDown t =>
      simp only [WorldState.advance] at h
      split at h
      · next job request next hrunning =>
          cases h
          exact .serve _ _ (.execute t job (.redis request) next none w.server
            hrunning (.redisNotExecuted request)) (by intro _ _ hl; cases hl)
      · cases h
  | arrive conn =>
      simp only [WorldState.advance] at h
      split at h
      · next uid envelope rest hsession hchannel =>
          split at h
          · next l' s hadvance =>
              cases h
              have hreceive := step_advance hadvance
              simp only [ServerState.advance] at hadvance
              split at hadvance
              · cases hadvance
                exact .arrive conn envelope rest _ (by simp [hsession])
                  hchannel hreceive
              · cases hadvance
          · cases h
      · cases h
  | deliver client =>
      simp only [WorldState.advance] at h
      split at h
      · next envelope rest hchannel =>
          split at h
          · next l' s hadvance =>
              obtain ⟨job, rfl, rfl, htask⟩ := begin_of_advance hadvance
              cases h
              exact .deliver _ job envelope rest s htask hchannel
                (processStep_advance hadvance)
          · cases h
      · cases h

def worldDriver (P : Platform) (S : Sessions) :
    Driver (world P S) WorldChoice where
  advance w choice := w.advance P S choice
  sound _ _ _ _ h := worldStep_advance h

/-- The call has returned to its caller with success. -/
def WorldLabel.succeeds (call : ClientJob) : WorldLabel → Bool
  | .client (.execute _ job (.returns true) _) => job = call
  | _ => false

theorem returns_of_succeeds {P : Platform} {S : Sessions} {w : WorldRun P S}
    {call : ClientJob} {v : WorldState} {l : WorldLabel}
    (hmem : (v, l) ∈ w.history) (h : l.succeeds call = true) :
    ⟨.returns true, ()⟩ ∈ w.client.trace call := by
  unfold WorldLabel.succeeds at h
  split at h
  · next t job answer =>
      rw [decide_eq_true_eq] at h
      subst h
      refine ThreadPool.mem_trace.mpr ⟨(v.process, _),
        WorldRun.mem_client_history.mpr ⟨v, rfl, hmem⟩, rfl⟩
  · cases h

/-- The run along a schedule from the beginning. -/
theorem exists_worldRun (P : Platform) (S : Sessions)
    (choices : List WorldChoice) :
    ∃ w : WorldRun P S, w.state = (worldDriver P S).follow {} choices ∧
      w.history = ((worldDriver P S).trace {} choices).reverse := by
  obtain ⟨w, -, hstate, hhistory⟩ :=
    (worldDriver P S).exists_follow choices ⟨[], {}, .init rfl⟩
  refine ⟨w, hstate, ?_⟩
  rw [hhistory]
  exact List.append_nil _

/-! ## A concrete client -/

/-- A thread of the process issues `n` commands. -/
def clientCalls (t : ClientThread) (n : ℕ) : List WorldChoice :=
  List.replicate n (.client (.call t 1000))

/-- The client starts and logs in. -/
def clientLogin : List WorldChoice :=
  [.client (.begin (.caller 0) 0 .start)] ++ clientCalls (.caller 0) 4 ++
    [.server (.connect 0), .arrive 0] ++ (complete 0 20).map .server ++
    [.deliver 0] ++ clientCalls (.receiver 0) 1 ++
    [.client (.finish (.receiver 0))] ++ clientCalls (.caller 0) 3 ++
    [.client (.finish (.caller 0))]

/-- The client sends a message to user 2. -/
def clientSend : List WorldChoice :=
  [.client (.begin (.caller 0) 0 (.send 2 (literal "hi")))] ++
    clientCalls (.caller 0) 9 ++ [.client (.finish (.caller 0))]

/-- The call of `clientSend`, after `clientLogin`. -/
def clientCall : ClientJob where
  number := 2
  client := 0
  uid := 1
  task := .send 2 (literal "hi")

end ReliableDelivery
