import ReliableDelivery.Client.Process
import ReliableDelivery.Support.Driver

/-!
# Scheduled runs of the client process

A schedule says which thread goes on next, and what the clock shows.  Commands
succeed where they can.
-/

namespace ReliableDelivery

open Decimal MessageCodec TransitionSystem

inductive ClientChoice where
  | begin (t : ClientThread) (client : Conn) (task : ClientTask)
  | call (t : ClientThread) (now : UInt64)
  | finish (t : ClientThread)

/-- The answer to a command and the state after it, when all goes well. -/
def ProcessState.answer (P : Platform) (s : ProcessState) (now : UInt64) :
    (command : ClientCommand) → Option (command.Answer × ProcessState)
  | .nowMs => some (now, s)
  | .stopped client => some ((s.clients client).stop, s)
  | .setStop client =>
      some ((), s.modify client fun c => { c with stop := true })
  | .loginOk client => some ((s.clients client).loginOk, s)
  | .handleLogin client ok =>
      some ((), s.modify client fun c =>
        { c with loginDone := true, loginOk := ok })
  | .failPendingLogin client =>
      some ((), s.modify client fun c =>
        if c.loginDone then c
        else { c with loginDone := true, loginOk := false })
  | .waitLogin client =>
      some ((s.clients client).loginDone && (s.clients client).loginOk, s)
  | .fetchAdd counter =>
      if s.counters counter < 2 ^ 64 then
        some (UInt64.ofNat (s.counters counter),
          { s with counters :=
              Function.update s.counters counter (s.counters counter + 1) })
      else none
  | .register client seq envelope =>
      some (now, s.modify client fun c => { c with
        pendingAcks := c.pendingAcks.insert seq
          { envelope, lastSendMs := now, retryCount := 0 } })
  | .erase client seq =>
      some ((), s.modify client fun c => { c with
        pendingAcks := c.pendingAcks.erase seq })
  | .scan client now' =>
      some ((PendingAcks.scan now' (s.pendingAcks client)).2,
        s.modify client fun c => { c with
          pendingAcks := (PendingAcks.scan now' c.pendingAcks).1 })
  | .pushMessage client envelope =>
      some ((), s.modify client fun c => { c with
        messageQueue := c.messageQueue ++ [envelope] })
  | .sendEnvelope _ envelope =>
      some (decide (encode P.serialize envelope ≠ []), s)
  | .connectServer _ => some (true, s)
  | .startReceiver client =>
      some ((), s.modify client fun c => { c with receiving := true })
  | .startRetry client =>
      some ((), s.modify client fun c =>
        if c.retryThread = .absent then { c with retryThread := .ready }
        else c)
  | .returns _ => some ((), s)

theorem clientEffect_answer {P : Platform} {s s' : ProcessState} {now : UInt64}
    {command : ClientCommand} {answer : command.Answer}
    (h : s.answer P now command = some (answer, s')) :
    ClientEffect P s command answer s' := by
  cases command with
  | nowMs => cases h; exact .nowMs now
  | stopped client => cases h; exact .stopped client
  | setStop client => cases h; exact .setStop client
  | loginOk client => cases h; exact .loginOk client
  | handleLogin client ok => cases h; exact .handleLogin client ok
  | failPendingLogin client => cases h; exact .failPendingLogin client
  | waitLogin client => cases h; exact .waitLogin client
  | fetchAdd counter =>
      simp only [ProcessState.answer] at h
      split at h
      · next hroom => cases h; exact .fetchAdd counter hroom
      · cases h
  | register client seq envelope =>
      cases h
      exact .register client seq envelope now
  | erase client seq => cases h; exact .erase client seq
  | scan client now' =>
      cases h
      exact .scan client now' _ (List.Perm.refl _)
  | pushMessage client envelope => cases h; exact .pushMessage client envelope
  | sendEnvelope client envelope =>
      cases h
      exact .sendEnvelope client envelope _ of_decide_eq_true
  | connectServer client => cases h; exact .connectServer client true
  | startReceiver client => cases h; exact .startReceiver client
  | startRetry client => cases h; exact .startRetry client
  | returns ok => cases h; exact .returns ok

/-- The step a choice leads to, if it is possible. -/
def ProcessState.advance (P : Platform) (S : Sessions) (s : ProcessState) :
    ClientChoice → Option (ProcessLabel × ProcessState)
  | .begin t client task =>
      match S client, s.running t with
      | some uid, none =>
          let job : ClientJob := ⟨s.nextJob, client, uid, task⟩
          if s.ready t job then
            some (.begin t job,
              (s.taken job).setRunning t (some (job, job.code)))
          else none
      | _, _ => none
  | .call t now =>
      match s.running t with
      | some (job, .call command next) =>
          match s.answer P now command with
          | some (answer, s') =>
              some (.execute t job command answer,
                s'.setRunning t (some (job, next answer)))
          | none => none
      | _ => none
  | .finish t =>
      match s.running t with
      | some (job, .done ()) => some (.finish t job, s.setRunning t none)
      | _ => none

theorem processStep_advance {P : Platform} {S : Sessions}
    {s s' : ProcessState} {choice : ClientChoice} {l : ProcessLabel}
    (h : s.advance P S choice = some (l, s')) : ProcessStep P S s l s' := by
  cases choice with
  | begin t client task =>
      simp only [ProcessState.advance] at h
      split at h
      · next uid hsession hidle =>
          split at h
          · next hready =>
              cases h
              exact .begin t ⟨s.nextJob, client, uid, task⟩ hsession rfl hidle
                hready
          · cases h
      · cases h
  | call t now =>
      simp only [ProcessState.advance] at h
      split at h
      · next job command next hrunning =>
          split at h
          · next answer s'' hanswer =>
              cases h
              exact .execute t job command next answer s'' hrunning
                (clientEffect_answer hanswer)
          · cases h
      · cases h
  | finish t =>
      simp only [ProcessState.advance] at h
      split at h
      · next job hrunning => cases h; exact .finish t job hrunning
      · cases h

/-- Following a schedule is a run of the client process. -/
def processDriver (P : Platform) (S : Sessions) :
    Driver (process P S) ClientChoice where
  advance s := s.advance P S
  sound _ _ _ _ h := processStep_advance h

/-- User 1 has a client on connection 0. -/
def oneClient : Sessions := fun client =>
  if client = 0 then some 1 else none

end ReliableDelivery
