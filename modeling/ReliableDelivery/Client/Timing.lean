import ReliableDelivery.Client.Bookkeeping
import ReliableDelivery.Client.Schedule
import ReliableDelivery.Server.Schedule

/-!
# When the client sends again

A scan compares the clock reading it was given with the time of the last
sending, and takes the difference in 64 bits.  The reading is taken before the
lock, the entries are stamped under it, so an entry may be ahead of the scan.
`retryLoop_in_time_iff` says that this is the only way to send early: a run in
which no scan finds such an entry sends nothing before its time.
-/

namespace ReliableDelivery

open Decimal TransitionSystem

/-! ## One entry -/

namespace PendingAck

/-- The scan sends the request again or gives it up. -/
def Acted (now : UInt64) (pending : PendingAck) : Prop :=
  (pending.scan now).2 ≠ none ∨ (pending.scan now).1 = none

/-- The waiting time of the entry is over, in exact arithmetic. -/
def Expired (now : UInt64) (pending : PendingAck) : Prop :=
  pending.lastSendMs.toNat +
    kBaseRetryTimeoutMs.toNat * (pending.retryCount + 1) ≤ now.toNat

/-- The scan is not behind the entry, or so far behind that the difference, which
wraps around, is below the waiting time. -/
def NotAhead (now : UInt64) (pending : PendingAck) : Prop :=
  pending.lastSendMs ≤ now ∨
    now.toNat + 2 ^ 64 < pending.lastSendMs.toNat +
      kBaseRetryTimeoutMs.toNat * (pending.retryCount + 1)

variable {now : UInt64} {pending : PendingAck}

theorem acted_iff :
    pending.Acted now ↔ ¬now - pending.lastSendMs < pending.retryTimeoutMs := by
  unfold Acted scan
  split
  · next hwaiting => simp [hwaiting]
  · next hdue =>
      split
      · simp [hdue]
      · simp [hdue]

theorem retryTimeoutMs_toNat (h : pending.retryCount ≤ kMaxRetryCount) :
    pending.retryTimeoutMs.toNat =
      kBaseRetryTimeoutMs.toNat * (pending.retryCount + 1) := by
  have hbase : kBaseRetryTimeoutMs.toNat = 2000 := rfl
  have hlimit : kMaxRetryCount = 5 := rfl
  rw [retryTimeoutMs, UInt64.toNat_mul, UInt64.toNat_ofNat', hbase]
  omega

/-- The difference of two times, which wraps around if the second is later. -/
theorem toNat_sub_cases (a b : UInt64) :
    (b ≤ a ∧ (a - b).toNat = a.toNat - b.toNat) ∨
      (¬b ≤ a ∧ (a - b).toNat = a.toNat + 2 ^ 64 - b.toNat) := by
  by_cases hle : b ≤ a
  · exact .inl ⟨hle, UInt64.toNat_sub_of_le _ _ hle⟩
  · refine .inr ⟨hle, ?_⟩
    rw [UInt64.le_iff_toNat_le] at hle
    have ha := a.toNat_lt
    have hb := b.toNat_lt
    rw [UInt64.toNat_sub]
    omega

/-- An entry that is not ahead is dealt with only when its time is over, and one
that is ahead is dealt with at once. -/
theorem expired_of_acted_iff (h : pending.retryCount ≤ kMaxRetryCount) :
    (pending.Acted now → pending.Expired now) ↔ pending.NotAhead now := by
  rw [acted_iff, UInt64.lt_iff_toNat_lt, retryTimeoutMs_toNat h]
  unfold Expired NotAhead
  rcases toNat_sub_cases now pending.lastSendMs with
    ⟨hle, hdiff⟩ | ⟨hahead, hdiff⟩
  · rw [hdiff]
    rw [UInt64.le_iff_toNat_le] at hle ⊢
    constructor
    · intro _
      exact .inl hle
    · intro _ hdue
      omega
  · rw [hdiff]
    rw [UInt64.le_iff_toNat_le] at hahead ⊢
    have hlast := pending.lastSendMs.toNat_lt
    constructor
    · intro hearly
      by_contra hnot
      have hexpired := hearly (by omega)
      omega
    · rintro (habsurd | hwaiting) hdue
      · exact absurd habsurd hahead
      · omega

end PendingAck

/-! ## Runs -/

section Runs

variable {P : Platform} {S : Sessions}

/-- Every scan of the run meets the condition on every request that is pending
with its client. -/
def EveryScan (condition : UInt64 → PendingAck → Prop) (e : ProcessRun P S) :
    Prop :=
  ∀ s t job client now messages,
    (s, .execute t job (.scan client now) messages) ∈ e.history →
    ∀ seq pending, (s.pendingAcks client).lookup seq = some pending →
      condition now pending

/-- No run counts a request more often than the limit. -/
theorem retryCount_le {e : ProcessRun P S} {s : ProcessState} {l : ProcessLabel}
    (h : (s, l) ∈ e.history) {client : Conn} {seq : UInt64}
    {pending : PendingAck}
    (hpending : (s.pendingAcks client).lookup seq = some pending) :
    pending.retryCount ≤ kMaxRetryCount := by
  obtain ⟨e₁, -, rfl, -, -⟩ := Execution.exists_next_of_mem h
  have hbooked := ProcessRun.booked e₁
  rw [hbooked.counted client seq pending hpending]
  exact hbooked.bounded seq

/-- The retry thread sends nothing again, and gives nothing up, before its time,
exactly if no scan meets a request stamped later than the clock reading it scans
with (or so much later that the difference has become small again). -/
theorem retryLoop_in_time_iff (e : ProcessRun P S) :
    EveryScan (fun now pending => pending.Acted now → pending.Expired now) e ↔
      EveryScan (fun now pending => pending.NotAhead now) e := by
  constructor
  · intro h s t job client now messages hmem seq pending hpending
    exact (PendingAck.expired_of_acted_iff (retryCount_le hmem hpending)).mp
      (h s t job client now messages hmem seq pending hpending)
  · intro h s t job client now messages hmem seq pending hpending
    exact (PendingAck.expired_of_acted_iff (retryCount_le hmem hpending)).mpr
      (h s t job client now messages hmem seq pending hpending)

/-! ## A scan that comes too late -/

/-- A reading of the clock. -/
def ProcessLabel.reading : ProcessLabel → Option UInt64
  | .execute _ _ .nowMs now => some now
  | .execute _ _ (.register _ _ _) now => some now
  | _ => none

/-- The clock of the process does not go back. -/
def ClockMonotone (e : ProcessRun P S) : Prop :=
  (e.log ProcessLabel.reading).Pairwise (· ≤ ·)

end Runs

/-- A thread issues `n` commands. -/
def clientCommands (t : ClientThread) (now : UInt64) (n : ℕ) :
    List ClientChoice :=
  List.replicate n (.call t now)

/-- The confirmation of a login. -/
def loginConfirmed : Envelope where
  type := .loginResp
  seq := 1
  payload := some (.loginResp { ok := true })

/-- The client of user 1 logs in at time 1000.  The retry thread reads the clock.
Then a call registers a request at time 1001, and the retry thread scans. -/
def lateScan : List ClientChoice :=
  [[.begin (.caller 0) 0 .start], clientCommands (.caller 0) 1000 4,
    [.begin (.receiver 0) 0 (.handle loginConfirmed)],
    clientCommands (.receiver 0) 1000 1, clientCommands (.caller 0) 1000 3,
    [.begin (.retry 0) 0 (.retry 1)], clientCommands (.retry 0) 1000 2,
    [.begin (.caller 1) 0 (.send 2 (literal "hi"))],
    clientCommands (.caller 1) 1001 7,
    clientCommands (.retry 0) 1001 1].flatten

/-- The step is a scan that deals with a request before its time. -/
def ProcessLabel.early (s : ProcessState) (seq : UInt64) : ProcessLabel → Bool
  | .execute _ _ (.scan client now) _ =>
      ((s.pendingAcks client).lookup seq).any fun pending =>
        !decide (now - pending.lastSendMs < pending.retryTimeoutMs) &&
          decide (now.toNat < pending.lastSendMs.toNat)
  | _ => false

theorem not_everyScan_of_early {P : Platform} {S : Sessions}
    {e : ProcessRun P S} {s : ProcessState} {l : ProcessLabel} {seq : UInt64}
    (hmem : (s, l) ∈ e.history) (h : l.early s seq = true) :
    ¬EveryScan (fun now pending => pending.Acted now → pending.Expired now)
      e := by
  intro hscan
  unfold ProcessLabel.early at h
  split at h
  · next t job client now messages =>
      obtain ⟨pending, hpending, hearly⟩ := (Option.any_eq_true _ _).mp h
      simp only [Bool.and_eq_true, Bool.not_eq_true', decide_eq_false_iff_not,
        decide_eq_true_eq] at hearly
      have hexpired := hscan s t job client now messages hmem seq pending
        hpending (PendingAck.acted_iff.mpr hearly.1)
      unfold PendingAck.Expired at hexpired
      omega
  · cases h

/-- The request is sent again at once, a moment after it was registered. -/
theorem retryLoop_early :
    ∃ e : ProcessRun wirePlatform oneClient, ClockMonotone e ∧
      ¬EveryScan (fun now pending => pending.Acted now → pending.Expired now)
        e := by
  obtain ⟨e, -, -, hhistory⟩ :=
    (processDriver wirePlatform oneClient).exists_follow lateScan
      ⟨[], {}, .init rfl⟩
  have hlog : e.log ProcessLabel.reading = [1000, 1000, 1001, 1001, 1001] := by
    rw [Execution.log, hhistory]
    decide +kernel
  refine ⟨e, ?_, ?_⟩
  · rw [ClockMonotone, hlog]
    decide
  · have hany : ((processDriver wirePlatform oneClient).trace {} lateScan).any
        (fun x => x.2.early x.1 2) = true := by
      decide +kernel
    obtain ⟨⟨s, l⟩, hmem, hearly⟩ := List.any_eq_true.mp hany
    apply not_everyScan_of_early (s := s) (l := l) _ hearly
    rw [hhistory]
    simpa using hmem

end ReliableDelivery
