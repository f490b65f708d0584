import MiniOverlay.PartialRuns

/-!
# The children of `TCPServer_v2`

`main` forks a child for every connection, counts it and collects those that
have exited with `waitpid` before it accepts the next connection.
-/

namespace MiniOverlay

open PartialRuns

set_option autoImplicit false

/-- `reaping` is the loop over `waitpid` behind each `fork`, else `main` is at `AcceptTCP`. A
child that has exited is a zombie until `waitpid` returns it. -/
structure ForkingServer where
  childCounter : UInt32
  live : Nat
  zombies : Nat
  failedForks : Nat
  reaping : Bool
  deriving DecidableEq

def ForkingServer.start : ForkingServer := ⟨0, 0, 0, 0, false⟩

inductive ForkEvent where
  | forks
  | forkFails
  | childExits
  | waits
  deriving DecidableEq

/-- One test of `ChildCounter` with the `waitpid` call behind it. It returns a child that has
exited, zero while all are running, which is the `break`, and a negative number when there is
none. -/
def ForkingServer.wait (server : ForkingServer) : ForkingServer :=
  if server.childCounter = 0 then { server with reaping := false }
  else if 0 < server.zombies then
    { server with childCounter := server.childCounter - 1, zombies := server.zombies - 1 }
  else if 0 < server.live then { server with reaping := false }
  else server

/-- `main` counts a child also when `fork` has failed. -/
def ForkingServer.step (server : ForkingServer) : ForkEvent → Option ForkingServer
  | .forks =>
      if server.reaping = false then
        some { server with
          childCounter := server.childCounter + 1, live := server.live + 1, reaping := true }
      else none
  | .forkFails =>
      if server.reaping = false then
        some { server with
          childCounter := server.childCounter + 1
          failedForks := server.failedForks + 1
          reaping := true }
      else none
  | .childExits =>
      if 0 < server.live then
        some { server with live := server.live - 1, zombies := server.zombies + 1 }
      else none
  | .waits => if server.reaping = true then some server.wait else none

def ForkingServer.counted (server : ForkingServer) : Nat :=
  server.live + server.zombies + server.failedForks

def Counts (server : ForkingServer) : Prop :=
  server.childCounter = UInt32.ofNat server.counted

theorem counts_pred {counter : UInt32} {total : Nat} (counts : counter = UInt32.ofNat (total + 1)) :
    counter - 1 = UInt32.ofNat total := by
  rw [counts, UInt32.ofNat_add]
  exact UInt32.add_sub_cancel ..

theorem counts_wait {server : ForkingServer} (counts : Counts server) : Counts server.wait := by
  unfold ForkingServer.wait
  split
  · exact counts
  · split
    · rename_i exited
      apply counts_pred
      rw [counts]
      apply congrArg UInt32.ofNat
      show server.live + server.zombies + server.failedForks =
        server.live + (server.zombies - 1) + server.failedForks + 1
      omega
    · split
      · exact counts
      · exact counts

theorem counts_step {server next : ForkingServer} {event : ForkEvent} (counts : Counts server)
    (stepped : server.step event = some next) : Counts next := by
  cases event with
  | forks =>
      obtain ⟨_, rfl⟩ := of_guard stepped
      show server.childCounter + 1 = UInt32.ofNat (server.live + 1 + server.zombies + _)
      rw [counts, Nat.add_right_comm server.live, Nat.add_right_comm, UInt32.ofNat_add]
      rfl
  | forkFails =>
      obtain ⟨_, rfl⟩ := of_guard stepped
      show server.childCounter + 1 = UInt32.ofNat (server.live + server.zombies + (_ + 1))
      rw [counts, ← Nat.add_assoc, UInt32.ofNat_add]
      rfl
  | childExits =>
      obtain ⟨running, rfl⟩ := of_guard stepped
      refine counts.trans (congrArg UInt32.ofNat ?_)
      show server.live + server.zombies + server.failedForks =
        server.live - 1 + (server.zombies + 1) + server.failedForks
      omega
  | waits =>
      obtain ⟨_, rfl⟩ := of_guard stepped
      exact counts_wait counts

theorem counts_zero_iff {server : ForkingServer} (counts : Counts server)
    (few : server.counted < UInt32.size) : server.childCounter = 0 ↔ server.counted = 0 := by
  rw [counts]
  constructor
  · intro zero
    have := congrArg UInt32.toNat zero
    rwa [UInt32.toNat_ofNat_of_lt' few] at this
  · intro zero
    rw [zero]
    rfl

/-- A failed fork is counted and no child is left that `waitpid` could wait for. -/
def Stuck (server : ForkingServer) : Prop :=
  Counts server ∧ server.counted < UInt32.size ∧ server.reaping = true ∧ server.live = 0 ∧
    server.failedForks ≠ 0

theorem stuck_step {server next : ForkingServer} {event : ForkEvent} (stuck : Stuck server)
    (stepped : server.step event = some next) : Stuck next := by
  obtain ⟨counts, few, reaping, noChild, failed⟩ := stuck
  have counted : server.counted = server.zombies + server.failedForks := by
    unfold ForkingServer.counted
    omega
  cases event with
  | forks => exact absurd (reaping.symm.trans (of_guard stepped).1) nofun
  | forkFails => exact absurd (reaping.symm.trans (of_guard stepped).1) nofun
  | childExits => exact absurd (of_guard stepped).1 (by omega)
  | waits =>
      obtain ⟨_, rfl⟩ := of_guard stepped
      refine ⟨counts_wait counts, ?_⟩
      have more : server.childCounter ≠ 0 := by
        intro zero
        have := (counts_zero_iff counts few).mp zero
        omega
      rw [ForkingServer.wait, if_neg more]
      by_cases exited : 0 < server.zombies
      · rw [if_pos exited]
        refine ⟨?_, reaping, noChild, failed⟩
        show server.live + (server.zombies - 1) + server.failedForks < UInt32.size
        omega
      · rw [if_neg exited, if_neg (by omega)]
        exact ⟨few, reaping, noChild, failed⟩

theorem reap_accepts {server : ForkingServer} (counts : Counts server)
    (few : server.counted < UInt32.size) (reaping : server.reaping = true)
    (goesOn : server.failedForks = 0 ∨ 0 < server.live) :
    ∃ next, (List.replicate (server.zombies + 1) ForkEvent.waits).foldlM ForkingServer.step
      server = some next ∧ next.reaping = false := by
  induction exited : server.zombies generalizing server with
  | zero =>
      refine ⟨server.wait, ?_, ?_⟩
      · rw [List.replicate_one, List.foldlM_cons, ForkingServer.step, if_pos reaping]
        rfl
      · unfold ForkingServer.wait
        split
        · rfl
        · rename_i more
          have some_left := mt (counts_zero_iff counts few).mpr more
          rw [ForkingServer.counted, exited] at some_left
          rw [if_neg (by omega), if_pos (by omega)]
  | succ zombies ih =>
      have more : server.childCounter ≠ 0 := by
        intro zero
        have := (counts_zero_iff counts few).mp zero
        rw [ForkingServer.counted, exited] at this
        omega
      have waited : server.wait = { server with
          childCounter := server.childCounter - 1, zombies := server.zombies - 1 } := by
        rw [ForkingServer.wait, if_neg more, if_pos (by omega)]
      have fewer : server.wait.counted < UInt32.size := by
        rw [waited]
        unfold ForkingServer.counted at few ⊢
        dsimp only
        omega
      have same : server.wait.zombies = zombies := by
        rw [waited]
        exact congrArg (· - 1) exited
      have rest := ih (counts_wait counts) fewer (by rw [waited]; exact reaping)
        (by rw [waited]; exact goesOn) same
      rw [List.replicate_succ, List.foldlM_cons, ForkingServer.step, if_pos reaping]
      exact rest

def ForkingServer.CanAccept (server : ForkingServer) : Prop :=
  ∃ (events : List ForkEvent) (next : ForkingServer),
    events.foldlM ForkingServer.step server = some next ∧ next.reaping = false

/-- From a reached state with fewer than 2^32 counted children, `main` can accept another
connection just when no `fork` has failed so far or some child is still running. Then the
loop ends after the children that have exited, and else it never does. -/
theorem forking_server_accepts_again {events : List ForkEvent} {server : ForkingServer}
    (run : events.foldlM ForkingServer.step ForkingServer.start = some server)
    (few : server.counted < UInt32.size) (reaping : server.reaping = true) :
    (server.CanAccept ↔ server.failedForks = 0 ∨ 0 < server.live) ∧
    (server.failedForks = 0 ∨ 0 < server.live →
      ∃ next, (List.replicate (server.zombies + 1) ForkEvent.waits).foldlM ForkingServer.step
        server = some next ∧ next.reaping = false) := by
  have counts : Counts server :=
    fold_keeps ForkingServer.step Counts events
      (fun _ _ _ _ before stepped => counts_step before stepped)
      (rfl : Counts ForkingServer.start) run
  refine ⟨⟨fun ⟨more, next, later, accepting⟩ => ?_, fun goesOn => ?_⟩,
    reap_accepts counts few reaping⟩
  · by_contra stays
    have stuck : Stuck server := ⟨counts, few, reaping, by omega, by omega⟩
    have still : Stuck next :=
      fold_keeps ForkingServer.step Stuck more
        (fun _ _ _ _ before stepped => stuck_step before stepped) stuck later
    exact absurd (still.2.2.1.symm.trans accepting) nofun
  · exact ⟨_, reap_accepts counts few reaping goesOn⟩

/-- One `fork` fails, and the only child before it has been returned. -/
theorem failed_fork_never_accepts : ∃ server : ForkingServer,
    [ForkEvent.forks, .waits, .forkFails, .childExits, .waits].foldlM ForkingServer.step
      ForkingServer.start = some server ∧
    ¬server.CanAccept := by
  refine ⟨⟨1, 0, 0, 1, true⟩, by decide, fun again => ?_⟩
  have reached : [ForkEvent.forks, .waits, .forkFails, .childExits, .waits].foldlM
      ForkingServer.step ForkingServer.start = some ⟨1, 0, 0, 1, true⟩ := by decide
  have left := (forking_server_accepts_again reached (by decide) rfl).1.mp again
  exact absurd left (by decide)

end MiniOverlay
