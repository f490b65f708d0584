import MiniOverlay.Handshake

/-!
# The timer of CLOSEWAIT

The thread that `closewait` runs in closes the TCB after its sleep, whatever
happened to it meanwhile. A thread is started on entering CLOSEWAIT only, and no
call and no segment leaves that state, so there is one sleeping thread in
CLOSEWAIT and none in any other state.
-/

namespace MiniOverlay

open PartialRuns

set_option autoImplicit false

def ServerParty.run (party : ServerParty) (events : List ServerEvent) : Option ServerParty :=
  events.foldlM (fun party event => (party.step event).map Prod.fst) party

def ServerParty.TimerMatches (party : ServerParty) : Prop :=
  party.sleeping = if party.table.state = .closewait then 1 else 0

theorem accept_timer {party after : ServerParty} {effects : List ServerEffect}
    (matched : party.TimerMatches) (stepped : party.step .accept = some (after, effects)) :
    after.TimerMatches := by
  simp only [ServerParty.step, mrtServerAccept] at stepped
  cases state : party.table.state <;> rw [state] at stepped
  case closed =>
    cases stepped
    simpa [ServerParty.TimerMatches, state] using matched
  all_goals
    cases stepped
    exact matched

theorem quiet_timer {party after : ServerParty} (matched : party.TimerMatches)
    (sleeping : after.sleeping = party.sleeping)
    (state : after.table.state = party.table.state) : after.TimerMatches := by
  rw [ServerParty.TimerMatches, sleeping, state]
  exact matched

theorem segment_timer {party : ServerParty} {sourceNodeID : Int32} {segmentBuffer : Seg}
    {after : ServerTcb} {effects : List ServerEffect} (matched : party.TimerMatches)
    (handled : serverSeghandler party.table sourceNodeID segmentBuffer = some (after, effects)) :
    ServerParty.TimerMatches ⟨after, party.sleeping + closewaitsStarted effects⟩ := by
  have moves := (server_handled sourceNodeID segmentBuffer handled).moves
  rw [ServerParty.TimerMatches] at matched
  cases moves with
  | accepts listening records none =>
      rw [listening, if_neg (by simp)] at matched
      rw [ServerParty.TimerMatches, matched, none, records.state, if_neg (by simp)]
  | stays state _ _ none =>
      have before : party.TimerMatches := matched
      apply quiet_timer before
      · exact congrArg (party.sleeping + ·) none
      · exact state
  | finishes records _ state one =>
      rw [records.state, if_neg (by simp)] at matched
      rw [ServerParty.TimerMatches, matched, one, state, if_pos rfl]

theorem wakes_in_closewait {party after : ServerParty} {effects : List ServerEffect}
    (matched : party.TimerMatches) (stepped : party.step .closewait = some (after, effects)) :
    party.table.state = .closewait ∧ after.table.state = .closed ∧ after.sleeping = 0 := by
  simp only [ServerParty.step] at stepped
  split_ifs at stepped with waiting
  cases stepped
  rw [ServerParty.TimerMatches] at matched
  split_ifs at matched with state
  · exact ⟨state, rfl, congrArg (· - 1) matched⟩
  · rw [matched] at waiting
    exact absurd waiting (Nat.lt_irrefl 0)

theorem server_step_timer {party after : ServerParty} {event : ServerEvent}
    {effects : List ServerEffect} (matched : party.TimerMatches)
    (stepped : party.step event = some (after, effects)) : after.TimerMatches := by
  cases event with
  | accept => exact accept_timer matched stepped
  | recv length =>
      obtain ⟨turn, turned, stepped⟩ := Option.bind_eq_some_iff.mp stepped
      cases stepped
      exact quiet_timer matched (received_sleeping _ _) (recv_same turned _).state
  | recvTurn length =>
      obtain ⟨turn, turned, stepped⟩ := Option.bind_eq_some_iff.mp stepped
      cases stepped
      exact quiet_timer matched (received_sleeping _ _) (recv_turn_same turned _).state
  | segment sourceNodeID segmentBuffer =>
      obtain ⟨result, handled, stepped⟩ := Option.bind_eq_some_iff.mp stepped
      cases stepped
      exact segment_timer matched handled
  | closewait =>
      obtain ⟨_, closed, none⟩ := wakes_in_closewait matched stepped
      rw [ServerParty.TimerMatches, none, closed, if_neg (by simp)]

/-- In every reachable state the sleeping threads match the state, so a thread that
wakes finds CLOSEWAIT. -/
theorem closewait_timer_matches (start last : ServerParty) (events : List ServerEvent)
    (closed : start.table.state = .closed) (idle : start.sleeping = 0)
    (run : start.run events = some last) :
    last.sleeping = (if last.table.state = .closewait then 1 else 0) ∧
      ∀ after effects, last.step .closewait = some (after, effects) →
        last.table.state = .closewait := by
  have begins : start.TimerMatches := by
    rw [ServerParty.TimerMatches, idle, closed, if_neg (by simp)]
  have matched : last.TimerMatches := by
    apply fold_keeps _ ServerParty.TimerMatches events _ begins run
    intro event _ before after kept stepped
    obtain ⟨⟨next, effects⟩, step, same⟩ := Option.map_eq_some_iff.mp stepped
    cases same
    exact server_step_timer kept step
  refine ⟨matched, fun after effects wakes => ?_⟩
  exact (wakes_in_closewait matched wakes).1

/-- A closed server on port 200 accepts a client, takes its FIN and the FIN again. -/
theorem closewait_timer_after_two_fins :
    let table := (mrtServerSock 1 200 0 0 0 (Vector.replicate 4 0))
    let fin : Seg := { Seg.cleared with
      header := { MrtHdr.cleared with type := SegType.fin, srcPort := 100, destPort := 200 } }
    let syn : Seg := { Seg.cleared with
      header := { MrtHdr.cleared with type := SegType.syn, srcPort := 100, destPort := 200 } }
    ∃ last, ServerParty.run ⟨table, 0⟩
        [.accept, .segment 2 syn, .segment 2 fin, .segment 2 fin] = some last ∧
      last.sleeping = (if last.table.state = .closewait then 1 else 0) ∧
        ∀ after effects, last.step .closewait = some (after, effects) →
          last.table.state = .closewait := by
  intro table fin syn
  refine ⟨_, rfl, closewait_timer_matches ⟨table, 0⟩ _ [.accept, .segment 2 syn, .segment 2 fin,
    .segment 2 fin] rfl rfl rfl⟩

end MiniOverlay
