import MiniOverlay.FixedByteCodec
import MiniOverlay.PartialRuns
import Mathlib.Logic.Function.Basic

/-!
# The threads of `TCPServer_v3`

Every thread is passed the address of the one variable `ClientSock`, to which
the next `AcceptTCP` stores.
-/

namespace MiniOverlay

open FixedByteCodec PartialRuns

set_option autoImplicit false

def buffSize : Nat := 2000

/-- `memset(buffer, 0, BuffSize)` and then `read`: what a call that fails leaves are zeros. -/
def readBuffer (message : Option (List Byte)) : List Byte :=
  let received := message.getD []
  received ++ List.replicate (buffSize - received.length) 0

/-- There is none when no byte of the buffer is zero, where `strlen` reads on behind it. -/
def strlen (buffer : List Byte) : Option Nat := buffer.findIdx? (· == 0)

/-- Where `ThreadMain` stands, with its `client_fd` and its `buffer`. -/
inductive ThreadMain where
  | started
  | took (clientFd : Int)
  | hasRead (clientFd : Int) (source : Option Nat) (buffer : List Byte)
  | hasWritten (clientFd : Int)
  | ended
  deriving DecidableEq

def ThreadMain.clientFd : ThreadMain → Option Int
  | .started => none
  | .took clientFd => some clientFd
  | .hasRead clientFd _ _ => some clientFd
  | .hasWritten clientFd => some clientFd
  | .ended => none

def ThreadMain.wrote : ThreadMain → Bool
  | .hasWritten _ => true
  | .ended => true
  | _ => false

/-- One `write` call of a thread: the connection it read from and the one it writes to. -/
structure EchoWrite where
  thread : Nat
  source : Option Nat
  target : Option Nat
  text : List Byte
  deriving DecidableEq

/-- Connections and threads are numbered in the order in which they come up. -/
structure ThreadedServer where
  clientSock : Int
  creating : Bool
  descriptors : Int → Option Nat
  accepted : Nat
  threads : List ThreadMain
  writes : List EchoWrite

/-- `ClientSock` is not initialised. -/
def ThreadedServer.start (clientSock : Int) : ThreadedServer where
  clientSock := clientSock
  creating := false
  descriptors := fun _ => none
  accepted := 0
  threads := []
  writes := []

def ThreadedServer.connect (server : ThreadedServer) (clientFd : Int) : ThreadedServer :=
  { server with
    descriptors := Function.update server.descriptors clientFd (some server.accepted)
    accepted := server.accepted + 1 }

/-- `main` creates a thread when what it stored to `ClientSock` is positive. -/
def ThreadedServer.store (server : ThreadedServer) (clientSock : Int) : ThreadedServer :=
  { server with clientSock := clientSock, creating := decide (0 < clientSock) }

def ThreadedServer.create (server : ThreadedServer) : ThreadedServer :=
  { server with creating := false, threads := server.threads ++ [.started] }

def ThreadedServer.goes (server : ThreadedServer) (thread : Nat) (place : ThreadMain) :
    ThreadedServer :=
  { server with threads := server.threads.set thread place }

def ThreadedServer.write (server : ThreadedServer) (write : EchoWrite) : ThreadedServer :=
  { server with writes := server.writes ++ [write] }

def ThreadedServer.close (server : ThreadedServer) (clientFd : Int) : ThreadedServer :=
  { server with descriptors := Function.update server.descriptors clientFd none }

theorem connect_at (server : ThreadedServer) (clientFd : Int) :
    (server.connect clientFd).descriptors clientFd = some server.accepted :=
  Function.update_self ..

theorem connect_other (server : ThreadedServer) {clientFd other : Int}
    (differs : other ≠ clientFd) :
    (server.connect clientFd).descriptors other = server.descriptors other :=
  Function.update_of_ne differs ..

theorem close_at (server : ThreadedServer) (clientFd : Int) :
    (server.close clientFd).descriptors clientFd = none :=
  Function.update_self ..

theorem close_other (server : ThreadedServer) {clientFd other : Int}
    (differs : other ≠ clientFd) :
    (server.close clientFd).descriptors other = server.descriptors other :=
  Function.update_of_ne differs ..

/-- The calls of `main` and of the threads that the others can see. -/
inductive EchoEvent where
  | accepts (clientFd : Int)
  | acceptFails
  | getsocknameFails (clientFd : Int)
  | creates
  | createFails
  | takes (thread : Nat)
  | reads (thread : Nat) (message : Option (List Byte))
  | writes (thread : Nat)
  | closes (thread : Nat)

/-- What `read` may return: bytes come only over an open connection. -/
def readable (source : Option Nat) (message : Option (List Byte)) : Bool :=
  message.all fun bytes => source.isSome && decide (bytes.length ≤ buffSize)

/-- `main` does not look at the result of `pthread_create`. -/
def ThreadedServer.step (server : ThreadedServer) : EchoEvent → Option ThreadedServer
  | .accepts clientFd =>
      if server.creating = false ∧ 0 ≤ clientFd ∧ server.descriptors clientFd = none then
        some ((server.connect clientFd).store clientFd)
      else none
  | .acceptFails => if server.creating = false then some (server.store (-1)) else none
  | .getsocknameFails clientFd =>
      if server.creating = false ∧ 0 ≤ clientFd ∧ server.descriptors clientFd = none then
        some ((server.connect clientFd).store (-1))
      else none
  | .creates => if server.creating = true then some server.create else none
  | .createFails =>
      if server.creating = true then some { server with creating := false } else none
  | .takes thread =>
      match server.threads[thread]? with
      | some .started => some (server.goes thread (.took server.clientSock))
      | _ => none
  | .reads thread message =>
      match server.threads[thread]? with
      | some (.took clientFd) =>
          let source := server.descriptors clientFd
          if readable source message then
            some (server.goes thread (.hasRead clientFd source (readBuffer message)))
          else none
      | _ => none
  | .writes thread =>
      match server.threads[thread]? with
      | some (.hasRead clientFd source buffer) =>
          (strlen buffer).map fun length =>
            (server.goes thread (.hasWritten clientFd)).write
              ⟨thread, source, server.descriptors clientFd, buffer.take length⟩
      | _ => none
  | .closes thread =>
      match server.threads[thread]? with
      | some (.hasWritten clientFd) => some ((server.goes thread .ended).close clientFd)
      | _ => none

theorem threaded_step_cases {server next : ThreadedServer} {event : EchoEvent}
    (stepped : server.step event = some next) :
    match event with
    | .accepts clientFd =>
        (server.creating = false ∧ 0 ≤ clientFd ∧ server.descriptors clientFd = none) ∧
          next = (server.connect clientFd).store clientFd
    | .acceptFails => server.creating = false ∧ next = server.store (-1)
    | .getsocknameFails clientFd =>
        (server.creating = false ∧ 0 ≤ clientFd ∧ server.descriptors clientFd = none) ∧
          next = (server.connect clientFd).store (-1)
    | .creates => server.creating = true ∧ next = server.create
    | .createFails => server.creating = true ∧ next = { server with creating := false }
    | .takes thread =>
        server.threads[thread]? = some .started ∧
          next = server.goes thread (.took server.clientSock)
    | .reads thread message =>
        ∃ clientFd, server.threads[thread]? = some (.took clientFd) ∧
          next = server.goes thread
            (.hasRead clientFd (server.descriptors clientFd) (readBuffer message))
    | .writes thread =>
        ∃ clientFd source buffer length,
          server.threads[thread]? = some (.hasRead clientFd source buffer) ∧
          next = (server.goes thread (.hasWritten clientFd)).write
            ⟨thread, source, server.descriptors clientFd, buffer.take length⟩
    | .closes thread =>
        ∃ clientFd, server.threads[thread]? = some (.hasWritten clientFd) ∧
          next = (server.goes thread .ended).close clientFd := by
  cases event with
  | accepts clientFd => exact of_guard stepped
  | acceptFails => exact of_guard stepped
  | getsocknameFails clientFd => exact of_guard stepped
  | creates => exact of_guard stepped
  | createFails => exact of_guard stepped
  | takes thread =>
      simp only [ThreadedServer.step] at stepped
      split at stepped
      case h_1 standing => exact ⟨standing, (Option.some.inj stepped).symm⟩
      case h_2 => cases stepped
  | reads thread message =>
      simp only [ThreadedServer.step] at stepped
      split at stepped
      case h_1 clientFd standing =>
        exact ⟨clientFd, standing, (of_guard stepped).2⟩
      case h_2 => cases stepped
  | writes thread =>
      simp only [ThreadedServer.step] at stepped
      split at stepped
      case h_1 clientFd source buffer standing =>
        obtain ⟨length, _, rfl⟩ := Option.map_eq_some_iff.mp stepped
        exact ⟨clientFd, source, buffer, length, standing, rfl⟩
      case h_2 => cases stepped
  | closes thread =>
      simp only [ThreadedServer.step] at stepped
      split at stepped
      case h_1 clientFd standing => exact ⟨clientFd, standing, (Option.some.inj stepped).symm⟩
      case h_2 => cases stepped

/-- `main` stores to `ClientSock` only after every thread has read it, and it creates a
thread for every connection. -/
def InTime (server : ThreadedServer) : EchoEvent → Prop
  | .accepts clientFd => .started ∉ server.threads ∧ 0 < clientFd
  | .acceptFails => .started ∉ server.threads
  | .getsocknameFails _ => False
  | .createFails => False
  | _ => True

/-- The only `write` call on a connection is that of its own thread, with what it read there. -/
def EchoedOnce (server : ThreadedServer) (connection : Nat) : Prop :=
  ∃ text, server.writes.filter (fun write => write.target = some connection) =
    [⟨connection, some connection, some connection, text⟩]

def AllServed (server : ThreadedServer) : Prop :=
  (∀ connection < server.accepted, EchoedOnce server connection) ∧
    ∀ clientFd, server.descriptors clientFd = none

def ThreadedServer.Finished (server : ThreadedServer) : Prop :=
  server.creating = false ∧ ∀ place ∈ server.threads, place = .ended

def InPlace (server : ThreadedServer) (thread : Nat) : ThreadMain → Prop
  | .started => server.descriptors server.clientSock = some thread
  | .took clientFd => server.descriptors clientFd = some thread
  | .hasRead clientFd source _ => server.descriptors clientFd = some thread ∧ source = some thread
  | .hasWritten clientFd => server.descriptors clientFd = some thread
  | .ended => ∀ clientFd, server.descriptors clientFd ≠ some thread

/-- Thread and connection have the same number, and the thread is where its writes are. -/
structure Orderly (server : ThreadedServer) : Prop where
  numbered : server.threads.length + server.creating.toNat = server.accepted
  opened : ∀ clientFd connection, server.descriptors clientFd = some connection →
    0 ≤ clientFd ∧ connection < server.accepted
  apart : ∀ first second connection, server.descriptors first = some connection →
    server.descriptors second = some connection → first = second
  created : server.creating = true →
    server.descriptors server.clientSock = some server.threads.length
  inPlace : ∀ thread place, server.threads[thread]? = some place → InPlace server thread place
  echoed : ∀ connection, (server.threads[connection]?).any ThreadMain.wrote = true →
    EchoedOnce server connection
  silent : ∀ connection, (server.threads[connection]?).any ThreadMain.wrote = false →
    ∀ write ∈ server.writes, write.target ≠ some connection

/-- An open connection that no thread holds and no thread has written to. -/
structure Unheld (server : ThreadedServer) (clientFd : Int) (connection : Nat) : Prop where
  isOpen : server.descriptors clientFd = some connection
  valid : 0 ≤ clientFd ∧ connection < server.accepted
  apart : ∀ other, server.descriptors other = some connection → other = clientFd
  silent : ∀ write ∈ server.writes, write.target ≠ some connection
  notHeld : ∀ place ∈ server.threads, place.clientFd ≠ some clientFd

/-- No thread will ever find the descriptor of this connection in `ClientSock`. -/
structure Dropped (server : ThreadedServer) (clientFd : Int) (connection : Nat) : Prop
    extends Unheld server clientFd connection where
  notHandedOn : server.clientSock ≠ clientFd ∨
    (server.creating = false ∧ .started ∉ server.threads)

theorem orderly_start (clientSock : Int) : Orderly (ThreadedServer.start clientSock) where
  numbered := rfl
  opened := fun _ _ holds => nomatch holds
  apart := fun _ _ _ holds => nomatch holds
  created := fun holds => nomatch holds
  inPlace := fun _ _ holds => nomatch holds
  echoed := fun _ holds => nomatch holds
  silent := fun _ _ _ member => nomatch member

section Dropped

variable {server : ThreadedServer} {clientFd : Int} {connection : Nat}

theorem unheld_connect (unheld : Unheld server clientFd connection) {newFd : Int}
    (unused : server.descriptors newFd = none) :
    Unheld (server.connect newFd) clientFd connection ∧ newFd ≠ clientFd := by
  have differs : newFd ≠ clientFd := by
    intro same
    exact absurd (unheld.isOpen.symm.trans (same ▸ unused)) (by simp)
  refine ⟨⟨?_, ?_, ?_, unheld.silent, unheld.notHeld⟩, differs⟩
  · exact (connect_other server differs.symm).trans unheld.isOpen
  · exact ⟨unheld.valid.1, Nat.lt_succ_of_lt unheld.valid.2⟩
  · intro other holds
    by_cases new : other = newFd
    · rw [new, connect_at] at holds
      have := Option.some.inj holds
      have := unheld.valid.2
      omega
    · exact unheld.apart other ((connect_other server new).symm.trans holds)

theorem dropped_of_store (unheld : Unheld server clientFd connection) {clientSock : Int}
    (differs : clientSock ≠ clientFd) : Dropped (server.store clientSock) clientFd connection :=
  ⟨⟨unheld.isOpen, unheld.valid, unheld.apart, unheld.silent, unheld.notHeld⟩, .inl differs⟩

theorem unheld_failed (unheld : Unheld server clientFd connection) : (-1 : Int) ≠ clientFd := by
  have := unheld.valid.1
  omega

theorem dropped_goes (dropped : Dropped server clientFd connection) {thread : Nat}
    {place : ThreadMain} (known : place ≠ .started) (differs : place.clientFd ≠ some clientFd) :
    Dropped (server.goes thread place) clientFd connection := by
  refine ⟨⟨dropped.isOpen, dropped.valid, dropped.apart, dropped.silent, ?_⟩, ?_⟩
  · intro other member
    rcases List.mem_or_eq_of_mem_set member with before | rfl
    · exact dropped.notHeld other before
    · exact differs
  · apply dropped.notHandedOn.imp_right
    intro idle
    refine ⟨idle.1, fun member => ?_⟩
    rcases List.mem_or_eq_of_mem_set member with before | same
    · exact idle.2 before
    · exact known same.symm

theorem dropped_write (dropped : Dropped server clientFd connection) {write : EchoWrite}
    (elsewhere : write.target ≠ some connection) :
    Dropped (server.write write) clientFd connection := by
  refine ⟨⟨dropped.isOpen, dropped.valid, dropped.apart, ?_, dropped.notHeld⟩,
    dropped.notHandedOn⟩
  intro other member
  rcases List.mem_append.mp member with before | last
  · exact dropped.silent other before
  · rw [List.mem_singleton.mp last]
    exact elsewhere

theorem dropped_close (dropped : Dropped server clientFd connection) {other : Int}
    (differs : other ≠ clientFd) : Dropped (server.close other) clientFd connection := by
  refine ⟨⟨?_, dropped.valid, ?_, dropped.silent, dropped.notHeld⟩, dropped.notHandedOn⟩
  · exact (close_other server differs.symm).trans dropped.isOpen
  · intro third holds
    by_cases closed : third = other
    · rw [closed, close_at] at holds
      cases holds
    · exact dropped.apart third ((close_other server closed).symm.trans holds)

theorem unheld_differs (unheld : Unheld server clientFd connection) {thread : Nat}
    {place : ThreadMain} {other : Int} (standing : server.threads[thread]? = some place)
    (holds : place.clientFd = some other) : other ≠ clientFd := by
  intro same
  exact unheld.notHeld place (List.mem_of_getElem? standing) (same ▸ holds)

theorem dropped_step (dropped : Dropped server clientFd connection) {next : ThreadedServer}
    {event : EchoEvent} (stepped : server.step event = some next) :
    Dropped next clientFd connection := by
  have moved := threaded_step_cases stepped
  have unheld := dropped.toUnheld
  have creatingElsewhere : server.creating = true → server.clientSock ≠ clientFd := by
    intro creating
    exact dropped.notHandedOn.resolve_right fun idle => by simp [creating] at idle
  cases event with
  | accepts newFd =>
      obtain ⟨⟨_, _, unused⟩, rfl⟩ := moved
      have ⟨connected, differs⟩ := unheld_connect unheld unused
      exact dropped_of_store connected differs
  | acceptFails =>
      obtain ⟨_, rfl⟩ := moved
      exact dropped_of_store unheld (unheld_failed unheld)
  | getsocknameFails newFd =>
      obtain ⟨⟨_, _, unused⟩, rfl⟩ := moved
      exact dropped_of_store (unheld_connect unheld unused).1 (unheld_failed unheld)
  | creates =>
      obtain ⟨creating, rfl⟩ := moved
      refine ⟨⟨unheld.isOpen, unheld.valid, unheld.apart, unheld.silent, ?_⟩,
        .inl (creatingElsewhere creating)⟩
      intro place member
      rcases List.mem_append.mp member with before | last
      · exact unheld.notHeld place before
      · rw [List.mem_singleton.mp last]
        exact nofun
  | createFails =>
      obtain ⟨creating, rfl⟩ := moved
      exact ⟨⟨unheld.isOpen, unheld.valid, unheld.apart, unheld.silent, unheld.notHeld⟩,
        .inl (creatingElsewhere creating)⟩
  | takes thread =>
      obtain ⟨standing, rfl⟩ := moved
      have differs : server.clientSock ≠ clientFd :=
        dropped.notHandedOn.resolve_right fun idle => idle.2 (List.mem_of_getElem? standing)
      exact dropped_goes dropped nofun fun same => differs (Option.some.inj same)
  | reads thread message =>
      obtain ⟨other, standing, rfl⟩ := moved
      have differs := unheld_differs unheld standing rfl
      exact dropped_goes dropped nofun fun same => differs (Option.some.inj same)
  | writes thread =>
      obtain ⟨other, source, buffer, length, standing, rfl⟩ := moved
      have differs := unheld_differs unheld standing rfl
      have gone : Dropped (server.goes thread (.hasWritten other)) clientFd connection :=
        dropped_goes dropped nofun fun same => differs (Option.some.inj same)
      exact dropped_write gone fun same => differs (unheld.apart other same)
  | closes thread =>
      obtain ⟨other, standing, rfl⟩ := moved
      have differs := unheld_differs unheld standing rfl
      have gone : Dropped (server.goes thread .ended) clientFd connection :=
        dropped_goes dropped nofun nofun
      exact dropped_close gone differs

end Dropped

section Orderly

variable {server : ThreadedServer} (orderly : Orderly server)

include orderly

theorem held_descriptor {thread : Nat} {place : ThreadMain} {clientFd : Int}
    (standing : server.threads[thread]? = some place) (holds : place.clientFd = some clientFd) :
    server.descriptors clientFd = some thread := by
  have inPlace := orderly.inPlace thread place standing
  cases place with
  | started => cases holds
  | took other =>
      cases holds
      exact inPlace
  | hasRead other source buffer =>
      cases holds
      exact inPlace.1
  | hasWritten other =>
      cases holds
      exact inPlace
  | ended => cases holds

/-- A connection whose thread has not read `ClientSock` yet, or is not created. -/
theorem unheld_of_new {clientFd : Int} {connection : Nat}
    (isOpen : server.descriptors clientFd = some connection)
    (new : ∀ place, server.threads[connection]? = some place → place = .started) :
    Unheld server clientFd connection := by
  refine ⟨isOpen, orderly.opened clientFd connection isOpen, ?_, ?_, ?_⟩
  · intro other holds
    exact orderly.apart other clientFd connection holds isOpen
  · apply orderly.silent connection
    cases standing : server.threads[connection]? with
    | none => rfl
    | some place =>
        rw [new place standing]
        rfl
  · intro place member holds
    obtain ⟨thread, standing⟩ := List.mem_iff_getElem?.mp member
    have same := (held_descriptor orderly standing holds).symm.trans isOpen
    rw [new place (Option.some.inj same ▸ standing)] at holds
    cases holds

theorem unheld_of_started (started : .started ∈ server.threads) :
    ∃ connection, Unheld server server.clientSock connection := by
  obtain ⟨thread, standing⟩ := List.mem_iff_getElem?.mp started
  refine ⟨thread, unheld_of_new orderly (orderly.inPlace thread .started standing) ?_⟩
  intro place same
  exact (Option.some.inj (standing.symm.trans same)).symm

theorem unheld_of_connect {clientFd : Int} (idle : server.creating = false) (valid : 0 ≤ clientFd)
    (unused : server.descriptors clientFd = none) :
    Unheld (server.connect clientFd) clientFd server.accepted := by
  have count : server.threads.length = server.accepted := by
    have := orderly.numbered
    rwa [idle] at this
  refine ⟨connect_at server clientFd, ⟨valid, Nat.lt_succ_self _⟩, ?_, ?_, ?_⟩
  · intro other holds
    by_contra differs
    rw [connect_other server differs] at holds
    have := (orderly.opened other _ holds).2
    omega
  · apply orderly.silent
    rw [List.getElem?_eq_none (Nat.le_of_eq count)]
    rfl
  · intro place member holds
    obtain ⟨thread, standing⟩ := List.mem_iff_getElem?.mp member
    exact absurd ((held_descriptor orderly standing holds).symm.trans unused) nofun

theorem dropped_of_late {next : ThreadedServer} {event : EchoEvent}
    (stepped : server.step event = some next) (late : ¬InTime server event) :
    ∃ clientFd connection, Dropped next clientFd connection := by
  have moved := threaded_step_cases stepped
  cases event with
  | accepts newFd =>
      obtain ⟨⟨idle, valid, unused⟩, rfl⟩ := moved
      by_cases started : .started ∈ server.threads
      · obtain ⟨connection, unheld⟩ := unheld_of_started orderly started
        have ⟨connected, differs⟩ := unheld_connect unheld unused
        exact ⟨_, _, dropped_of_store connected differs⟩
      · have zero : ¬0 < newFd := fun positive => late ⟨started, positive⟩
        have unheld := unheld_of_connect orderly idle valid unused
        exact ⟨newFd, _, ⟨unheld.isOpen, unheld.valid, unheld.apart, unheld.silent,
          unheld.notHeld⟩, .inr ⟨decide_eq_false zero, started⟩⟩
  | acceptFails =>
      obtain ⟨_, rfl⟩ := moved
      obtain ⟨connection, unheld⟩ := unheld_of_started orderly (not_not.mp late)
      exact ⟨_, _, dropped_of_store unheld (unheld_failed unheld)⟩
  | getsocknameFails newFd =>
      obtain ⟨⟨idle, valid, unused⟩, rfl⟩ := moved
      have unheld := unheld_of_connect orderly idle valid unused
      exact ⟨_, _, dropped_of_store unheld (unheld_failed unheld)⟩
  | createFails =>
      obtain ⟨creating, rfl⟩ := moved
      have isOpen := orderly.created creating
      have unheld : Unheld server server.clientSock server.threads.length := by
        apply unheld_of_new orderly isOpen
        intro place standing
        simp at standing
      refine ⟨_, _, ⟨unheld.isOpen, unheld.valid, unheld.apart, unheld.silent, unheld.notHeld⟩,
        .inr ⟨rfl, fun started => ?_⟩⟩
      obtain ⟨thread, standing⟩ := List.mem_iff_getElem?.mp started
      have same := isOpen.symm.trans (orderly.inPlace thread .started standing)
      rw [← Option.some.inj same] at standing
      simp at standing
  | creates => exact absurd trivial late
  | takes thread => exact absurd trivial late
  | reads thread message => exact absurd trivial late
  | writes thread => exact absurd trivial late
  | closes thread => exact absurd trivial late

omit orderly in
theorem goes_self {thread : Nat} {before : ThreadMain}
    (standing : server.threads[thread]? = some before) (place : ThreadMain) :
    (server.goes thread place).threads[thread]? = some place :=
  List.getElem?_set_self (List.getElem?_eq_some_iff.mp standing).1

omit orderly in
theorem goes_other {thread number : Nat} (differs : number ≠ thread) (place : ThreadMain) :
    (server.goes thread place).threads[number]? = server.threads[number]? :=
  List.getElem?_set_ne differs.symm

omit orderly in
theorem goes_wrote {thread : Nat} {before place : ThreadMain}
    (standing : server.threads[thread]? = some before) (same : place.wrote = before.wrote)
    (number : Nat) : ((server.goes thread place).threads[number]?).any ThreadMain.wrote =
      (server.threads[number]?).any ThreadMain.wrote := by
  by_cases self : number = thread
  · rw [self, goes_self standing, standing]
    exact same
  · rw [goes_other self]

omit orderly in
theorem in_place_of_same {after : ThreadedServer} {thread : Nat} {place : ThreadMain}
    (inPlace : InPlace server thread place)
    (descriptors : ∀ clientFd, after.descriptors clientFd = some thread ↔
      server.descriptors clientFd = some thread)
    (stored : place = .started → after.clientSock = server.clientSock) :
    InPlace after thread place := by
  cases place with
  | started =>
      have holds := (descriptors server.clientSock).mpr inPlace
      rwa [← stored rfl] at holds
  | took clientFd => exact (descriptors clientFd).mpr inPlace
  | hasRead clientFd source buffer => exact ⟨(descriptors clientFd).mpr inPlace.1, inPlace.2⟩
  | hasWritten clientFd => exact (descriptors clientFd).mpr inPlace
  | ended => exact fun clientFd holds => inPlace clientFd ((descriptors clientFd).mp holds)

theorem goes_in_place {thread number : Nat} {before place other : ThreadMain}
    (standing : server.threads[thread]? = some before) (inPlace : InPlace server thread place)
    (holds : (server.goes thread place).threads[number]? = some other) :
    InPlace server number other := by
  by_cases self : number = thread
  · subst self
    obtain rfl := Option.some.inj ((goes_self standing place).symm.trans holds)
    exact inPlace
  · rw [goes_other self] at holds
    exact orderly.inPlace number other holds

theorem orderly_goes {thread : Nat} {before place : ThreadMain}
    (standing : server.threads[thread]? = some before) (same : place.wrote = before.wrote)
    (inPlace : InPlace server thread place) : Orderly (server.goes thread place) where
  numbered := (congrArg (· + _) List.length_set).trans orderly.numbered
  opened := orderly.opened
  apart := orderly.apart
  created := by
    intro creating
    rw [ThreadedServer.goes, List.length_set]
    exact orderly.created creating
  inPlace := by
    intro number other holds
    have kept := goes_in_place orderly standing inPlace holds
    exact in_place_of_same kept (fun _ => Iff.rfl) (fun _ => rfl)
  echoed := by
    intro connection wrote
    rw [goes_wrote standing same] at wrote
    exact orderly.echoed connection wrote
  silent := by
    intro connection wrote
    rw [goes_wrote standing same] at wrote
    exact orderly.silent connection wrote

theorem orderly_accept {clientFd : Int} (idle : server.creating = false) (positive : 0 < clientFd)
    (unused : server.descriptors clientFd = none) (noneStarted : .started ∉ server.threads) :
    Orderly ((server.connect clientFd).store clientFd) := by
  have count : server.threads.length = server.accepted := by
    have := orderly.numbered
    rwa [idle] at this
  have differs : ∀ {other connection}, server.descriptors other = some connection →
      other ≠ clientFd := by
    intro other connection holds same
    rw [same, unused] at holds
    cases holds
  have cases : ∀ {other connection}, (server.connect clientFd).descriptors other =
      some connection → (other = clientFd ∧ connection = server.accepted) ∨
        server.descriptors other = some connection := by
    intro other connection holds
    by_cases new : other = clientFd
    · rw [new, connect_at] at holds
      exact .inl ⟨new, (Option.some.inj holds).symm⟩
    · exact .inr ((connect_other server new).symm.trans holds)
  refine ⟨?_, ?_, ?_, ?_, ?_, orderly.echoed, orderly.silent⟩
  · show server.threads.length + (decide (0 < clientFd)).toNat = server.accepted + 1
    rw [decide_eq_true positive, count]
    rfl
  · intro other connection holds
    rcases cases holds with ⟨rfl, rfl⟩ | before
    · exact ⟨positive.le, Nat.lt_succ_self _⟩
    · have := orderly.opened other connection before
      exact ⟨this.1, Nat.lt_succ_of_lt this.2⟩
  · intro first second connection left right
    rcases cases left with ⟨rfl, rfl⟩ | before <;> rcases cases right with ⟨rfl, same⟩ | after
    · rfl
    · exact absurd (orderly.opened second _ after).2 (Nat.lt_irrefl _)
    · exact absurd (orderly.opened first _ (same ▸ before)).2 (Nat.lt_irrefl _)
    · exact orderly.apart first second connection before after
  · intro _
    rw [show ((server.connect clientFd).store clientFd).threads = server.threads from rfl, count]
    exact connect_at server clientFd
  · intro thread place standing
    have inside : thread < server.accepted :=
      count ▸ (List.getElem?_eq_some_iff.mp standing).1
    apply in_place_of_same (orderly.inPlace thread place standing)
    · intro other
      refine ⟨fun holds => ?_, fun holds => ?_⟩
      · rcases cases holds with ⟨_, rfl⟩ | before
        · exact absurd inside (Nat.lt_irrefl _)
        · exact before
      · exact (connect_other server (differs holds)).trans holds
    · rintro rfl
      exact absurd (List.mem_of_getElem? standing) noneStarted

theorem orderly_store (idle : server.creating = false) (noneStarted : .started ∉ server.threads) :
    Orderly (server.store (-1)) := by
  refine ⟨?_, orderly.opened, orderly.apart, nofun, ?_, orderly.echoed, orderly.silent⟩
  · have := orderly.numbered
    rwa [idle] at this
  · intro thread place standing
    apply in_place_of_same (orderly.inPlace thread place standing)
    · exact fun _ => Iff.rfl
    · rintro rfl
      exact absurd (List.mem_of_getElem? standing) noneStarted

theorem orderly_create (creating : server.creating = true) : Orderly server.create := by
  have wrote : ∀ number : Nat, ((server.threads ++ [.started])[number]?).any ThreadMain.wrote =
      (server.threads[number]?).any ThreadMain.wrote := by
    intro number
    rw [List.getElem?_append]
    split
    · rfl
    · rename_i outside
      rw [List.getElem?_eq_none (Nat.le_of_not_lt outside)]
      cases number - server.threads.length <;> rfl
  refine ⟨?_, orderly.opened, orderly.apart, nofun, ?_, ?_, ?_⟩
  · have := orderly.numbered
    rw [creating] at this
    rwa [ThreadedServer.create, List.length_append]
  · intro thread place standing
    have kept : InPlace server thread place := by
      rcases Nat.lt_trichotomy thread server.threads.length with before | rfl | after
      · rw [ThreadedServer.create, List.getElem?_append_left before] at standing
        exact orderly.inPlace thread place standing
      · rw [ThreadedServer.create, List.getElem?_concat_length] at standing
        cases standing
        exact orderly.created creating
      · rw [ThreadedServer.create, List.getElem?_eq_none (by simpa using Nat.succ_le_of_lt after)]
          at standing
        cases standing
    exact in_place_of_same kept (fun _ => Iff.rfl) (fun _ => rfl)
  · intro connection holds
    exact orderly.echoed connection ((wrote connection).symm.trans holds)
  · intro connection holds
    exact orderly.silent connection ((wrote connection).symm.trans holds)

theorem orderly_write {thread : Nat} {clientFd : Int} {source : Option Nat}
    {buffer : List Byte} (text : List Byte)
    (standing : server.threads[thread]? = some (.hasRead clientFd source buffer)) :
    Orderly ((server.goes thread (.hasWritten clientFd)).write
      ⟨thread, source, server.descriptors clientFd, text⟩) := by
  obtain ⟨isOpen, read⟩ := orderly.inPlace thread _ standing
  rw [isOpen, read]
  refine ⟨(congrArg (· + _) List.length_set).trans orderly.numbered, orderly.opened,
    orderly.apart, ?_, ?_, ?_, ?_⟩
  · intro creating
    rw [ThreadedServer.write, ThreadedServer.goes, List.length_set]
    exact orderly.created creating
  · intro number other holds
    have written : InPlace server thread (.hasWritten clientFd) := isOpen
    have kept := goes_in_place orderly standing written holds
    exact in_place_of_same kept (fun _ => Iff.rfl) (fun _ => rfl)
  · intro connection wrote
    show ∃ _, _
    rw [ThreadedServer.write, List.filter_append]
    by_cases self : connection = thread
    · subst self
      have silent := orderly.silent connection (by rw [standing]; rfl)
      refine ⟨text, ?_⟩
      rw [List.filter_eq_nil_iff.mpr (by simpa [ThreadedServer.goes] using silent)]
      simp
    · have before := orderly.echoed connection (by
        rw [← goes_other self]
        exact wrote)
      refine before.imp fun other holds => ?_
      rw [show (server.goes thread (.hasWritten clientFd)).writes = server.writes from rfl, holds]
      simp [Ne.symm self]
  · intro connection wrote write member
    have differs : connection ≠ thread := by
      rintro rfl
      have := (congrArg (Option.any ThreadMain.wrote)
        (goes_self standing (.hasWritten clientFd))).symm.trans wrote
      cases this
    rcases List.mem_append.mp member with before | last
    · apply orderly.silent connection _ write before
      rw [← goes_other differs]
      exact wrote
    · rw [List.mem_singleton.mp last]
      exact fun same => differs (Option.some.inj same).symm

theorem orderly_close {thread : Nat} {clientFd : Int}
    (standing : server.threads[thread]? = some (.hasWritten clientFd)) :
    Orderly ((server.goes thread .ended).close clientFd) := by
  have isOpen : server.descriptors clientFd = some thread := orderly.inPlace thread _ standing
  have inside : thread < server.threads.length := (List.getElem?_eq_some_iff.mp standing).1
  have kept : ∀ {other connection},
      ((server.goes thread .ended).close clientFd).descriptors other = some connection →
        other ≠ clientFd ∧ server.descriptors other = some connection := by
    intro other connection holds
    by_cases closed : other = clientFd
    · rw [closed, close_at] at holds
      cases holds
    · exact ⟨closed, (close_other (server.goes thread .ended) closed).symm.trans holds⟩
  have others : ∀ {connection}, connection ≠ thread → ∀ other,
      ((server.goes thread .ended).close clientFd).descriptors other = some connection ↔
        server.descriptors other = some connection := by
    intro connection differs other
    refine ⟨fun holds => (kept holds).2, fun holds => ?_⟩
    have elsewhere : other ≠ clientFd := by
      rintro rfl
      exact differs (Option.some.inj (holds.symm.trans isOpen))
    exact (close_other _ elsewhere).trans holds
  have both : ThreadMain.ended.wrote = (ThreadMain.hasWritten clientFd).wrote := rfl
  have same := goes_wrote standing both
  refine ⟨(congrArg (· + _) List.length_set).trans orderly.numbered, ?_, ?_, ?_, ?_, ?_, ?_⟩
  · exact fun other connection holds => orderly.opened other connection (kept holds).2
  · intro first second connection left right
    exact orderly.apart first second connection (kept left).2 (kept right).2
  · intro creating
    rw [ThreadedServer.close, ThreadedServer.goes, List.length_set]
    exact (others inside.ne' _).mpr (orderly.created creating)
  · intro number place holds
    by_cases self : number = thread
    · subst self
      obtain rfl := Option.some.inj ((goes_self standing ThreadMain.ended).symm.trans holds)
      intro other isThis
      exact (kept isThis).1 (orderly.apart other clientFd _ (kept isThis).2 isOpen)
    · have before := orderly.inPlace number place ((goes_other self _).symm.trans holds)
      exact in_place_of_same before (others self) (fun _ => rfl)
  · intro connection wrote
    exact orderly.echoed connection ((same connection).symm.trans wrote)
  · intro connection wrote
    exact orderly.silent connection ((same connection).symm.trans wrote)

theorem orderly_step {next : ThreadedServer} {event : EchoEvent} (inTime : InTime server event)
    (stepped : server.step event = some next) : Orderly next := by
  have moved := threaded_step_cases stepped
  cases event with
  | accepts clientFd =>
      obtain ⟨⟨idle, _, unused⟩, rfl⟩ := moved
      exact orderly_accept orderly idle inTime.2 unused inTime.1
  | acceptFails =>
      obtain ⟨idle, rfl⟩ := moved
      exact orderly_store orderly idle inTime
  | getsocknameFails clientFd => exact absurd inTime id
  | creates =>
      obtain ⟨creating, rfl⟩ := moved
      exact orderly_create orderly creating
  | createFails => exact absurd inTime id
  | takes thread =>
      obtain ⟨standing, rfl⟩ := moved
      have isOpen : server.descriptors server.clientSock = some thread :=
        orderly.inPlace thread _ standing
      exact orderly_goes orderly standing rfl isOpen
  | reads thread message =>
      obtain ⟨clientFd, standing, rfl⟩ := moved
      have isOpen := orderly.inPlace thread _ standing
      exact orderly_goes orderly standing rfl ⟨isOpen, isOpen⟩
  | writes thread =>
      obtain ⟨clientFd, source, buffer, length, standing, rfl⟩ := moved
      exact orderly_write orderly _ standing
  | closes thread =>
      obtain ⟨clientFd, standing, rfl⟩ := moved
      exact orderly_close orderly standing

theorem served_of_orderly (finished : server.Finished) : AllServed server := by
  have count : server.threads.length = server.accepted := by
    have := orderly.numbered
    rwa [finished.1] at this
  have ended : ∀ connection < server.accepted,
      server.threads[connection]? = some .ended := by
    intro connection inside
    rw [← count] at inside
    rw [List.getElem?_eq_getElem inside]
    exact congrArg some (finished.2 _ (List.getElem_mem inside))
  refine ⟨fun connection inside => ?_, fun clientFd => ?_⟩
  · apply orderly.echoed connection
    rw [ended connection inside]
    rfl
  · cases holds : server.descriptors clientFd with
    | none => rfl
    | some connection =>
        have inside := (orderly.opened clientFd connection holds).2
        exact absurd holds (orderly.inPlace connection _ (ended connection inside) clientFd)

end Orderly

theorem dropped_run {server last : ThreadedServer} {clientFd : Int} {connection : Nat}
    (dropped : Dropped server clientFd connection) {events : List EchoEvent}
    (run : events.foldlM ThreadedServer.step server = some last) :
    Dropped last clientFd connection :=
  fold_keeps ThreadedServer.step (Dropped · clientFd connection) events
    (fun _ _ _ _ before stepped => dropped_step before stepped) dropped run

theorem orderly_or_dropped {server last : ThreadedServer} (orderly : Orderly server)
    {events : List EchoEvent} (run : events.foldlM ThreadedServer.step server = some last) :
    (Throughout ThreadedServer.step InTime server events ∧ Orderly last) ∨
      (¬Throughout ThreadedServer.step InTime server events ∧
        ∃ clientFd connection, Dropped last clientFd connection) := by
  induction events generalizing server with
  | nil =>
      cases run
      exact .inl ⟨trivial, orderly⟩
  | cons event events ih =>
      rw [List.foldlM_cons] at run
      obtain ⟨middle, first, later⟩ := Option.bind_eq_some_iff.mp run
      by_cases inTime : InTime server event
      · have next := orderly_step orderly inTime first
        rcases ih next later with ⟨rest, kept⟩ | ⟨late, dropped⟩
        · refine .inl ⟨⟨inTime, fun other isNext => ?_⟩, kept⟩
          obtain rfl := Option.some.inj (first.symm.trans isNext)
          exact rest
        · exact .inr ⟨fun along => late (along.2 middle first), dropped⟩
      · obtain ⟨clientFd, connection, dropped⟩ := dropped_of_late orderly first inTime
        exact .inr ⟨fun along => inTime along.1, clientFd, connection, dropped_run dropped later⟩

/-- The second `accept` returns before the first thread runs: both threads take descriptor 5. -/
def lateThread : List EchoEvent :=
  [.accepts 4, .creates, .accepts 5, .creates, .takes 0, .takes 1, .reads 0 (some [104, 105]),
    .writes 0, .closes 0, .reads 1 none, .writes 1, .closes 1]

def lateServer : Option ThreadedServer :=
  lateThread.foldlM ThreadedServer.step (ThreadedServer.start 0)

theorem late_thread_runs : lateServer.isSome := by decide

end MiniOverlay
