import MiniOverlay.MrtServerSocket
import MiniOverlay.SlotTable

/-!
# The sockets of one server

`p_server_tcb_table` of `server/mrt_server.c` and the loop of `seghandler` on it.
A slot is empty or points to a TCB of its own, as `create_TCB_table` fills it;
`mrt_server_close` is left out, which frees a TCB and leaves the slot.
-/

namespace MiniOverlay

open SlotTable

set_option autoImplicit false

abbrev ServerTable := Table ServerTcb maxTransportConnections

def firstSlot : Fin maxTransportConnections := ⟨0, by decide⟩

def secondSlot : Fin maxTransportConnections := ⟨1, by decide⟩

def fetchServerTCB (tables : ServerTable) (serverPort : UInt32) :
    Option (Fin maxTransportConnections) :=
  fetch ServerTcb.svrPortNum tables serverPort

/-- What one turn of the loop of `seghandler` does with a received segment. The
result of `fetch_server_TCB` is followed without a test. -/
def serverSeghandlerTurn (tables : ServerTable) (sourceNodeID : Int32) (segmentBuffer : Seg) :
    Option (ServerTable × List ServerEffect) := do
  let index ← fetchServerTCB tables segmentBuffer.header.destPort
  let table ← tables index
  let result ← serverSeghandler table sourceNodeID segmentBuffer
  return (Function.update tables index (some result.1), result.2)

theorem turn_without_socket (tables : ServerTable) (sourceNodeID : Int32) (seg : Seg)
    (absent : fetchServerTCB tables seg.header.destPort = none) :
    serverSeghandlerTurn tables sourceNodeID seg = none := by
  rw [serverSeghandlerTurn, absent]
  rfl

theorem turn_with_socket (tables : ServerTable) (sourceNodeID : Int32) (seg : Seg)
    (index : Fin maxTransportConnections) (table : ServerTcb)
    (found : fetchServerTCB tables seg.header.destPort = some index)
    (held : tables index = some table) :
    serverSeghandlerTurn tables sourceNodeID seg =
      (serverSeghandler table sourceNodeID seg).map fun result =>
        (Function.update tables index (some result.1), result.2) := by
  rw [serverSeghandlerTurn, found, Option.bind_eq_bind, Option.bind_some, held,
    Option.bind_eq_bind, Option.bind_some]
  cases serverSeghandler table sourceNodeID seg with
  | none => rfl
  | some result => rfl

theorem fetched_table {tables : ServerTable} {serverPort : UInt32}
    {index : Fin maxTransportConnections} (found : fetchServerTCB tables serverPort = some index) :
    ∃ table, tables index = some table ∧ table.svrPortNum = serverPort :=
  fetch_entry found

end MiniOverlay
