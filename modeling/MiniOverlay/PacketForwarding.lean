import MiniOverlay.PacketIo
import MiniOverlay.RoutingTable
import Mathlib.Logic.Function.Basic

/-!
# Forwarding packets from node to node

Every node has an ON and an MNP process. `waitNetwork` sends the packets of the MNP
process to neighbours, `listen_to_neighbor` gives the packets of a neighbour to the MNP
process, and `pkthandler` passes a packet to the MRT process or to its next hop. The
connections stay open and keep what is sent and its order, and no table changes.
-/

namespace MiniOverlay

open DelimitedFrames FixedByteCodec

set_option autoImplicit false

/-- `nbr_entry_t` without the IP address. -/
structure NbrEntry where
  nodeID : Int32
  conn : Int32
  deriving DecidableEq

structure NbrTable where
  entries : List NbrEntry
  distinct : (entries.map NbrEntry.nodeID).Nodup
  positive : ∀ entry ∈ entries, 0 < entry.nodeID
  single : ∀ entry ∈ entries, entry.nodeID ≠ broadcastNodeID
  connected : ∀ entry ∈ entries, 0 ≤ entry.conn

structure OverlayNode where
  nt : NbrTable
  routingTable : Routingtable

structure Network where
  nodes : Int32 → Option OverlayNode
  inside : ∀ nodeID node, nodes nodeID = some node →
    ∀ entry ∈ node.nt.entries, (nodes entry.nodeID).isSome

def sendpktBlock (pkt : MnpPkt) : Option (List Byte) :=
  if sizeofMnpHdr + pkt.header.length.toNat ≤ sizeofMnpPkt then some pkt.sentBytes else none

theorem sendpkt_block (pkt : MnpPkt) : sendpkt pkt = (sendpktBlock pkt).map sendDelimited := by
  rw [sendpkt, sendpktBlock]
  split_ifs <;> rfl

def recvpktBlock (pkt : MnpPkt) (block : List Byte) : Option MnpPkt :=
  if block.length ≤ sizeofMnpPkt then some (pkt.copyInto block) else none

/-- The entries for which the loops of `waitNetwork` call `sendpkt`. -/
def waitNetworkEntries (nt : List NbrEntry) (nextNode : Int32) : List NbrEntry :=
  if nextNode = broadcastNodeID then nt.filter fun entry => 0 ≤ entry.conn
  else nt.filter fun entry => entry.nodeID = nextNode ∧ 0 ≤ entry.conn

/-- What `waitNetwork` sends for one packet, with the neighbour it is sent to. -/
def waitNetworkTurn (nt : List NbrEntry) (arg : SendpktArg) : Option (List (Int32 × List Byte)) :=
  (waitNetworkEntries nt arg.nextNodeID).mapM fun entry =>
    (sendpktBlock arg.pkt).map (Prod.mk entry.nodeID)

inductive HandlerEffect where
  | overlaySendpkt (nextNodeID : Int32) (pkt : MnpPkt)
  | forwardsegToMRT (srcNodeID : Int32) (segment : Seg)
  deriving DecidableEq

/-- `memset` and `memcpy` over the segment that is already in the variable. -/
def Seg.copyInto (segment : Seg) (buf : List Byte) : Seg :=
  segCodec.decode (buf ++ (segCodec.encode segment).drop buf.length)

/-- One turn of the loop of `pkthandler`, with what `segment` held before. The tables
stay as they are, so a ROUTE_UPDATE packet does nothing here. -/
def pkthandlerTurn (myNodeID : Int32) (routingTable : Routingtable) (segment : Seg)
    (packet : MnpPkt) : Option (Seg × List HandlerEffect) :=
  if packet.header.type = PktType.routeUpdate then some (segment, [])
  else if packet.header.destNodeID = myNodeID ∧ packet.header.type = PktType.mnp then
    if packet.header.length.toNat ≤ sizeofSeg then
      let received := segment.copyInto packet.payload
      some (received, [.forwardsegToMRT packet.header.srcNodeID received])
    else none
  else if packet.header.destNodeID ≠ myNodeID ∧ packet.header.type = PktType.mnp then
    some (segment,
      [.overlaySendpkt (routingtableGetnextnode routingTable packet.header.destNodeID) packet])
  else some (segment, [])

/-- A call of `forwardsegToMRT` with the node that makes it. -/
structure ForwardsegCall where
  nodeID : Int32
  srcNodeID : Int32
  segment : Seg
  deriving DecidableEq

/-- What is on the connections of every node, the variables that keep their contents
from one packet to the next, and the calls made so far. `links` is by sender and
receiver, `received` by receiver and sender. -/
structure OverlayState where
  toOverlay : Int32 → List SendpktArg
  links : Int32 → Int32 → List (List Byte)
  received : Int32 → Int32 → MnpPkt
  toNetwork : Int32 → List MnpPkt
  segment : Int32 → Seg
  calls : List ForwardsegCall

inductive ForwardEvent where
  | waitNetwork (nodeID : Int32)
  | listenToNeighbor (nodeID nbrID : Int32)
  | pkthandler (nodeID : Int32)
  deriving DecidableEq

def argsOf (effects : List HandlerEffect) : List SendpktArg :=
  effects.filterMap fun
    | .overlaySendpkt nextNodeID pkt => some ⟨nextNodeID, pkt⟩
    | .forwardsegToMRT _ _ => none

def callsOf (nodeID : Int32) (effects : List HandlerEffect) : List ForwardsegCall :=
  effects.filterMap fun
    | .overlaySendpkt _ _ => none
    | .forwardsegToMRT srcNodeID segment => some ⟨nodeID, srcNodeID, segment⟩

def blocksTo (nbrID : Int32) (sent : List (Int32 × List Byte)) : List (List Byte) :=
  sent.filterMap fun block => if block.1 = nbrID then some block.2 else none

def Network.step (net : Network) (state : OverlayState) : ForwardEvent → Option OverlayState
  | .waitNetwork nodeID => do
      let node ← net.nodes nodeID
      match state.toOverlay nodeID with
      | [] => none
      | arg :: args => do
          let sent ← waitNetworkTurn node.nt.entries arg
          return { state with
            toOverlay := Function.update state.toOverlay nodeID args
            links := Function.update state.links nodeID fun nbrID =>
              state.links nodeID nbrID ++ blocksTo nbrID sent }
  | .listenToNeighbor nodeID nbrID => do
      let _ ← net.nodes nodeID
      match state.links nbrID nodeID with
      | [] => none
      | block :: blocks => do
          let pkt ← recvpktBlock (state.received nodeID nbrID) block
          return { state with
            links := Function.update state.links nbrID
              (Function.update (state.links nbrID) nodeID blocks)
            received := Function.update state.received nodeID
              (Function.update (state.received nodeID) nbrID pkt)
            toNetwork := Function.update state.toNetwork nodeID
              (state.toNetwork nodeID ++ [pkt]) }
  | .pkthandler nodeID => do
      let node ← net.nodes nodeID
      match state.toNetwork nodeID with
      | [] => none
      | packet :: packets => do
          let handled ← pkthandlerTurn nodeID node.routingTable (state.segment nodeID) packet
          return { state with
            toNetwork := Function.update state.toNetwork nodeID packets
            segment := Function.update state.segment nodeID handled.1
            toOverlay := Function.update state.toOverlay nodeID
              (state.toOverlay nodeID ++ argsOf handled.2)
            calls := state.calls ++ callsOf nodeID handled.2 }

theorem step_wait_network {net : Network} {state : OverlayState} {nodeID : Int32}
    {node : OverlayNode} {arg : SendpktArg} {args : List SendpktArg}
    {sent : List (Int32 × List Byte)} (held : net.nodes nodeID = some node)
    (waiting : state.toOverlay nodeID = arg :: args)
    (turn : waitNetworkTurn node.nt.entries arg = some sent) :
    net.step state (.waitNetwork nodeID) = some { state with
      toOverlay := Function.update state.toOverlay nodeID args
      links := Function.update state.links nodeID fun nbrID =>
        state.links nodeID nbrID ++ blocksTo nbrID sent } := by
  simp only [Network.step, held, waiting, turn, Option.bind_eq_bind, Option.bind_some]
  rfl

theorem step_listen {net : Network} {state : OverlayState} {nodeID nbrID : Int32}
    {block : List Byte} {blocks : List (List Byte)} {pkt : MnpPkt}
    (inside : (net.nodes nodeID).isSome) (crossing : state.links nbrID nodeID = block :: blocks)
    (got : recvpktBlock (state.received nodeID nbrID) block = some pkt) :
    net.step state (.listenToNeighbor nodeID nbrID) = some { state with
      links := Function.update state.links nbrID
        (Function.update (state.links nbrID) nodeID blocks)
      received := Function.update state.received nodeID
        (Function.update (state.received nodeID) nbrID pkt)
      toNetwork := Function.update state.toNetwork nodeID
        (state.toNetwork nodeID ++ [pkt]) } := by
  obtain ⟨node, held⟩ := Option.isSome_iff_exists.mp inside
  simp only [Network.step, held, crossing, got, Option.bind_eq_bind, Option.bind_some]
  rfl

theorem step_pkthandler {net : Network} {state : OverlayState} {nodeID : Int32}
    {node : OverlayNode} {packet : MnpPkt} {packets : List MnpPkt}
    {handled : Seg × List HandlerEffect} (held : net.nodes nodeID = some node)
    (arrived : state.toNetwork nodeID = packet :: packets)
    (turn : pkthandlerTurn nodeID node.routingTable (state.segment nodeID) packet = some handled) :
    net.step state (.pkthandler nodeID) = some { state with
      toNetwork := Function.update state.toNetwork nodeID packets
      segment := Function.update state.segment nodeID handled.1
      toOverlay := Function.update state.toOverlay nodeID
        (state.toOverlay nodeID ++ argsOf handled.2)
      calls := state.calls ++ callsOf nodeID handled.2 } := by
  simp only [Network.step, held, arrived, turn, Option.bind_eq_bind, Option.bind_some]
  rfl

def Network.run (net : Network) (state : OverlayState) (events : List ForwardEvent) :
    Option OverlayState :=
  events.foldlM net.step state

end MiniOverlay
