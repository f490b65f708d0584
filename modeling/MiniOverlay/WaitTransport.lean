import MiniOverlay.PacketIo
import MiniOverlay.RoutingTable
import MiniOverlay.SegmentIo

/-!
# Accepting transport connections

`waitTransport` of `network/network.c`. The thread accepts one MRT process
after the other, reads a segment and sends packets while `segment_status` is
positive. The inner loop does not read again, so nothing in it changes
`segment_status` or the packet.
-/

namespace MiniOverlay

open DelimitedFrames FixedByteCodec

set_option autoImplicit false

inductive WaitEvent where
  | accept
  | overlaySendpkt (nextNodeID : Int32) (pkt : MnpPkt)
  | close
  deriving DecidableEq

/-- Where the thread is between two turns of its loops. `backlog` holds the bytes
that each MRT process still to be accepted writes before it closes, and
`transportConnection` those of the accepted one that are not read yet. -/
inductive WaitState where
  | accepting (packet : MnpPkt) (backlog : List (List Byte))
  | sending (segmentStatus : Int) (packet : MnpPkt) (transportConnection : List Byte)
      (backlog : List (List Byte))
  | aborted

def MnpPkt.prepared (packet : MnpPkt) (myNodeID : Int32) : MnpPkt :=
  { packet with
    header := { packet.header with
      type := PktType.mnp, srcNodeID := myNodeID, length := UInt16.ofNat sizeofSeg } }

/-- The packet after `getsegToSend` has stored a segment in it. -/
def MnpPkt.withSegment (packet : MnpPkt) (arg : SendsegArg) : MnpPkt :=
  { header := { packet.header with destNodeID := arg.nodeID }
    data := padVector maxPktLen (segCodec.encode arg.seg) }

/-- One turn of the outer loop up to the inner one, or one turn of the inner
loop. `accept` blocks while no process connects. -/
def waitStep (myNodeID : Int32) (rt : Routingtable) : WaitState → List WaitEvent × WaitState
  | .accepting packet [] => ([], .accepting packet [])
  | .accepting packet (transportConnection :: backlog) =>
      match getsegToSend transportConnection with
      | .got arg rest =>
          ([.accept], .sending 1 ((packet.prepared myNodeID).withSegment arg) rest backlog)
      | .ended => ([.accept], .sending (-1) (packet.prepared myNodeID) [] backlog)
      | .assertionFailed => ([.accept], .aborted)
      | .overrun => ([.accept], .aborted)
  | .sending segmentStatus packet transportConnection backlog =>
      if 0 < segmentStatus then
        ([.overlaySendpkt (routingtableGetnextnode rt packet.header.destNodeID) packet],
          .sending segmentStatus packet transportConnection backlog)
      else ([.close], .accepting packet backlog)
  | .aborted => ([], .aborted)

/-- The first turns of the thread; `tables turn` is the routing table at that
turn, which other threads may change. -/
def waitTransport (myNodeID : Int32) :
    Nat → (Nat → Routingtable) → WaitState → List WaitEvent × WaitState
  | 0, _, state => ([], state)
  | turns + 1, tables, state =>
      let step := waitStep myNodeID (tables 0) state
      let later := waitTransport myNodeID turns (fun turn => tables (turn + 1)) step.2
      (step.1 ++ later.1, later.2)

theorem wait_accepts (myNodeID : Int32) (rt : Routingtable) (packet : MnpPkt)
    (transportConnection : List Byte) (backlog : List (List Byte)) :
    (waitStep myNodeID rt (.accepting packet (transportConnection :: backlog))).1 =
      [.accept] := by
  simp only [waitStep]
  cases getsegToSend transportConnection <;> rfl

def transportStream (frames : List SendsegArg) : List Byte :=
  frames.flatMap fun arg => (mnpSendseg arg.nodeID arg.seg).flatten

theorem transport_stream_eq (frames : List SendsegArg) :
    transportStream frames = frames.flatMap (recordFrame sendsegArgCodec) :=
  congrArg (frames.flatMap ·) (funext fun _ => send_delimited_flatten _)

/-- The packet for one frame: from this node, to the node of the frame, carrying
its segment. -/
def transportPacket (myNodeID : Int32) (arg : SendsegArg) : MnpPkt :=
  { header := ⟨myNodeID, arg.nodeID, UInt16.ofNat sizeofSeg, PktType.mnp⟩
    data := padVector maxPktLen (segCodec.encode arg.seg) }

theorem prepared_with_segment (packet : MnpPkt) (myNodeID : Int32) (arg : SendsegArg) :
    (packet.prepared myNodeID).withSegment arg = transportPacket myNodeID arg := rfl

theorem transport_packet_data (myNodeID : Int32) (arg : SendsegArg) :
    (transportPacket myNodeID arg).data.toList = segCodec.encode arg.seg := by
  have length : (segCodec.encode arg.seg).length = maxPktLen := segCodec.encode_length arg.seg
  rw [transportPacket, pad_vector_to_list _ _ (Nat.le_of_eq length), length]
  simp

/-- The events when every frame is sent exactly once and the next process is
accepted after it. -/
def transportEvents (myNodeID : Int32) (tables : Nat → Routingtable) (frames : List SendsegArg) :
    List WaitEvent :=
  .accept :: (frames.zipIdx 1).map (fun (arg, turn) =>
    .overlaySendpkt (routingtableGetnextnode (tables turn) arg.nodeID)
      (transportPacket myNodeID arg)) ++ [.close, .accept]

def SendsEachSegmentOnce (myNodeID : Int32) (tables : Nat → Routingtable) (packet : MnpPkt)
    (frames : List SendsegArg) (next : List Byte) (backlog : List (List Byte)) : Prop :=
  ∃ turns, (waitTransport myNodeID turns tables
      (.accepting packet (transportStream frames :: next :: backlog))).1 =
    transportEvents myNodeID tables frames

theorem wait_repeats (myNodeID : Int32) (turns : Nat) (tables : Nat → Routingtable)
    (packet : MnpPkt) (transportConnection : List Byte) (backlog : List (List Byte)) :
    waitTransport myNodeID turns tables (.sending 1 packet transportConnection backlog) =
      ((List.range turns).map fun turn =>
        .overlaySendpkt (routingtableGetnextnode (tables turn) packet.header.destNodeID) packet,
        .sending 1 packet transportConnection backlog) := by
  induction turns generalizing tables with
  | zero => rfl
  | succ turns ih =>
      have positive : (0 : Int) < 1 := by decide
      simp only [waitTransport, waitStep, if_pos positive, ih, List.range_succ_eq_map,
        List.map_cons, List.map_map, List.singleton_append, Function.comp_def]

theorem wait_never_closes (myNodeID : Int32) (turns : Nat) (tables : Nat → Routingtable)
    (packet : MnpPkt) (arg : SendsegArg) (frames : List SendsegArg)
    (backlog : List (List Byte)) (clean : Clean markers (sendsegArgCodec.encode arg)) :
    .close ∉ (waitTransport myNodeID turns tables
      (.accepting packet (transportStream (arg :: frames) :: backlog))).1 := by
  cases turns with
  | zero => simp [waitTransport]
  | succ turns =>
      have received : getsegToSend (transportStream (arg :: frames)) =
          .got arg (frames.flatMap (recordFrame sendsegArgCodec)) := by
        rw [transport_stream_eq, List.flatMap_cons]
        exact recv_record_clean sendsegArgCodec arg clean _
      have step : waitStep myNodeID (tables 0)
          (.accepting packet (transportStream (arg :: frames) :: backlog)) =
          ([.accept], .sending 1 (transportPacket myNodeID arg)
            (frames.flatMap (recordFrame sendsegArgCodec)) backlog) := by
        simp only [waitStep, received, prepared_with_segment]
      rw [waitTransport, step, wait_repeats]
      simp

theorem close_mem_transport_events (myNodeID : Int32) (tables : Nat → Routingtable)
    (frames : List SendsegArg) : .close ∈ transportEvents myNodeID tables frames := by
  simp [transportEvents]

/-- The thread does what it should exactly for a process that closes without
sending a segment. -/
theorem sends_each_segment_once_iff (myNodeID : Int32) (tables : Nat → Routingtable)
    (packet : MnpPkt) (frames : List SendsegArg) (next : List Byte)
    (backlog : List (List Byte))
    (clean : ∀ arg ∈ frames, Clean markers (sendsegArgCodec.encode arg)) :
    SendsEachSegmentOnce myNodeID tables packet frames next backlog ↔ frames = [] := by
  constructor
  · rintro ⟨turns, events⟩
    cases frames with
    | nil => rfl
    | cons arg frames =>
        have never := wait_never_closes myNodeID turns tables packet arg frames (next :: backlog)
          (clean arg (by simp))
        rw [events] at never
        exact absurd (close_mem_transport_events myNodeID tables (arg :: frames)) never
  · rintro rfl
    refine ⟨3, ?_⟩
    have closed : getsegToSend (transportStream []) = .ended := recv_record_nil sendsegArgCodec
    have first : waitStep myNodeID (tables 0)
        (.accepting packet (transportStream [] :: next :: backlog)) =
        ([.accept], .sending (-1) (packet.prepared myNodeID) [] (next :: backlog)) := by
      simp only [waitStep, closed]
    have second (rt : Routingtable) : waitStep myNodeID rt
        (.sending (-1) (packet.prepared myNodeID) [] (next :: backlog)) =
        ([.close], .accepting (packet.prepared myNodeID) (next :: backlog)) := rfl
    simp only [waitTransport, first, second, wait_accepts, transportEvents, List.zipIdx_nil,
      List.map_nil, List.append_nil, List.cons_append, List.nil_append]

theorem sends_each_segment_once_nil :
    SendsEachSegmentOnce 1 (fun _ => Routingtable.empty) MnpPkt.cleared [] [] [] :=
  (sends_each_segment_once_iff 1 (fun _ => Routingtable.empty) MnpPkt.cleared [] [] []
    (by simp)).mpr rfl

/-- A process that sends one cleared segment and closes: the packet goes out in
every further turn. -/
theorem single_segment_not_sent_once :
    Clean markers (sendsegArgCodec.encode ⟨1, Seg.cleared⟩) ∧
      ¬ SendsEachSegmentOnce 2 (fun _ => Routingtable.empty) MnpPkt.cleared [⟨1, Seg.cleared⟩]
        [] [] := by
  have clean : Clean markers (sendsegArgCodec.encode ⟨1, Seg.cleared⟩) :=
    clean_of_no_escape fun stored => (cleared_record_image _ stored).1 rfl
  refine ⟨clean, ?_⟩
  rintro ⟨turns, events⟩
  have never := wait_never_closes 2 turns (fun _ => Routingtable.empty) MnpPkt.cleared
    ⟨1, Seg.cleared⟩ [] [[]] clean
  rw [events] at never
  exact never (close_mem_transport_events _ _ _)

end MiniOverlay
