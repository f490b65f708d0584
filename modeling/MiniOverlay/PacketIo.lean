import MiniOverlay.DelimitedRecords
import MiniOverlay.PacketFormat

/-!
# Packet transfer between the MNP and ON processes and between neighbours

The senders and receivers of `common/pkt.c`. As for segments, `send` is taken
to succeed and to write its whole argument.
-/

namespace MiniOverlay

open DelimitedFrames FixedByteCodec

set_option autoImplicit false

def overlaySendpkt (nextNodeID : Int32) (pkt : MnpPkt) : List (List Byte) :=
  sendDelimited (sendpktArgCodec.encode ⟨nextNodeID, pkt⟩)

def overlayRecvpkt (overlayConn : List Byte) : Read MnpPkt Byte :=
  recvRecord mnpPktCodec overlayConn

/-- The value of a successful call is `*nextNode` with `*pkt`. -/
def getpktToSend (networkConn : List Byte) : Read SendpktArg Byte :=
  recvRecord sendpktArgCodec networkConn

def forwardpktToMNP (pkt : MnpPkt) : List (List Byte) :=
  sendDelimited pkt.image

/-- `none` when `sizeof(mnp_hdr_t) + header.length` bytes reach past the packet. -/
def sendpkt (pkt : MnpPkt) : Option (List (List Byte)) :=
  if sizeofMnpHdr + pkt.header.length.toNat ≤ sizeofMnpPkt then
    some (sendDelimited pkt.sentBytes)
  else none

/-- The return value of `recvpkt` with the packet variable and the unread bytes
after the call. Unlike the other receivers it copies whatever lies between the
delimiters over the variable. `none` is an access outside `buf` or `*pkt`. -/
def recvpkt (pkt : MnpPkt) (conn : List Byte) : Option (Int × MnpPkt × List Byte) :=
  match scan markers (sizeofMnpPkt + 2) .start1 [] conn with
  | .frame payload rest =>
      if payload.length ≤ sizeofMnpPkt then some (1, pkt.copyInto payload, rest) else none
  | .ended => some (-1, pkt, [])
  | .overrun => none

theorem recvpkt_clean (pkt : MnpPkt) (payload rest : List Byte) (clean : Clean markers payload)
    (fits : payload.length ≤ sizeofMnpPkt) :
    recvpkt pkt (frameOf markers payload ++ rest) = some (1, pkt.copyInto payload, rest) := by
  have scanned := scan_clean_frame (sizeofMnpPkt + 2) payload rest clean (by omega)
  simp [recvpkt, scanned, fits]

theorem recvpkt_closed (pkt : MnpPkt) : recvpkt pkt [] = some (-1, pkt, []) := rfl

theorem recvpkt_status (pkt received : MnpPkt) (conn rest : List Byte) (status : Int)
    (returned : recvpkt pkt conn = some (status, received, rest)) :
    status = 1 ∨ status = -1 := by
  unfold recvpkt at returned
  split at returned
  · split_ifs at returned
    cases returned
    exact Or.inl rfl
  · cases returned
    exact Or.inr rfl
  · cases returned

end MiniOverlay
