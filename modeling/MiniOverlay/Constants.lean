/-!
# Parameters of the mini overlay network

The values of `common/constants.h` that the modelled code uses.
-/

namespace MiniOverlay

def maxSegLen : Nat := 1464

def receiveBufSize : Nat := 1000000

def gbnWindow : Nat := 10

def maxTransportConnections : Nat := 10

def maxPktLen : Nat := 1488

def maxNodeNum : Nat := 10

def maxRoutingtableSlots : Nat := 10

def infiniteCost : UInt32 := 999

def broadcastNodeID : Int32 := 9999

end MiniOverlay
