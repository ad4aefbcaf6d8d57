import IpNdnStack.Impl.LibPcapHelper
import IpNdnStack.Impl.Tunnel

/-!
# A gateway process in any network

One process: `handleRead` for what is captured, and the callbacks of the face.
The network may send any Interest at any time, and answer a pending Interest
with any Data whose name begins with the Interest's (`start` sets
`CanBePrefix`). A fault in a callback ends the process.
-/

namespace IpNdn

structure Node where
  gateway : Gateway
  /-- the Interests that have not been answered or given up -/
  pending : List SentInterest
  /-- a callback ended with a fault -/
  crashed : Bool

namespace Node

def start : Node := ⟨.init, [], false⟩

/-- A handler runs; its Interests wait for an answer. -/
def run (s : Node) (handler : GatewayM Unit) : Node :=
  let g := Handler.after handler s.gateway
  { gateway := g
    pending := s.pending ++ sentInterests (g.face.drop s.gateway.face.length)
    crashed := match handler s.gateway with
      | .ok _ _ => s.crashed
      | .error _ _ => true }

section

variable (L : Libs)

inductive Event
  | capture (error : Bool) (next : PcapNext) (now : Int) (uuid : Text)
  | interest (name : L.Name)
  | data (interest : SentInterest) (name : L.Name) (content : List Byte)
  | timeout (interest : SentInterest)
  | nack (interest : SentInterest)

variable (registerIp : List Text)

/-- What is called for an event. -/
def handler : Event L → GatewayM Unit
  | .capture error next now uuid => handleRead error next now uuid
  | .interest name => processInterest L registerIp name
  | .data i name content => onData L name content i.isPre i.isTCP
  | .timeout i => onTimeout i.isPre
  | .nack _ => onNack

inductive Step (s : Node) : Event L → Node → Prop
  | capture (h : s.crashed = false) (error : Bool) (next : PcapNext) (now : Int) (uuid : Text) :
    Step s (.capture error next now uuid) (s.run (handler L registerIp (.capture error next now uuid)))
  | interest (h : s.crashed = false) (name : L.Name) :
    Step s (.interest name) (s.run (handler L registerIp (.interest name)))
  | data (h : s.crashed = false) {i : SentInterest} (hi : i ∈ s.pending) {name : L.Name}
      (hn : L.isPrefixOf (L.ofUri i.name) name) (content : List Byte) :
    Step s (.data i name content)
      ({ s with pending := s.pending.erase i }.run (handler L registerIp (.data i name content)))
  | timeout (h : s.crashed = false) {i : SentInterest} (hi : i ∈ s.pending) :
    Step s (.timeout i) ({ s with pending := s.pending.erase i }.run (handler L registerIp (.timeout i)))
  | nack (h : s.crashed = false) {i : SentInterest} (hi : i ∈ s.pending) :
    Step s (.nack i) ({ s with pending := s.pending.erase i }.run (handler L registerIp (.nack i)))

end

end Node

end IpNdn
