import Mathlib.Logic.Function.Basic
import IpNdnStack.Impl.LibPcapHelper
import IpNdnStack.Impl.Tunnel

/-!
# Any number of gateways

Gateways that all publish what they capture and ask for what is for their own
hosts, over one network: `deal` of a frame's tuple at any of them, and the
callbacks of each, in any order. The network may repeat a pre-request, and may
lose pre-requests and Interests; it counts what it loses. A gateway may capture
any valid frame: no code checks whose it is. An Interest may be answered with any
Data, of any gateway, whose name begins with the Interest's (`start` sets
`CanBePrefix`).
-/

namespace IpNdn

/-- A frame that `handleRead` deals with: `decode` accepts it, and it is short
enough. -/
structure Captured where
  frame : Frame
  now : Int
  globals : Globals
  valid : (decodeFrame frame now globals).1 = .valid
  short : (decodeFrame frame now globals).2.1.ipSize < 8600

def Captured.tuple (c : Captured) : Tuple := (decodeFrame c.frame c.now c.globals).2.1

structure Network (ν : Type) where
  gateway : ν → Gateway
  /-- names of pre-requests that have not arrived -/
  inFlight : List Text
  /-- each gateway's formal Interests that have not been answered or given up -/
  pending : ν → List SentInterest
  /-- the frames dealt with, oldest first: where, and with what `generateUUID` would return -/
  dealt : List (ν × Captured × Uuid)
  /-- how many pre-requests and Interests were lost -/
  lost : Nat

namespace Network

variable {ν : Type}

def start : Network ν := ⟨fun _ => .init, [], fun _ => [], [], 0⟩

/-- The packets of a flow that a gateway dealt with, TCP and UDP together. -/
def packets [DecidableEq ν] (s : Network ν) (k : ν) (f : Flow) : Nat :=
  s.dealt.countP fun p =>
    p.1 = k ∧ (p.2.1.tuple.key.proto = IPPROTO_TCP ∨ p.2.1.tuple.key.proto = IPPROTO_UDP) ∧ p.2.1.tuple.flow = f

/-- A handler of one gateway; its pre-requests set out, and its other Interests
wait for an answer. -/
def run [DecidableEq ν] (s : Network ν) (k : ν) (handler : GatewayM Unit) : Network ν :=
  let g := Handler.after handler (s.gateway k)
  let sent := sentInterests (g.face.drop (s.gateway k).face.length)
  { s with
    gateway := Function.update s.gateway k g
    inFlight := s.inFlight ++ (sent.filter (·.isPre)).map (·.name)
    pending := Function.update s.pending k (s.pending k ++ sent.filter fun i => !i.isPre) }

section

variable (L : Libs)

/-- A gateway has put a Data that answers an Interest of this name. -/
def HasPut (s : Network ν) (name uri : Text) (content : List Byte) : Prop :=
  (∃ k, .putDataToCache uri content ∈ (s.gateway k).face) ∧ L.isPrefixOf (L.ofUri name) (L.ofUri uri)

/-- A gateway has set a filter that a pre-request matches. -/
def Awaits (registerIp : List Text) (name : Text) : Prop :=
  ∃ f ∈ IpNdn.start L registerIp, f.isPre ∧ L.isPrefixOf f.registerPrefix (L.ofUri name)

/-- No pre-request is in flight that a gateway awaits, and no Interest that a
Data has been put for waits for it. -/
structure Quiet (registerIp : ν → List Text) (s : Network ν) : Prop where
  inFlight : ∀ name ∈ s.inFlight, ∀ k, ¬ Awaits L (registerIp k) name
  pending : ∀ k, ∀ i ∈ s.pending k, ∀ uri content, ¬ s.HasPut L i.name uri content

inductive Event (ν : Type)
  | deal (k : ν) (captured : Captured) (uuid : Uuid)
  | arrive (k : ν) (name : Text)
  | again (name : Text)
  | lose (name : Text)
  | answer (k : ν) (interest : SentInterest) (uri : Text) (content : List Byte)
  | timeout (k : ν) (interest : SentInterest)
  | nack (k : ν) (interest : SentInterest)
  | drop (k : ν) (interest : SentInterest)

variable [DecidableEq ν] (registerIp : ν → List Text)

inductive Step (s : Network ν) : Event ν → Network ν → Prop
  /-- The uuid is fresh. -/
  | deal {k : ν} {c : Captured} {uuid : Uuid} (hu : ∀ p ∈ s.dealt, p.2.2 ≠ uuid) :
    Step s (.deal k c uuid) ({ s with dealt := s.dealt ++ [(k, c, uuid)] }.run k (IpNdn.deal c.tuple uuid.1))
  | arrive {k : ν} {name : Text} (h : name ∈ s.inFlight) (hf : Awaits L (registerIp k) name) :
    Step s (.arrive k name)
      ({ s with inFlight := s.inFlight.erase name }.run k (processInterest L (registerIp k) (L.ofUri name)))
  | again {name : Text} (h : name ∈ s.inFlight) : Step s (.again name) { s with inFlight := s.inFlight ++ [name] }
  | lose {name : Text} (h : name ∈ s.inFlight) :
    Step s (.lose name) { s with inFlight := s.inFlight.erase name, lost := s.lost + 1 }
  | answer {k : ν} {i : SentInterest} (h : i ∈ s.pending k) {uri : Text} {content : List Byte}
      (hp : s.HasPut L i.name uri content) :
    Step s (.answer k i uri content)
      ({ s with pending := Function.update s.pending k ((s.pending k).erase i) }.run k
        (onData L (L.ofUri uri) content i.isPre i.isTCP))
  | timeout {k : ν} {i : SentInterest} (h : i ∈ s.pending k) (hp : ∀ uri content, ¬ s.HasPut L i.name uri content) :
    Step s (.timeout k i)
      ({ s with pending := Function.update s.pending k ((s.pending k).erase i) }.run k (onTimeout i.isPre))
  | nack {k : ν} {i : SentInterest} (h : i ∈ s.pending k) (hp : ∀ uri content, ¬ s.HasPut L i.name uri content) :
    Step s (.nack k i) ({ s with pending := Function.update s.pending k ((s.pending k).erase i) }.run k onNack)
  /-- An Interest or its answer is lost: it times out. -/
  | drop {k : ν} {i : SentInterest} (h : i ∈ s.pending k) :
    Step s (.drop k i)
      ({ s with pending := Function.update s.pending k ((s.pending k).erase i), lost := s.lost + 1 }.run k
        (onTimeout i.isPre))

end

end Network

end IpNdn
