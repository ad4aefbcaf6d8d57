import IpNdnStack.Impl.LibPcapHelper

/-!
# Two gateways

A gateway that publishes what it captures, one that asks for it, and the
network between them: `deal` of a tuple, the callbacks of the subscriber for a
pre-request that arrives and for an Interest that is answered, times out or is
Nacked, in any order. The network loses no pre-request, and answers an Interest
just when its Data has been put.
-/

namespace IpNdn

/-- A tuple that gets to `deal` with the status of a valid packet. -/
def Accepted (t : Tuple) : Prop :=
  (∃ frame now g, (decodeFrame frame now g).1 = .valid ∧ (decodeFrame frame now g).2.1 = t) ∧ t.ipSize < 8600

/-- What `boost::uuids::to_string` writes: hexadecimal digits and dashes. -/
def uuidChar (x : Char) : Bool := x.isDigit || "abcdef".toList.contains x || x == '-'

/-- What `generateUUID` returns. -/
def Uuid : Type := { uuid : Text // uuid ≠ [] ∧ uuid.all uuidChar }
  deriving DecidableEq

/-- An Interest of the subscriber, with the flags bound to its callbacks. -/
structure SentInterest where
  name : Text
  isPre : Bool
  isTCP : Bool
  deriving DecidableEq, Repr

/-- The Interests among some calls, in order. -/
def sentInterests (calls : List FaceCall) : List SentInterest :=
  calls.filterMap fun
    | .expressInterest name isPre isTCP => some ⟨name, isPre, isTCP⟩
    | .putDataToCache .. => none

structure Tunnel where
  publisher : Gateway
  subscriber : Gateway
  /-- names of the publisher's Interests that have not arrived -/
  inFlight : List Text
  /-- the subscriber's Interests that have not been answered or given up -/
  pending : List SentInterest
  /-- the tuples dealt with, oldest first, with what `generateUUID` would return for each -/
  dealt : List (Tuple × Uuid)

namespace Tunnel

def start : Tunnel := ⟨.init, .init, [], [], []⟩

/-- A handler of the publisher; its Interests set out. -/
def publish (s : Tunnel) (handler : GatewayM Unit) : Tunnel :=
  let g := Handler.after handler s.publisher
  { s with
    publisher := g
    inFlight := s.inFlight ++ (sentInterests (g.face.drop s.publisher.face.length)).map (·.name) }

/-- A callback of the subscriber; its Interests wait for an answer. -/
def callback (s : Tunnel) (handler : GatewayM Unit) : Tunnel :=
  let g := Handler.after handler s.subscriber
  { s with
    subscriber := g
    pending := s.pending ++ sentInterests (g.face.drop s.subscriber.face.length) }

/-- The packets of a flow that were dealt with, TCP and UDP together. -/
def packets (s : Tunnel) (f : Flow) : Nat :=
  s.dealt.countP fun p => (p.1.key.proto = IPPROTO_TCP ∨ p.1.key.proto = IPPROTO_UDP) ∧ p.1.flow = f

section

variable (L : Libs)

/-- The publisher has put a Data of exactly this name. -/
def HasPut (s : Tunnel) (name : L.Name) (content : List Byte) : Prop :=
  ∃ uri, .putDataToCache uri content ∈ s.publisher.face ∧ L.ofUri uri = name

/-- No pre-request is in flight, and no Interest whose Data has been put waits
for it. -/
structure Quiet (s : Tunnel) : Prop where
  inFlight : s.inFlight = []
  pending : ∀ i ∈ s.pending, ∀ content, ¬ s.HasPut L (L.ofUri i.name) content

inductive Event
  | deal (tuple : Tuple) (uuid : Uuid)
  | arrive (name : Text)
  | answer (interest : SentInterest) (content : List Byte)
  | timeout (interest : SentInterest)
  | nack (interest : SentInterest)

variable (registerIp : List Text)

inductive Step (s : Tunnel) : Event → Tunnel → Prop
  /-- The uuid is fresh. -/
  | deal {t : Tuple} (ht : Accepted t) {uuid : Uuid} (hu : ∀ p ∈ s.dealt, p.2 ≠ uuid) :
    Step s (.deal t uuid) ({ s with dealt := s.dealt ++ [(t, uuid)] }.publish (IpNdn.deal t uuid.1))
  /-- A pre-request arrives where a filter for it is set. -/
  | arrive {name : Text} (h : name ∈ s.inFlight)
      (hf : ∃ f ∈ IpNdn.start L registerIp, f.isPre ∧ L.isPrefixOf f.registerPrefix (L.ofUri name)) :
    Step s (.arrive name)
      ({ s with inFlight := s.inFlight.erase name }.callback (processInterest L registerIp (L.ofUri name)))
  | answer {i : SentInterest} (h : i ∈ s.pending) {content : List Byte} (hp : s.HasPut L (L.ofUri i.name) content) :
    Step s (.answer i content)
      ({ s with pending := s.pending.erase i }.callback (onData L (L.ofUri i.name) content i.isPre i.isTCP))
  | timeout {i : SentInterest} (h : i ∈ s.pending) (hp : ∀ content, ¬ s.HasPut L (L.ofUri i.name) content) :
    Step s (.timeout i) ({ s with pending := s.pending.erase i }.callback (onTimeout i.isPre))
  | nack {i : SentInterest} (h : i ∈ s.pending) (hp : ∀ content, ¬ s.HasPut L (L.ofUri i.name) content) :
    Step s (.nack i) ({ s with pending := s.pending.erase i }.callback onNack)

end

end Tunnel

end IpNdn
