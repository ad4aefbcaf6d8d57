import IpNdnStack.Framework.Handler
import IpNdnStack.Impl.Libs
import IpNdnStack.Impl.Packet
import IpNdnStack.Impl.Tables

/-!
# `NDNHelper`

`helper/NDNHelper.cpp`: the names of packets (`buildName`), the flow's key
(`build4TupleKey`), and the callbacks of the face. A gateway's state is its
tables, the packet library's globals and what it has asked of the face and the
raw socket so far. Reading a `vector` past its end, reading bytes from `nullptr`
and an exception that nothing catches are faults: the callback stops there, with
what it did before.
-/

namespace IpNdn

/-- What a gateway asks of the face and the key chain. -/
inductive FaceCall
  /-- `expressInterest(name, isPre, isTCP)`: the flags are those bound to the
  callbacks of this Interest. -/
  | expressInterest (name : Text) (isPre isTCP : Bool)
  /-- `face->put` in `putDataToCache(name, tuple)`, with `tuple->pkt`'s bytes -/
  | putDataToCache (name : Text) (content : List Byte)
  deriving DecidableEq, Repr

inductive Fault
  /-- a `vector` is indexed past its end -/
  | outOfRange
  /-- `boost::bad_lexical_cast` -/
  | badLexicalCast
  /-- bytes are read from `nullptr` -/
  | nullRead
  deriving DecidableEq, Repr

structure Gateway where
  sequenceTable : MapCacheHelper (BitVec 32)
  prefixGuestTable : SetHelper Text
  globals : Globals
  /-- the calls of the face, oldest first -/
  face : List FaceCall
  /-- the calls `sendPacketTo(buffer, len, ip)`, oldest first: the bytes and the address -/
  rawSocket : List (List Byte × Text)

/-- A gateway that has just started. -/
def Gateway.init : Gateway := ⟨.empty, .empty, .zero, [], []⟩

abbrev GatewayM := EStateM Fault Gateway

/-! ## Names -/

def PREFIX_PRE_REQUEST : Text := "/IP/pre".toList
def PREFIX_REQUEST_DATA : Text := "/IP".toList
def PREFIX_TCP_PRE_REQUEST : Text := "/IP/TCP/pre".toList
def PREFIX_TCP_REQUEST_DATA : Text := "/IP/TCP".toList
def NUM_OF_GUEST : Nat := 60

/-- The dotted quad of an address in host order (`sourceIP` and `dstIP`). -/
def dottedQuad (ip : BitVec 32) : Text :=
  natText ((ip >>> 24) &&& 0xFF).toNat ++ '.' :: natText ((ip >>> 16) &&& 0xFF).toNat ++
    '.' :: natText ((ip >>> 8) &&& 0xFF).toNat ++ '.' :: natText ((ip >>> 0) &&& 0xFF).toNat

/-- `buildName`: the name and the uid. -/
def buildName (sip dip : BitVec 32) (sport dport : BitVec 16) (type : Int) (seq : BitVec 32 := -1)
    (uid : Text := []) : Text × Text :=
  let sip := ntohl sip
  let dip := ntohl dip
  let sport := ntohs sport
  let dport := ntohs dport
  let sourceIP := dottedQuad sip
  let dstIP := dottedQuad dip
  let sourcePort := natText sport.toNat
  let dstPort := natText dport.toNat
  match type with
  | 1 => (PREFIX_PRE_REQUEST ++ '/' :: dstIP ++ '/' :: sourceIP ++ '/' :: uid, uid)
  | 2 => (PREFIX_REQUEST_DATA ++ '/' :: sourceIP ++ '/' :: dstIP ++ '/' :: uid, uid)
  | 3 =>
    let uid := sourcePort ++ '-' :: dstPort ++ '-' :: intText seq.toInt
    (PREFIX_TCP_PRE_REQUEST ++ '/' :: dstIP ++ '/' :: sourceIP ++ '/' :: uid, uid)
  | 4 =>
    let uid := sourcePort ++ '-' :: dstPort ++ '-' :: intText seq.toInt
    (PREFIX_TCP_REQUEST_DATA ++ '/' :: sourceIP ++ '/' :: dstIP ++ '/' :: uid, uid)
  | _ => ([], [])

def build4TupleKey (sip dip : BitVec 32) (sport dport : BitVec 16) : Text :=
  let sip := ntohl sip
  let dip := ntohl dip
  let sport := ntohs sport
  let dport := ntohs dport
  let sourceIP := dottedQuad sip
  let dstIP := dottedQuad dip
  let sourcePort := natText sport.toNat
  let dstPort := natText dport.toNat
  sourceIP ++ '/' :: dstIP ++ '/' :: sourcePort ++ '/' :: dstPort

/-! ## Flows -/

/-- A flow: what `build4TupleKey` is called with. -/
structure Flow where
  srcIp : BitVec 32
  dstIp : BitVec 32
  srcPort : BitVec 16
  dstPort : BitVec 16
  deriving DecidableEq, Repr

namespace Flow

def key (f : Flow) : Text := build4TupleKey f.srcIp f.dstIp f.srcPort f.dstPort

/-- The name of the Data of packet `n`, and of its formal request. -/
def dataName (f : Flow) (n : BitVec 32) : Text := (buildName f.srcIp f.dstIp f.srcPort f.dstPort 4 n).1

/-- The name of the pre-request for packet `n`. -/
def preName (f : Flow) (n : BitVec 32) : Text := (buildName f.srcIp f.dstIp f.srcPort f.dstPort 3 n).1

end Flow

/-- The flow of a tuple. -/
def Tuple.flow (t : Tuple) : Flow := ⟨t.key.srcIp, t.key.dstIp, t.key.srcPort, t.key.dstPort⟩

/-! ## The face -/

def expressInterest (name : Text) (isPre : Bool := true) (isTCP : Bool := false) : GatewayM Unit :=
  modify fun s => { s with face := s.face ++ [.expressInterest name isPre isTCP] }

/-- `setContent` copies the tuple's bytes before the Data is signed and put. -/
def putDataToCache (interestName : Text) (tuple : Tuple) : GatewayM Unit :=
  match tuple.content with
  | some content => modify fun s => { s with face := s.face ++ [.putDataToCache interestName content] }
  | none => throw .nullRead

def sendPacketTo (buffer : List Byte) (ip : Text) : GatewayM Unit :=
  modify fun s => { s with rawSocket := s.rawSocket ++ [(buffer, ip)] }

/-- `v[i]` of a `vector` -/
def fieldAt (v : List Text) (i : Nat) : GatewayM Text :=
  match v[i]? with
  | some x => pure x
  | none => throw .outOfRange

section

variable (L : Libs)

def lexicalCastInt (s : Text) : GatewayM (BitVec 32) :=
  match L.lexicalCast s with
  | some n => pure n
  | none => throw .badLexicalCast

/-- `dealOnData` of a Data packet's name and content -/
def dealOnData (dataName : L.Name) (content : List Byte) (isPre isTCP : Bool) : GatewayM Unit := do
  let name := L.toUri dataName
  if !isPre then
    let fields := L.split name '/'
    if isTCP then
      sendPacketTo content (← fieldAt fields 4)
    else
      sendPacketTo content (← fieldAt fields 3)

/-- The loop over `i < NUM_OF_GUEST` in `dealOnInterest`: its last `n` turns. -/
def guess (guessName : Text) : (n : Nat) → (numOfSequence : BitVec 32) → GatewayM Unit
  | 0, _ => pure ()
  | n + 1, numOfSequence => do
    let numOfSequence := numOfSequence + 1
    let gName := guessName ++ intText numOfSequence.toInt
    let s ← get
    let (table, saved) := s.prefixGuestTable.saveConcurrence gName
    set { s with prefixGuestTable := table }
    if saved then expressInterest gName false true
    guess guessName n numOfSequence

/-- `dealOnInterest`, where `isPre` and `isTCP` -/
def dealOnTcpPreRequest (interestName : Text) : GatewayM Unit := do
  let fields := L.split interestName '/'
  let sip ← fieldAt fields 4
  let dip ← fieldAt fields 5
  let uid ← fieldAt fields 6
  let guessName := "/IP/TCP".toList ++ '/' :: dip ++ '/' :: sip
  let nextName := guessName ++ '/' :: uid
  expressInterest nextName false true
  let s ← get
  if s.prefixGuestTable.find nextName then
    set { s with prefixGuestTable := s.prefixGuestTable.erase nextName }
  let uuidFields := L.split uid '-'
  let numOfSequence ← lexicalCastInt L (← fieldAt uuidFields 2)
  let guessName := guessName ++ '/' :: (← fieldAt uuidFields 0) ++ '-' :: (← fieldAt uuidFields 1) ++ ['-']
  guess guessName NUM_OF_GUEST numOfSequence

/-- `dealOnInterest`, where `isPre` but not `isTCP` -/
def dealOnOtherPreRequest (interestName : Text) : GatewayM Unit := do
  let fields := L.split interestName '/'
  let sip ← fieldAt fields 3
  let dip ← fieldAt fields 4
  let uid ← fieldAt fields 5
  let nextName := "/IP".toList ++ '/' :: dip ++ '/' :: sip ++ '/' :: uid
  expressInterest nextName false false

/-- `dealOnInterest` of an Interest's name -/
def dealOnInterest (interest : L.Name) (isPre isTCP : Bool) : GatewayM Unit := do
  let interestName := L.toUri interest
  if isPre then
    if isTCP then dealOnTcpPreRequest L interestName
    else dealOnOtherPreRequest L interestName

/-! ## The callbacks -/

def onData (dataName : L.Name) (content : List Byte) (isPre isTCP : Bool) : GatewayM Unit :=
  dealOnData L dataName content isPre isTCP

def onNack : GatewayM Unit := pure ()

/-- `onTimeout`: what the branch did is commented out in the source. -/
def onTimeout (isPre : Bool) : GatewayM Unit :=
  if !isPre then pure () else pure ()

def onInterest (interest : L.Name) (isPre isTCP : Bool) : GatewayM Unit :=
  dealOnInterest L interest isPre isTCP

/-- An `InterestFilter` with the flags bound to its callback. -/
structure InterestFilter where
  registerPrefix : L.Name
  isPre : Bool
  isTCP : Bool

/-- The filters `start` sets, in order. -/
def start (registerIp : List Text) : List (InterestFilter L) :=
  registerIp.flatMap fun ip =>
    [⟨L.ofUri (PREFIX_PRE_REQUEST ++ '/' :: ip), true, false⟩,
     ⟨L.ofUri (PREFIX_REQUEST_DATA ++ '/' :: ip), false, false⟩,
     ⟨L.ofUri (PREFIX_TCP_PRE_REQUEST ++ '/' :: ip), true, true⟩,
     ⟨L.ofUri (PREFIX_TCP_REQUEST_DATA ++ '/' :: ip), false, true⟩]

/-- An Interest that reaches the face: every filter that matches its name calls
back. -/
def processInterest (registerIp : List Text) (interest : L.Name) : GatewayM Unit :=
  forM ((start L registerIp).filter fun f => L.isPrefixOf f.registerPrefix interest) fun f =>
    onInterest L interest f.isPre f.isTCP

end

end IpNdn
