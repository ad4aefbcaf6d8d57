import IpNdnStack.Impl.NDNHelper

/-!
# `LibPcapHelper`

`helper/LibPcapHelper.cpp` and `readNextPacketAfterDecode` of
`helper/PcapHelper.cpp`: from a captured frame to the calls of the face. The
clock and `generateUUID` are inputs.
-/

namespace IpNdn

/-- A captured frame: the memory from its first byte on, how much of it was
captured and how long it was. -/
structure Frame where
  mem : Nat → Byte
  capLen : BitVec 32
  actLen : BitVec 32

/-- What `pcap_next_ex` gives. -/
inductive PcapNext
  /-- a negative result, with `getLastError()` -/
  | error (lastError : Text)
  /-- zero: the read timed out, and `packet` is left `nullptr` -/
  | timedOut (lastError : Text)
  | packet (frame : Frame)

/-- `decode` of a frame into a new tuple. -/
def decodeFrame (frame : Frame) (now : Int) (g : Globals) : PacketStatus × Tuple × Globals :=
  (decode frame.mem frame.capLen frame.actLen now .new g).val

/-- `readNextPacketAfterDecode`: the tuple (`none` for `nullptr`), the captured
length and a message. The status that `decode` returns is not looked at. -/
def readNextPacketAfterDecode (next : PcapNext) (now : Int) : GatewayM (Option Tuple × Nat × Text) := do
  match next with
  | .error lastError => pure (none, 0, lastError)
  -- The test for no packet comes before the one for zero, which never holds.
  | .timedOut lastError => pure (none, 0, lastError)
  | .packet frame =>
    let s ← get
    let (_, tuple, globals) := decodeFrame frame now s.globals
    set { s with globals := globals }
    pure (some tuple, frame.capLen.toNat, [])

/-- `deal`: `uuid` is what `generateUUID` returns if it is called. -/
def deal (tuple : Tuple) (uuid : Text) : GatewayM Unit := do
  let key := tuple.key
  if key.proto = IPPROTO_TCP ∨ key.proto = IPPROTO_UDP then
    let tableKey := build4TupleKey key.srcIp key.dstIp key.srcPort key.dstPort
    let s ← get
    match s.sequenceTable.get tableKey with
    | none =>
      let tuple := { tuple with index := 1 }
      let (table, resultSeq) := s.sequenceTable.save tableKey tuple.index
      set { s with sequenceTable := table }
      if !resultSeq then return
      let dataPrefixUUID := buildName key.srcIp key.dstIp key.srcPort key.dstPort 4 tuple.index
      putDataToCache dataPrefixUUID.1 tuple
      let prefixUUID := buildName key.srcIp key.dstIp key.srcPort key.dstPort 3 1
      expressInterest prefixUUID.1
    | some _ =>
      let (table, tuple, success) := s.sequenceTable.getAndIncreaseSequence tableKey tuple
      set { s with sequenceTable := table }
      if !success then return
      let dataPrefixUUID := buildName key.srcIp key.dstIp key.srcPort key.dstPort 4 tuple.index
      putDataToCache dataPrefixUUID.1 tuple
      let prePrefixUUID := buildName key.srcIp key.dstIp key.srcPort key.dstPort 3 tuple.index
      expressInterest prePrefixUUID.1 true
  else
    let dataPrefixUUID := buildName key.srcIp key.dstIp key.srcPort key.dstPort 2 (-1) uuid
    putDataToCache dataPrefixUUID.1 tuple
    let prefixUUID := buildName key.srcIp key.dstIp key.srcPort key.dstPort 1 (-1) uuid
    expressInterest prefixUUID.1

/-- `handleRead`, up to the next `asyncRead`. -/
def handleRead (error : Bool) (next : PcapNext) (now : Int) (uuid : Text) : GatewayM Unit := do
  if error then return
  let res ← readNextPacketAfterDecode next now
  match res.1 with
  | some tuple => if tuple.ipSize < 8600 then deal tuple uuid
  | none => pure ()

/-- What one `handleRead` is called with and meets. -/
structure Capture where
  error : Bool
  next : PcapNext
  now : Int
  uuid : Text

/-- `asyncRead`: the next `handleRead` asks for the one after it, but not after
an error. -/
def asyncRead : List Capture → GatewayM Unit
  | [] => pure ()
  | c :: cs => do
    handleRead c.error c.next c.now c.uuid
    if c.error then return
    asyncRead cs

end IpNdn
