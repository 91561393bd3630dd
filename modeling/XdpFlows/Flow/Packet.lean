import Mathlib.Data.UInt
import Mathlib.Algebra.BigOperators.Group.List.Lemmas

/-!
# Packets and their flow tuple

The parsing half of `parsePacket` (`dp.c`) and of `processL4Flow` (`IPflow.c`): the walk over the
802.1Q tags and the IPv4 header to the ports.  Both functions write into `aux_session->incoming`
while they go and may return in the middle, so the result of `parse` is the content of `incoming` at
the return, together with the place the return was made at.

Offsets are those of the source, counted from the start of the frame.  Nothing keeps a read below
`caplen`; the buffer is total because a UMEM chunk is longer than the packet.
-/

namespace Flow

/-- `struct pcap_pkthdr` and the bytes it describes. -/
structure Packet where
  bytes : ℕ → UInt8
  tvSec : UInt64
  tvUsec : UInt64
  caplen : UInt32
  len : UInt32

/-- The time of a packet in microseconds, `tv_sec * US_IN_SEC_ULL + tv_usec`. -/
def Packet.ts (p : Packet) : UInt64 :=
  p.tvSec * 1000000 + p.tvUsec

/-- The second a packet falls into, `last_packet_timestamp / US_IN_SEC`. -/
def Packet.sec (p : Packet) : UInt64 :=
  p.ts / 1000000

/-- `IPFlow`. -/
structure IPFlow where
  sourceIp : UInt32
  destinationIp : UInt32
  sourceMac : UInt64
  destinationMac : UInt64
  sourcePort : UInt16
  destinationPort : UInt16
  vlanTag : UInt16
  transportProtocol : UInt8
  npack : UInt32
  nbytes : UInt64
deriving DecidableEq, Repr

/-- `memset(&incoming, 0, sizeof(IPFlow))`. -/
def IPFlow.zero : IPFlow where
  sourceIp := 0
  destinationIp := 0
  sourceMac := 0
  destinationMac := 0
  sourcePort := 0
  destinationPort := 0
  vlanTag := 0
  transportProtocol := 0
  npack := 0
  nbytes := 0

/-- The fields that tell flows apart. -/
structure Key where
  sourceIp : UInt32
  destinationIp : UInt32
  sourcePort : UInt16
  destinationPort : UInt16
  transportProtocol : UInt8
  vlanTag : UInt16
deriving DecidableEq, Repr

def IPFlow.key (f : IPFlow) : Key :=
  ⟨f.sourceIp, f.destinationIp, f.sourcePort, f.destinationPort, f.transportProtocol, f.vlanTag⟩

/-- `compareTupleFlow`: 0 if the tuples and the VLAN agree. -/
def compareTupleFlow (a b : IPFlow) : ℤ :=
  if a.sourceIp = b.sourceIp ∧ a.destinationIp = b.destinationIp ∧ a.sourcePort = b.sourcePort
      ∧ a.destinationPort = b.destinationPort ∧ a.transportProtocol = b.transportProtocol
      ∧ a.vlanTag = b.vlanTag then 0 else 1

lemma compareTupleFlow_eq_zero {a b : IPFlow} : compareTupleFlow a b = 0 ↔ a.key = b.key := by
  simp only [compareTupleFlow, IPFlow.key, Key.mk.injEq]
  split_ifs with h
  · simpa using h
  · simpa using h

/-- `MAX_FLOW_TABLE_SIZE`. -/
def maxFlowTableSize : ℕ := 60000

/-- `getIndex`, in 32-bit arithmetic. -/
def getIndex (f : IPFlow) : ℕ :=
  (f.sourceIp + f.destinationIp + f.sourcePort.toUInt32 + f.destinationPort.toUInt32
    + f.transportProtocol.toUInt32).toNat % maxFlowTableSize

/-- The bucket of a key. -/
def Key.index (k : Key) : ℕ :=
  (k.sourceIp + k.destinationIp + k.sourcePort.toUInt32 + k.destinationPort.toUInt32
    + k.transportProtocol.toUInt32).toNat % maxFlowTableSize

lemma getIndex_eq (f : IPFlow) : getIndex f = f.key.index := rfl

lemma Key.index_lt (k : Key) : k.index < maxFlowTableSize :=
  Nat.mod_lt _ (by decide)

/-! ## Reading the buffer -/

/-- `ntohs(*(uint16_t*)bp)`. -/
def be16 (b : ℕ → UInt8) (bp : ℕ) : UInt16 :=
  (b bp).toUInt16 <<< 8 ||| (b (bp + 1)).toUInt16

/-- `ntohl(*(uint32_t*)bp)`. -/
def be32 (b : ℕ → UInt8) (bp : ℕ) : UInt32 :=
  (be16 b bp).toUInt32 <<< 16 ||| (be16 b (bp + 2)).toUInt32

/-- The six bytes of a MAC address as they lie in a `uint64_t`. -/
def macAt (b : ℕ → UInt8) (bp : ℕ) : UInt64 :=
  (b bp).toUInt64 ||| (b (bp + 1)).toUInt64 <<< 8 ||| (b (bp + 2)).toUInt64 <<< 16
    ||| (b (bp + 3)).toUInt64 <<< 24 ||| (b (bp + 4)).toUInt64 <<< 32
    ||| (b (bp + 5)).toUInt64 <<< 40

/-- `memcpy(&mac, bp, ETH_ALEN)`: the upper two bytes stay. -/
def loadMac (old : UInt64) (b : ℕ → UInt8) (bp : ℕ) : UInt64 :=
  (old &&& 0xFFFF000000000000) ||| macAt b bp

/-! ## The parser -/

/-- Where the parser returns. -/
inductive Verdict where
  /-- A `return` without any count. -/
  | ignored
  /-- `count_pckts_malformed++`. -/
  | malformed
  /-- The call of `insertFlow`. -/
  | accepted
deriving DecidableEq, Repr

/-- The content of `incoming` at the return, and whether `parsePacket` has already stamped the
session with the time of the packet. -/
structure Parsed where
  flow : IPFlow
  stamped : Bool
  verdict : Verdict
deriving DecidableEq, Repr

/-- `processL4Flow` up to the call of `insertFlow`.  The data length it computes is not used. -/
def processL4Flow (p : Packet) (flow : IPFlow) (bp : ℕ) (ipLen ipHLen : UInt16) : Parsed :=
  if flow.transportProtocol = 6 then
    let flow := { flow with
      sourcePort := be16 p.bytes bp, destinationPort := be16 p.bytes (bp + 2) }
    let tcpHLen : ℤ := (((p.bytes (bp + 12) >>> 4) &&& 0x0F) * 4).toNat
    if (ipLen.toNat : ℤ) - ipHLen.toNat < tcpHLen ∨ tcpHLen < 20 ∨ 60 < tcpHLen then
      ⟨flow, true, .malformed⟩
    else
      ⟨flow, true, .accepted⟩
  else if flow.transportProtocol = 17 then
    let flow := { flow with
      sourcePort := be16 p.bytes bp, destinationPort := be16 p.bytes (bp + 2) }
    if (ipLen.toNat : ℤ) - ipHLen.toNat < 8 then
      ⟨flow, true, .malformed⟩
    else
      ⟨flow, true, .accepted⟩
  else if flow.transportProtocol = 1 then
    let flow := { flow with
      sourcePort := (p.bytes bp).toUInt16, destinationPort := (p.bytes (bp + 1)).toUInt16 }
    ⟨flow, true, .accepted⟩
  else
    ⟨flow, true, .ignored⟩

/-- The cases `UDP_16B`, `TCP_16B` and `ICMP_16B` of the loop, which differ in the protocol. -/
def parseL4 (p : Packet) (proto : UInt8) (flow : IPFlow) (bp : ℕ) (ipLen ipHLen : UInt16) :
    Parsed :=
  processL4Flow p
    { flow with npack := 1, nbytes := p.len.toUInt64, transportProtocol := proto } bp ipLen ipHLen

/-- The loop of `parsePacket`.  Every turn that goes on moves `bp` by at least four, so `caplen + 1`
turns are enough to get past the first test. -/
def parseLoop (p : Packet) : ℕ → IPFlow → ℕ → UInt16 → UInt16 → UInt16 → Parsed
  | 0, flow, _, _, _, _ => ⟨flow, false, .ignored⟩
  | fuel + 1, flow, bp, aux16, ipLen, ipHLen =>
      if p.caplen.toNat ≤ bp then
        ⟨flow, false, .ignored⟩
      else if aux16 = 0x8100 then
        let flow := { flow with vlanTag := be16 p.bytes (bp + 2) &&& 0x0FFF }
        parseLoop p fuel flow (bp + 4) (be16 p.bytes (bp + 4)) ipLen ipHLen
      else if aux16 = 0x0800 then
        let bp := bp + 2
        if p.caplen.toNat ≤ bp + 20 then
          ⟨flow, false, .ignored⟩
        else
          let flow := { flow with
            sourceIp := be32 p.bytes (bp + 12), destinationIp := be32 p.bytes (bp + 16) }
          let aux16 := (p.bytes (bp + 9)).toUInt16
          let ipHLen := ((p.bytes bp &&& 0x0F) * 4).toUInt16
          let ipLen := be16 p.bytes (bp + 2)
          if ipHLen < 20 ∨ 60 < ipHLen ∨ ipLen < ipHLen then
            ⟨flow, false, .malformed⟩
          else
            parseLoop p fuel flow (bp + ipHLen.toNat) aux16 ipLen ipHLen
      else if aux16 = 0x0011 then
        parseL4 p 17 flow bp ipLen ipHLen
      else if aux16 = 0x0006 then
        parseL4 p 6 flow bp ipLen ipHLen
      else if aux16 = 0x0001 then
        parseL4 p 1 flow bp ipLen ipHLen
      else
        ⟨flow, false, .ignored⟩

/-- `parsePacket`, from the moment it holds a session with content `flow`. -/
def parse (p : Packet) (flow : IPFlow) : Parsed :=
  let flow := { flow with
    vlanTag := 0xFFFF
    destinationMac := loadMac flow.destinationMac p.bytes 0
    sourceMac := loadMac flow.sourceMac p.bytes 6 }
  parseLoop p (p.caplen.toNat + 1) flow 12 (be16 p.bytes 12) 0 0

/-! ## What an accepted packet leaves in the session -/

/-- The flow of a packet parsed into a cleared session. -/
def Packet.flow (p : Packet) : IPFlow :=
  (parse p .zero).flow

/-- The key of a packet. -/
def Packet.key (p : Packet) : Key :=
  p.flow.key

/-- What every accepting return leaves behind: one packet, its length, its addresses. -/
structure Counted (p : Packet) (dst src : UInt64) (r : Parsed) : Prop where
  stamped : r.verdict = .accepted → r.stamped = true
  npack : r.verdict = .accepted → r.flow.npack = 1
  nbytes : r.verdict = .accepted → r.flow.nbytes = p.len.toUInt64
  destinationMac : r.flow.destinationMac = dst
  sourceMac : r.flow.sourceMac = src

lemma counted_processL4Flow (p : Packet) (flow : IPFlow) (hn : flow.npack = 1)
    (hb : flow.nbytes = p.len.toUInt64) (bp : ℕ) (ipLen ipHLen : UInt16) :
    Counted p flow.destinationMac flow.sourceMac (processL4Flow p flow bp ipLen ipHLen) := by
  unfold processL4Flow
  simp only
  split_ifs <;> exact ⟨fun _ => rfl, fun _ => hn, fun _ => hb, rfl, rfl⟩

lemma counted_parseL4 (p : Packet) (proto : UInt8) (flow : IPFlow) (bp : ℕ)
    (ipLen ipHLen : UInt16) :
    Counted p flow.destinationMac flow.sourceMac (parseL4 p proto flow bp ipLen ipHLen) :=
  counted_processL4Flow p
    { flow with npack := 1, nbytes := p.len.toUInt64, transportProtocol := proto } rfl rfl
    bp ipLen ipHLen

lemma counted_parseLoop (p : Packet) (fuel : ℕ) (flow : IPFlow) (bp : ℕ)
    (aux16 ipLen ipHLen : UInt16) :
    Counted p flow.destinationMac flow.sourceMac (parseLoop p fuel flow bp aux16 ipLen ipHLen) := by
  induction fuel generalizing flow bp aux16 ipLen ipHLen with
  | zero => exact ⟨nofun, nofun, nofun, rfl, rfl⟩
  | succ fuel ih =>
      unfold parseLoop
      simp only
      split_ifs
      · exact ⟨nofun, nofun, nofun, rfl, rfl⟩
      · exact ih { flow with vlanTag := be16 p.bytes (bp + 2) &&& 0x0FFF } _ _ _ _
      · exact ⟨nofun, nofun, nofun, rfl, rfl⟩
      · exact ⟨nofun, nofun, nofun, rfl, rfl⟩
      · exact ih { flow with
          sourceIp := be32 p.bytes (bp + 2 + 12)
          destinationIp := be32 p.bytes (bp + 2 + 16) } _ _ _ _
      · exact counted_parseL4 ..
      · exact counted_parseL4 ..
      · exact counted_parseL4 ..
      · exact ⟨nofun, nofun, nofun, rfl, rfl⟩

/-- **An accepted packet counts as one packet of its length**, with the addresses of its frame. -/
lemma counted_parse (p : Packet) :
    Counted p (macAt p.bytes 0) (macAt p.bytes 6) (parse p .zero) := by
  have hzero : ∀ bp, loadMac 0 p.bytes bp = macAt p.bytes bp := by
    intro bp
    rw [loadMac, UInt64.zero_and, UInt64.zero_or]
  have h := counted_parseLoop p (p.caplen.toNat + 1)
    { IPFlow.zero with
      vlanTag := 0xFFFF
      destinationMac := loadMac 0 p.bytes 0
      sourceMac := loadMac 0 p.bytes 6 } 12 (be16 p.bytes 12) 0 0
  simp only [hzero] at h
  rw [parse]
  simp only [IPFlow.zero, hzero]
  exact h

end Flow
