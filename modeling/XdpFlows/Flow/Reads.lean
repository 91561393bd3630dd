import XdpFlows.Core.ByteReader
import XdpFlows.Flow.Packet

/-!
# What the parser looks at

`parse` is a function of the whole buffer.  Here the same walk is a program that reads one byte
after the other, in the order of `parsePacket` (`dp.c`) and `processL4Flow` (`IPflow.c`), so that
its reads can be compared with `caplen`.  `run_readPacket` says that nothing else has changed.

`Captured` is the place where the two guards of `parsePacket` fall short: the one at the head of the
loop covers the byte at `bp` only, and neither covers the ports, which `processL4Flow` reads without
being told `caplen`.  `readPacket_within_iff` says that there is no other place.
-/

namespace Flow

open ByteReader Reader

/-! ## The parser as a program -/

def readBe16 (bp : ℕ) : Reader UInt8 UInt16 := do
  let high ← cell bp
  let low ← cell (bp + 1)
  return high.toUInt16 <<< 8 ||| low.toUInt16

def readBe32 (bp : ℕ) : Reader UInt8 UInt32 := do
  let high ← readBe16 bp
  let low ← readBe16 (bp + 2)
  return high.toUInt32 <<< 16 ||| low.toUInt32

/-- `memcpy(&mac, bp, ETH_ALEN)`. -/
def readMac (old : UInt64) (bp : ℕ) : Reader UInt8 UInt64 := do
  let b0 ← cell bp
  let b1 ← cell (bp + 1)
  let b2 ← cell (bp + 2)
  let b3 ← cell (bp + 3)
  let b4 ← cell (bp + 4)
  let b5 ← cell (bp + 5)
  let mac : UInt64 := b0.toUInt64 ||| b1.toUInt64 <<< 8 ||| b2.toUInt64 <<< 16
    ||| b3.toUInt64 <<< 24 ||| b4.toUInt64 <<< 32 ||| b5.toUInt64 <<< 40
  return old &&& (0xFFFF000000000000 : UInt64) ||| mac

/-- `processL4Flow`, which is not given `caplen`. -/
def readL4Flow (flow : IPFlow) (bp : ℕ) (ipLen ipHLen : UInt16) : Reader UInt8 Parsed :=
  if flow.transportProtocol = 6 then do
    let sourcePort ← readBe16 bp
    let destinationPort ← readBe16 (bp + 2)
    let flow := { flow with sourcePort := sourcePort, destinationPort := destinationPort }
    let offset ← cell (bp + 12)
    let tcpHLen : ℤ := (((offset >>> 4) &&& 0x0F) * 4).toNat
    return if (ipLen.toNat : ℤ) - ipHLen.toNat < tcpHLen ∨ tcpHLen < 20 ∨ 60 < tcpHLen then
      ⟨flow, true, .malformed⟩ else ⟨flow, true, .accepted⟩
  else if flow.transportProtocol = 17 then do
    let sourcePort ← readBe16 bp
    let destinationPort ← readBe16 (bp + 2)
    let flow := { flow with sourcePort := sourcePort, destinationPort := destinationPort }
    return if (ipLen.toNat : ℤ) - ipHLen.toNat < 8 then
      ⟨flow, true, .malformed⟩ else ⟨flow, true, .accepted⟩
  else if flow.transportProtocol = 1 then do
    let type ← cell bp
    let code ← cell (bp + 1)
    let flow := { flow with sourcePort := type.toUInt16, destinationPort := code.toUInt16 }
    return ⟨flow, true, .accepted⟩
  else
    return ⟨flow, true, .ignored⟩

/-- The cases of the loop that end in `processL4Flow`. -/
def readL4 (len : UInt32) (proto : UInt8) (flow : IPFlow) (bp : ℕ) (ipLen ipHLen : UInt16) :
    Reader UInt8 Parsed :=
  readL4Flow { flow with npack := 1, nbytes := len.toUInt64, transportProtocol := proto }
    bp ipLen ipHLen

/-- The loop of `parsePacket`. -/
def readLoop (caplen len : UInt32) : ℕ → IPFlow → ℕ → UInt16 → UInt16 → UInt16 →
    Reader UInt8 Parsed
  | 0, flow, _, _, _, _ => return ⟨flow, false, .ignored⟩
  | fuel + 1, flow, bp, aux16, ipLen, ipHLen =>
      if caplen.toNat ≤ bp then
        return ⟨flow, false, .ignored⟩
      else if aux16 = 0x8100 then do
        let vlanTag ← readBe16 (bp + 2)
        let flow := { flow with vlanTag := vlanTag &&& 0x0FFF }
        let aux16 ← readBe16 (bp + 4)
        readLoop caplen len fuel flow (bp + 4) aux16 ipLen ipHLen
      else if aux16 = 0x0800 then
        let bp := bp + 2
        if caplen.toNat ≤ bp + 20 then
          return ⟨flow, false, .ignored⟩
        else do
          let sourceIp ← readBe32 (bp + 12)
          let destinationIp ← readBe32 (bp + 16)
          let flow := { flow with sourceIp := sourceIp, destinationIp := destinationIp }
          let proto ← cell (bp + 9)
          let hlV ← cell bp
          let ipHLen := ((hlV &&& 0x0F) * 4).toUInt16
          let ipLen ← readBe16 (bp + 2)
          if ipHLen < 20 ∨ 60 < ipHLen ∨ ipLen < ipHLen then
            return ⟨flow, false, .malformed⟩
          else
            readLoop caplen len fuel flow (bp + ipHLen.toNat) proto.toUInt16 ipLen ipHLen
      else if aux16 = 0x0011 then
        readL4 len 17 flow bp ipLen ipHLen
      else if aux16 = 0x0006 then
        readL4 len 6 flow bp ipLen ipHLen
      else if aux16 = 0x0001 then
        readL4 len 1 flow bp ipLen ipHLen
      else
        return ⟨flow, false, .ignored⟩

/-- `parsePacket`, from the moment it holds a session with content `flow`. -/
def readPacket (caplen len : UInt32) (flow : IPFlow) : Reader UInt8 Parsed := do
  let destinationMac ← readMac flow.destinationMac 0
  let sourceMac ← readMac flow.sourceMac 6
  let flow := { flow with
    vlanTag := 0xFFFF, destinationMac := destinationMac, sourceMac := sourceMac }
  let aux16 ← readBe16 12
  readLoop caplen len (caplen.toNat + 1) flow 12 aux16 0 0

/-! ## It computes `parse` -/

section Run

variable (b : ℕ → UInt8) (bp : ℕ)

@[simp] lemma run_readBe16 : run b (readBe16 bp) = be16 b bp := rfl

@[simp] lemma run_readBe32 : run b (readBe32 bp) = be32 b bp := rfl

@[simp] lemma run_readMac (old : UInt64) : run b (readMac old bp) = loadMac old b bp := rfl

variable (p : Packet)

lemma run_readL4Flow (flow : IPFlow) (ipLen ipHLen : UInt16) :
    run p.bytes (readL4Flow flow bp ipLen ipHLen) = processL4Flow p flow bp ipLen ipHLen := by
  unfold readL4Flow processL4Flow
  by_cases h6 : flow.transportProtocol = 6
  · simp only [if_pos h6, run_bind, run_pure, run_readBe16, run_cell]
    rfl
  by_cases h17 : flow.transportProtocol = 17
  · simp only [if_neg h6, if_pos h17, run_bind, run_pure, run_readBe16]
  by_cases h1 : flow.transportProtocol = 1
  · simp only [if_neg h6, if_neg h17, if_pos h1, run_bind, run_pure, run_cell]
  · simp only [if_neg h6, if_neg h17, if_neg h1, run_pure]

lemma run_readL4 (proto : UInt8) (flow : IPFlow) (ipLen ipHLen : UInt16) :
    run p.bytes (readL4 p.len proto flow bp ipLen ipHLen) = parseL4 p proto flow bp ipLen ipHLen :=
  run_readL4Flow ..

lemma run_readLoop (fuel : ℕ) (flow : IPFlow) (bp : ℕ) (aux16 ipLen ipHLen : UInt16) :
    run p.bytes (readLoop p.caplen p.len fuel flow bp aux16 ipLen ipHLen)
      = parseLoop p fuel flow bp aux16 ipLen ipHLen := by
  induction fuel generalizing flow bp aux16 ipLen ipHLen with
  | zero => rfl
  | succ fuel ih =>
      unfold readLoop parseLoop
      by_cases hcap : p.caplen.toNat ≤ bp
      · simp only [if_pos hcap, run_pure]
      by_cases htag : aux16 = 0x8100
      · simp only [if_neg hcap, if_pos htag, run_bind, run_readBe16, ih]
      by_cases hip : aux16 = 0x0800
      · simp only [if_neg hcap, if_neg htag, if_pos hip]
        by_cases hshort : p.caplen.toNat ≤ bp + 2 + 20
        · simp only [if_pos hshort, run_pure]
        · rw [if_neg hshort, if_neg hshort, run_bind, run_readBe32, run_bind, run_readBe32, run_bind,
            run_cell, run_bind, run_cell, run_bind, run_readBe16, run_ite]
          simp only [run_pure, ih]
      simp only [if_neg hcap, if_neg htag, if_neg hip]
      split_ifs <;> simp only [run_readL4, run_pure]

/-- **The reading program is the parser.** -/
lemma run_readPacket (flow : IPFlow) :
    run p.bytes (readPacket p.caplen p.len flow) = parse p flow := by
  simp only [readPacket, parse, run_bind, run_readMac, run_readBe16, run_readLoop]

end Run

/-! ## Tags and headers of a frame -/

/-- From `bp` on there are `n` 802.1Q tags, told by the EtherType in front of each. -/
def Tags (b : ℕ → UInt8) (bp n : ℕ) : Prop :=
  ∀ k < n, be16 b (bp + 4 * k) = 0x8100

lemma tags_zero (b : ℕ → UInt8) (bp : ℕ) : Tags b bp 0 :=
  fun _ hk => absurd hk (Nat.not_lt_zero _)

lemma tags_succ {b : ℕ → UInt8} {bp n : ℕ} :
    Tags b bp (n + 1) ↔ be16 b bp = 0x8100 ∧ Tags b (bp + 4) n := by
  have hshift : ∀ k, bp + 4 * (k + 1) = bp + 4 + 4 * k := by
    intro k
    omega
  constructor
  · intro h
    refine ⟨h 0 (Nat.succ_pos n), fun k hk => ?_⟩
    rw [← hshift]
    exact h (k + 1) (Nat.succ_lt_succ hk)
  · rintro ⟨h0, h⟩ k hk
    cases k with
    | zero => exact h0
    | succ k =>
        rw [hshift]
        exact h k (Nat.lt_of_succ_lt_succ hk)

/-- What holds behind every number of tags, one tag at a time. -/
lemma forall_tags_iff {b : ℕ → UInt8} {bp : ℕ} {P : ℕ → Prop} :
    (∀ n, Tags b bp n → P (bp + 4 * n))
      ↔ P bp ∧ (be16 b bp = 0x8100 → ∀ n, Tags b (bp + 4) n → P (bp + 4 + 4 * n)) := by
  constructor
  · intro h
    refine ⟨h 0 (tags_zero b bp), fun htag n hn => ?_⟩
    have hnext := h (n + 1) (tags_succ.mpr ⟨htag, hn⟩)
    rwa [show bp + 4 * (n + 1) = bp + 4 + 4 * n by omega] at hnext
  · rintro ⟨h0, h⟩ n hn
    cases n with
    | zero => exact h0
    | succ n =>
        obtain ⟨htag, hn⟩ := tags_succ.mp hn
        rw [show bp + 4 * (n + 1) = bp + 4 + 4 * n by omega]
        exact h htag n hn

/-- The header length of the IPv4 header at `ip`. -/
def ipHLenAt (b : ℕ → UInt8) (ip : ℕ) : UInt16 :=
  ((b ip &&& 0x0F) * 4).toUInt16

/-- The total length of the IPv4 header at `ip`. -/
def ipLenAt (b : ℕ → UInt8) (ip : ℕ) : UInt16 :=
  be16 b (ip + 2)

/-- The lengths of an IPv4 header are such as the parser lets pass. -/
def LengthsOk (b : ℕ → UInt8) (ip : ℕ) : Prop :=
  20 ≤ ipHLenAt b ip ∧ ipHLenAt b ip ≤ 60 ∧ ipHLenAt b ip ≤ ipLenAt b ip

/-! ## The reads that no guard covers -/

/-- How many bytes `processL4Flow` looks at: the ports, and for TCP the header length too. -/
def l4Reads (proto : UInt16) : ℕ :=
  if proto = 0x0011 then 4 else if proto = 0x0006 then 13 else if proto = 0x0001 then 2 else 0

/-- At the EtherType at `bp` the parser finds what it looks at: a whole tag, the ports of a datagram
of which at least one byte was captured, and the ports it takes an EtherType below 256 for. -/
structure CapturedAt (p : Packet) (bp : ℕ) : Prop where
  tag : be16 p.bytes bp = 0x8100 → bp + 6 ≤ p.caplen.toNat
  ports : be16 p.bytes bp = 0x0800 → bp + 22 < p.caplen.toNat → LengthsOk p.bytes (bp + 2) →
    bp + 2 + (ipHLenAt p.bytes (bp + 2)).toNat < p.caplen.toNat →
    bp + 2 + (ipHLenAt p.bytes (bp + 2)).toNat + l4Reads (p.bytes (bp + 11)).toUInt16
      ≤ p.caplen.toNat
  length : bp + l4Reads (be16 p.bytes bp) ≤ p.caplen.toNat

/-- Behind any number of tags the parser finds what it looks at. -/
def Captured (p : Packet) : Prop :=
  ∀ n, Tags p.bytes 12 n → CapturedAt p (12 + 4 * n)

section Within

variable {b : ℕ → UInt8} {n : ℕ}

@[simp] lemma within_readBe16 (bp : ℕ) : Within b n (readBe16 bp) ↔ bp + 1 < n := by
  simp only [readBe16, within_bind, within_cell, within_pure, and_true]
  omega

@[simp] lemma within_readBe32 (bp : ℕ) : Within b n (readBe32 bp) ↔ bp + 3 < n := by
  simp only [readBe32, within_bind, within_readBe16, within_pure, and_true]
  omega

@[simp] lemma within_readMac (old : UInt64) (bp : ℕ) : Within b n (readMac old bp) ↔ bp + 5 < n := by
  simp only [readMac, within_bind, within_cell, within_pure, and_true]
  omega

variable {p : Packet}

lemma within_readL4_udp (len : UInt32) (flow : IPFlow) (bp : ℕ) (ipLen ipHLen : UInt16) :
    Within b n (readL4 len 17 flow bp ipLen ipHLen) ↔ bp + 4 ≤ n := by
  simp only [readL4, readL4Flow, if_neg (show ¬ (17 : UInt8) = 6 by decide), if_true, within_bind,
    within_readBe16, within_pure, and_true]
  omega

lemma within_readL4_tcp (len : UInt32) (flow : IPFlow) (bp : ℕ) (ipLen ipHLen : UInt16) :
    Within b n (readL4 len 6 flow bp ipLen ipHLen) ↔ bp + 13 ≤ n := by
  simp only [readL4, readL4Flow, if_true, within_bind, within_readBe16, within_cell, within_pure,
    and_true]
  omega

lemma within_readL4_icmp (len : UInt32) (flow : IPFlow) (bp : ℕ) (ipLen ipHLen : UInt16) :
    Within b n (readL4 len 1 flow bp ipLen ipHLen) ↔ bp + 2 ≤ n := by
  simp only [readL4, readL4Flow, if_neg (show ¬ (1 : UInt8) = 6 by decide),
    if_neg (show ¬ (1 : UInt8) = 17 by decide), if_true, within_bind, within_cell, within_pure,
    and_true]
  omega

/-- The cases of the loop that read no further header. -/
lemma within_readLoop_l4 {caplen len : UInt32} {fuel : ℕ} {flow : IPFlow} {bp : ℕ}
    {aux16 ipLen ipHLen : UInt16} (htag : aux16 ≠ 0x8100) (hip : aux16 ≠ 0x0800) :
    Within b caplen.toNat (readLoop caplen len (fuel + 1) flow bp aux16 ipLen ipHLen)
      ↔ (bp < caplen.toNat → bp + l4Reads aux16 ≤ caplen.toNat) := by
  unfold readLoop l4Reads
  by_cases hcap : caplen.toNat ≤ bp
  · simp only [if_pos hcap, within_pure, true_iff]
    intro hlt
    omega
  have hlt : bp < caplen.toNat := by omega
  simp only [if_neg hcap, if_neg htag, if_neg hip, hlt, forall_const]
  split_ifs
  · exact within_readL4_udp ..
  · exact within_readL4_tcp ..
  · exact within_readL4_icmp ..
  · simp only [within_pure, true_iff]
    omega

lemma toUInt16_lt (x : UInt8) : x.toUInt16.toNat < 256 := by
  rw [UInt8.toNat_toUInt16]
  exact x.toNat_lt

lemma toUInt16_ne_tag (x : UInt8) : x.toUInt16 ≠ 0x8100 := by
  intro h
  have hlt := toUInt16_lt x
  rw [h] at hlt
  exact absurd hlt (by decide)

lemma toUInt16_ne_ip (x : UInt8) : x.toUInt16 ≠ 0x0800 := by
  intro h
  have hlt := toUInt16_lt x
  rw [h] at hlt
  exact absurd hlt (by decide)

lemma lengthsOk_iff (ip : ℕ) : LengthsOk b ip ↔
    ¬ (ipHLenAt b ip < 20 ∨ 60 < ipHLenAt b ip ∨ ipLenAt b ip < ipHLenAt b ip) := by
  simp only [LengthsOk, not_or, UInt16.not_lt]

/-- The IPv4 case of the loop: its own reads are covered by its guard, the ports are not. -/
lemma within_readLoop_ip {fuel : ℕ} {flow : IPFlow} {bp : ℕ} {ipLen ipHLen : UInt16}
    (hbp : bp < p.caplen.toNat) :
    Within p.bytes p.caplen.toNat
        (readLoop p.caplen p.len (fuel + 2) flow bp 0x0800 ipLen ipHLen)
      ↔ (bp + 22 < p.caplen.toNat → LengthsOk p.bytes (bp + 2) →
          bp + 2 + (ipHLenAt p.bytes (bp + 2)).toNat < p.caplen.toNat →
          bp + 2 + (ipHLenAt p.bytes (bp + 2)).toNat + l4Reads (p.bytes (bp + 11)).toUInt16
            ≤ p.caplen.toNat) := by
  rw [readLoop, if_neg (by omega), if_neg (by decide), if_pos rfl]
  by_cases hshort : p.caplen.toNat ≤ bp + 2 + 20
  · simp only [if_pos hshort, within_pure, true_iff]
    intro hlong
    omega
  have hlong : bp + 22 < p.caplen.toNat := by omega
  rw [if_neg hshort]
  simp only [within_bind, within_readBe32, within_readBe16, within_cell, hlong, forall_const,
    lengthsOk_iff]
  rw [run_readBe32, run_readBe32, run_cell, run_cell, run_readBe16]
  by_cases hlen : ipHLenAt p.bytes (bp + 2) < 20 ∨ 60 < ipHLenAt p.bytes (bp + 2)
      ∨ ipLenAt p.bytes (bp + 2) < ipHLenAt p.bytes (bp + 2)
  · simp only [hlen, not_true_eq_false, IsEmpty.forall_iff, iff_true]
    refine ⟨by omega, by omega, by omega, by omega, by omega, ?_⟩
    split
    · exact within_pure _
    · exact absurd hlen ‹_›
  · simp only [hlen, not_false_eq_true, forall_const]
    split
    · exact absurd ‹_› hlen
    rw [within_readLoop_l4 (toUInt16_ne_tag _) (toUInt16_ne_ip _)]
    constructor
    · rintro ⟨-, -, -, -, -, h⟩
      exact h
    · intro h
      exact ⟨by omega, by omega, by omega, by omega, by omega, h⟩

/-- The loop stays below `caplen` exactly if every header it comes to is captured. -/
lemma within_readLoop_iff {fuel : ℕ} {flow : IPFlow} {bp : ℕ} {ipLen ipHLen : UInt16}
    (hfuel : p.caplen.toNat < bp + fuel) (hbp : bp + 2 ≤ p.caplen.toNat) :
    Within p.bytes p.caplen.toNat
        (readLoop p.caplen p.len fuel flow bp (be16 p.bytes bp) ipLen ipHLen)
      ↔ ∀ n, Tags p.bytes bp n → CapturedAt p (bp + 4 * n) := by
  induction fuel generalizing flow bp with
  | zero => omega
  | succ fuel ih =>
      rw [forall_tags_iff]
      by_cases htag : be16 p.bytes bp = 0x8100
      · have hat : CapturedAt p bp ↔ bp + 6 ≤ p.caplen.toNat := by
          refine ⟨fun h => h.tag htag, fun h => ⟨fun _ => h, ?_, ?_⟩⟩
          · rw [htag]
            exact fun hip => absurd hip (by decide)
          · rw [htag]
            exact hbp.trans' (by simp [l4Reads])
        rw [hat, htag, readLoop, if_neg (by omega), if_pos rfl]
        simp only [within_bind, within_readBe16, run_readBe16, forall_const]
        by_cases hcap : bp + 6 ≤ p.caplen.toNat
        · rw [ih (by omega) (by omega)]
          constructor
          · exact fun h => ⟨hcap, h.2.2⟩
          · exact fun h => ⟨by omega, by omega, h.2⟩
        · constructor
          · exact fun h => absurd h.2.1 (by omega)
          · exact fun h => absurd h.1 hcap
      · simp only [htag, IsEmpty.forall_iff, and_true]
        by_cases hip : be16 p.bytes bp = 0x0800
        · obtain ⟨fuel, rfl⟩ : ∃ m, fuel = m + 1 := ⟨fuel - 1, by omega⟩
          rw [hip, within_readLoop_ip (by omega)]
          constructor
          · intro h
            refine ⟨fun h' => absurd h' htag, fun _ => h, ?_⟩
            rw [hip]
            exact hbp.trans' (by simp [l4Reads])
          · exact fun h => h.ports hip
        · rw [within_readLoop_l4 htag hip]
          constructor
          · exact fun h => ⟨fun h' => absurd h' htag, fun h' => absurd h' hip, h (by omega)⟩
          · exact fun h _ => h.length

/-- **The parser reads captured bytes only, if and only if the headers it comes to are captured.** -/
lemma readPacket_within_iff (flow : IPFlow) (hcap : 14 ≤ p.caplen) :
    Within p.bytes p.caplen.toNat (readPacket p.caplen p.len flow) ↔ Captured p := by
  have hcap : 14 ≤ p.caplen.toNat := UInt32.le_iff_toNat_le.mp hcap
  simp only [readPacket, within_bind, within_readMac, within_readBe16, run_readBe16]
  rw [within_readLoop_iff (by omega) (by omega)]
  constructor
  · exact fun h => h.2.2.2
  · exact fun h => ⟨by omega, by omega, by omega, h⟩

end Within

end Flow
