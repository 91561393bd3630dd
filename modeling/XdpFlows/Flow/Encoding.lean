import XdpFlows.Flow.Headers

/-!
# Encoding and parsing

`EthFrame` is the stack of headers the parser is made for: MAC addresses, any number of 802.1Q tags, an
IPv4 header with options, and TCP, UDP or ICMP behind it.  `EthFrame.encode` writes it in network byte
order, `EthFrame.flow` says what a session should hold afterwards.  `parse_encode` is the round trip: a
buffer that begins with the encoding, captured at least to the end of it, is parsed into just that.
-/

namespace Flow

/-! ## Encoding -/

/-- `x` in network byte order. -/
def be16Bytes (x : UInt16) : List UInt8 :=
  [(x >>> 8).toUInt8, x.toUInt8]

def be32Bytes (x : UInt32) : List UInt8 :=
  be16Bytes (x >>> 16).toUInt16 ++ be16Bytes x.toUInt16

@[simp] lemma length_be16Bytes (x : UInt16) : (be16Bytes x).length = 2 := rfl

@[simp] lemma length_be32Bytes (x : UInt32) : (be32Bytes x).length = 4 := rfl

/-- An IPv4 header without the protocol, which goes with the transport header. -/
structure Ipv4Header where
  tos : UInt8
  totalLen : UInt16
  ident : UInt16
  fragment : UInt16
  ttl : UInt8
  checksum : UInt16
  source : UInt32
  destination : UInt32
  options : List UInt8

namespace Ipv4Header

/-- The header length in bytes. -/
def hLen (h : Ipv4Header) : ℕ :=
  20 + h.options.length

/-- Version 4 and the header length in words, then the fields in order. -/
def encode (h : Ipv4Header) (proto : UInt8) : List UInt8 :=
  [UInt8.ofNat (16 * 4 + h.hLen / 4), h.tos] ++ be16Bytes h.totalLen ++ be16Bytes h.ident
    ++ be16Bytes h.fragment ++ [h.ttl, proto] ++ be16Bytes h.checksum ++ be32Bytes h.source
    ++ be32Bytes h.destination ++ h.options

end Ipv4Header

/-- The headers the parser knows behind IPv4. -/
inductive Transport where
  | tcp (sourcePort destinationPort : UInt16) (seq ack : UInt32) (doff reserved : Fin 16)
      (flags : UInt8) (window checksum urgent : UInt16) (options : List UInt8)
  | udp (sourcePort destinationPort length checksum : UInt16)
  | icmp (type code : UInt8) (checksum : UInt16) (rest : UInt32)

namespace Transport

def proto : Transport → UInt8
  | tcp .. => 6
  | udp .. => 17
  | icmp .. => 1

/-- The source port, or the type of an ICMP message. -/
def sourcePort : Transport → UInt16
  | tcp s _ _ _ _ _ _ _ _ _ _ => s
  | udp s _ _ _ => s
  | icmp type _ _ _ => type.toUInt16

/-- The destination port, or the code of an ICMP message. -/
def destinationPort : Transport → UInt16
  | tcp _ d _ _ _ _ _ _ _ _ _ => d
  | udp _ d _ _ => d
  | icmp _ code _ _ => code.toUInt16

def encode : Transport → List UInt8
  | tcp s d seq ack doff reserved flags window checksum urgent options =>
      be16Bytes s ++ be16Bytes d ++ be32Bytes seq ++ be32Bytes ack
        ++ [UInt8.ofNat (16 * doff + reserved), flags] ++ be16Bytes window ++ be16Bytes checksum
        ++ be16Bytes urgent ++ options
  | udp s d length checksum =>
      be16Bytes s ++ be16Bytes d ++ be16Bytes length ++ be16Bytes checksum
  | icmp type code checksum rest => [type, code] ++ be16Bytes checksum ++ be32Bytes rest

/-- The header fits into the IP payload; that of TCP has its options behind it. -/
def Fits (payload : ℕ) : Transport → Prop
  | tcp _ _ _ _ doff _ _ _ _ _ options =>
      20 ≤ 4 * doff.val ∧ 4 * doff.val ≤ payload ∧ 20 + options.length = 4 * doff.val
  | udp .. => 8 ≤ payload
  | icmp .. => True

end Transport

/-- The headers of a frame. -/
structure EthFrame where
  destinationMac : Fin 6 → UInt8
  sourceMac : Fin 6 → UInt8
  tags : List UInt16
  ip : Ipv4Header
  transport : Transport

/-- The six bytes of a MAC address as they lie in a `uint64_t`. -/
def macWord (m : Fin 6 → UInt8) : UInt64 :=
  (m 0).toUInt64 ||| (m 1).toUInt64 <<< 8 ||| (m 2).toUInt64 <<< 16 ||| (m 3).toUInt64 <<< 24
    ||| (m 4).toUInt64 <<< 32 ||| (m 5).toUInt64 <<< 40

/-- 802.1Q tags, the outermost first. -/
def encodeTags (tags : List UInt16) : List UInt8 :=
  tags.flatMap fun tci => be16Bytes 0x8100 ++ be16Bytes tci

namespace EthFrame

def encode (f : EthFrame) : List UInt8 :=
  List.ofFn f.destinationMac ++ List.ofFn f.sourceMac ++ encodeTags f.tags ++ be16Bytes 0x0800
    ++ f.ip.encode f.transport.proto ++ f.transport.encode

/-- Options of whole words, and lengths in order. -/
structure WellFormed (f : EthFrame) : Prop where
  options : f.ip.options.length ≤ 40
  words : 4 ∣ f.ip.options.length
  total : f.ip.hLen ≤ f.ip.totalLen.toNat
  fits : f.transport.Fits (f.ip.totalLen.toNat - f.ip.hLen)

/-- What the parser is to find: the VLAN is the one of the innermost tag. -/
def flow (f : EthFrame) (len : UInt32) : IPFlow where
  sourceIp := f.ip.source
  destinationIp := f.ip.destination
  sourceMac := macWord f.sourceMac
  destinationMac := macWord f.destinationMac
  sourcePort := f.transport.sourcePort
  destinationPort := f.transport.destinationPort
  vlanTag := (f.tags.getLast?.map (· &&& 0x0FFF)).getD 0xFFFF
  transportProtocol := f.transport.proto
  npack := 1
  nbytes := len.toUInt64

end EthFrame

/-! ## Decoding -/

section Decode

open ByteReader

variable {b : ℕ → UInt8} {bp : ℕ}

lemma be16_join (x : UInt16) : (x >>> 8).toUInt8.toUInt16 <<< 8 ||| x.toUInt8.toUInt16 = x := by
  have hx := x.toNat_lt
  apply UInt16.toNat_inj.mp
  simp only [UInt16.toNat_or, UInt16.toNat_shiftLeft, UInt8.toNat_toUInt16, UInt16.toNat_toUInt8,
    UInt16.toNat_shiftRight, Nat.shiftRight_eq_div_pow, show (8 : UInt16).toNat % 16 = 8 from rfl]
  have hhigh : (x.toNat / 2 ^ 8 % 2 ^ 8) <<< 8 % 2 ^ 16 = (x.toNat / 2 ^ 8) <<< 8 := by
    simp only [Nat.shiftLeft_eq]
    omega
  rw [hhigh, ← Nat.shiftLeft_add_eq_or_of_lt (Nat.mod_lt _ (by decide)), Nat.shiftLeft_eq]
  omega

lemma be32_join (x : UInt32) : (x >>> 16).toUInt16.toUInt32 <<< 16 ||| x.toUInt16.toUInt32 = x := by
  have hx := x.toNat_lt
  apply UInt32.toNat_inj.mp
  simp only [UInt32.toNat_or, UInt32.toNat_shiftLeft, UInt16.toNat_toUInt32, UInt32.toNat_toUInt16,
    UInt32.toNat_shiftRight, Nat.shiftRight_eq_div_pow, show (16 : UInt32).toNat % 32 = 16 from rfl]
  have hhigh : (x.toNat / 2 ^ 16 % 2 ^ 16) <<< 16 % 2 ^ 32 = (x.toNat / 2 ^ 16) <<< 16 := by
    simp only [Nat.shiftLeft_eq]
    omega
  rw [hhigh, ← Nat.shiftLeft_add_eq_or_of_lt (Nat.mod_lt _ (by decide)), Nat.shiftLeft_eq]
  omega

lemma be16_of_holds {x : UInt16} (h : Holds b bp (be16Bytes x)) : be16 b bp = x := by
  obtain ⟨h0, h1, -⟩ := h
  rw [be16, h0, h1, be16_join]

lemma be32_of_holds {x : UInt32} (h : Holds b bp (be32Bytes x)) : be32 b bp = x := by
  obtain ⟨hhigh, hlow⟩ := holds_append.mp h
  have hlow' : be16 b (bp + 2) = x.toUInt16 := be16_of_holds hlow
  rw [be32, be16_of_holds hhigh, hlow', be32_join]

lemma macAt_of_holds {m : Fin 6 → UInt8} (h : Holds b bp (List.ofFn m)) : macAt b bp = macWord m := by
  simp only [List.ofFn_succ, List.ofFn_zero, holds_cons, holds_nil, and_true] at h
  obtain ⟨h0, h1, h2, h3, h4, h5⟩ := h
  rw [macAt, h0, h1, h2, h3, h4, h5]
  rfl

@[simp] lemma length_encodeTags (tags : List UInt16) : (encodeTags tags).length = 4 * tags.length := by
  induction tags with
  | nil => rfl
  | cons t tags ih =>
      simp only [encodeTags, List.flatMap_cons, List.length_append, length_be16Bytes,
        List.length_cons] at ih ⊢
      omega

/-- The walk over encoded tags ends behind them with the VLAN of the last one. -/
lemma tags_of_holds {tags : List UInt16} (h : Holds b bp (encodeTags tags)) (vlanTag : UInt16) :
    Tags b bp tags.length
      ∧ vlanAfter b bp vlanTag tags.length = (tags.getLast?.map (· &&& 0x0FFF)).getD vlanTag := by
  induction tags generalizing bp vlanTag with
  | nil => exact ⟨tags_zero b bp, rfl⟩
  | cons t tags ih =>
      rw [encodeTags, List.flatMap_cons, ← encodeTags, holds_append, holds_append] at h
      obtain ⟨⟨htype, htci⟩, hrest⟩ := h
      obtain ⟨htags, hvlan⟩ := ih hrest (t &&& 0x0FFF)
      rw [List.length_cons]
      refine ⟨tags_succ.mpr ⟨be16_of_holds htype, htags⟩, ?_⟩
      have htci' : be16 b (bp + 2) = t := be16_of_holds htci
      rw [← vlanAfter_succ, htci']
      refine hvlan.trans ?_
      rw [List.getLast?_cons]
      cases tags.getLast? with
      | none => rfl
      | some x => rfl

/-- The fields of an encoded IPv4 header. -/
structure ReadsHeader (b : ℕ → UInt8) (ip : ℕ) (h : Ipv4Header) (proto : UInt8) : Prop where
  hLen : (ipHLenAt b ip).toNat = h.hLen
  totalLen : ipLenAt b ip = h.totalLen
  proto : b (ip + 9) = proto
  source : be32 b (ip + 12) = h.source
  destination : be32 b (ip + 16) = h.destination

lemma ihl_decode : ∀ k : Fin 16, ((UInt8.ofNat (16 * 4 + k) &&& 0x0F) * 4).toUInt16.toNat = 4 * k := by
  decide

lemma doff_decode : ∀ d r : Fin 16,
    (((UInt8.ofNat (16 * d + r) >>> 4) &&& 0x0F) * 4).toNat = 4 * d := by
  decide

lemma header_of_holds {h : Ipv4Header} {proto : UInt8} {ip : ℕ} (hold : Holds b ip (h.encode proto))
    (hopt : h.options.length ≤ 40) (hwords : 4 ∣ h.options.length) : ReadsHeader b ip h proto := by
  simp only [Ipv4Header.encode, holds_append, holds_cons, holds_nil, and_true, List.length_append,
    List.length_cons, List.length_nil, length_be16Bytes, length_be32Bytes,
    Nat.zero_add] at hold
  obtain ⟨⟨⟨⟨⟨⟨⟨⟨⟨hihl, -⟩, htotal⟩, -⟩, -⟩, -, hproto⟩, -⟩, hsource⟩, hdestination⟩, -⟩ := hold
  refine ⟨?_, be16_of_holds htotal, hproto, be32_of_holds hsource, be32_of_holds hdestination⟩
  have hdvd : 4 ∣ h.hLen := Nat.dvd_add (by decide) hwords
  have hlt : h.hLen / 4 < 16 := by
    have hle : h.hLen ≤ 60 := Nat.add_le_add_left hopt 20
    omega
  rw [ipHLenAt, hihl]
  exact (ihl_decode ⟨h.hLen / 4, hlt⟩).trans (Nat.mul_div_cancel' hdvd)

/-- The decoders of `processL4Flow` on encoded headers. -/
lemma parseL4_encode {p : Packet} {t : Transport} {ipLen ipHLen : UInt16} {l4 : ℕ}
    (hold : Holds p.bytes l4 t.encode) (hle : ipHLen.toNat ≤ ipLen.toNat)
    (hfits : t.Fits (ipLen.toNat - ipHLen.toNat)) (flow : IPFlow) :
    parseL4 p t.proto flow l4 ipLen ipHLen = ⟨{ flow with
      npack := 1, nbytes := p.len.toUInt64, transportProtocol := t.proto
      sourcePort := t.sourcePort, destinationPort := t.destinationPort }, true, .accepted⟩ := by
  cases t with
  | tcp s d seq ack doff reserved flags window checksum urgent options =>
      simp only [Transport.encode, holds_append, holds_cons, holds_nil, and_true, List.length_append,
        List.length_cons, List.length_nil, length_be16Bytes, length_be32Bytes,
        Nat.zero_add, and_assoc] at hold
      obtain ⟨hs, hd, -, -, hoff, -⟩ := hold
      obtain ⟨h20, hpay, hopt⟩ := hfits
      have htcp : (((p.bytes (l4 + 12) >>> 4) &&& 0x0F) * 4).toNat = 4 * doff.val := by
        rw [hoff]
        exact doff_decode doff reserved
      have hlt := doff.isLt
      simp only [parseL4, processL4Flow, Transport.proto, if_true, htcp, be16_of_holds hs,
        be16_of_holds hd]
      rw [if_neg (by omega)]
      rfl
  | udp s d length checksum =>
      simp only [Transport.encode, holds_append, List.length_append, length_be16Bytes,
        and_assoc] at hold
      obtain ⟨hs, hd, -⟩ := hold
      have h8 : 8 ≤ ipLen.toNat - ipHLen.toNat := hfits
      simp only [parseL4, processL4Flow, Transport.proto, if_neg (show ¬ (17 : UInt8) = 6 by decide),
        if_true, be16_of_holds hs, be16_of_holds hd]
      rw [if_neg (by omega)]
      rfl
  | icmp type code checksum rest =>
      simp only [Transport.encode, List.cons_append, holds_cons] at hold
      obtain ⟨htype, hcode, -⟩ := hold
      simp only [parseL4, processL4Flow, Transport.proto, if_neg (show ¬ (1 : UInt8) = 6 by decide),
        if_neg (show ¬ (1 : UInt8) = 17 by decide), if_true, htype, hcode]
      rfl

lemma length_ipEncode (h : Ipv4Header) (proto : UInt8) : (h.encode proto).length = h.hLen := by
  simp [Ipv4Header.encode, Ipv4Header.hLen]
  omega

/-- **Parsing inverts encoding.**  Whatever the chunk holds behind the headers, a cleared session
ends up with the fields of the frame. -/
lemma parse_encode {p : Packet} {f : EthFrame} (hf : f.WellFormed)
    (hold : Holds p.bytes 0 f.encode) (hcap : f.encode.length ≤ p.caplen.toNat) :
    parse p .zero = ⟨f.flow p.len, true, .accepted⟩ := by
  have hlen : f.encode.length
      = 14 + 4 * f.tags.length + f.ip.hLen + f.transport.encode.length := by
    simp only [EthFrame.encode, List.length_append, List.length_ofFn, length_encodeTags,
      length_be16Bytes, length_ipEncode]
    omega
  have hpos : 0 < f.transport.encode.length := by
    cases f.transport <;> simp [Transport.encode, be16Bytes]
  simp only [EthFrame.encode, holds_append, List.length_append, List.length_ofFn, length_encodeTags,
    length_be16Bytes, length_ipEncode, Nat.zero_add] at hold
  obtain ⟨⟨⟨⟨⟨hdst, hsrc⟩, htags⟩, htype⟩, hip⟩, htransport⟩ := hold
  obtain ⟨htags, hvlan⟩ := tags_of_holds htags 0xFFFF
  have hheader := header_of_holds hip hf.options hf.words
  obtain ⟨fuel, hfuel, heq⟩ := parse_tags .zero htags fun k hk => by omega
  obtain ⟨fuel, rfl⟩ : ∃ m, fuel = m + 1 := ⟨fuel - 1, by omega⟩
  have hip : 6 + 6 + 4 * f.tags.length + 2 = 12 + 4 * f.tags.length + 2 := by omega
  rw [hip] at hheader htransport
  have h20 : 20 ≤ f.ip.hLen := Nat.le_add_right 20 _
  have h60 : f.ip.hLen ≤ 60 := Nat.add_le_add_left hf.options 20
  have hok : LengthsOk p.bytes (12 + 4 * f.tags.length + 2) := by
    rw [LengthsOk, hheader.totalLen]
    simp only [UInt16.le_iff_toNat_le, hheader.hLen]
    exact ⟨h20, h60, hf.total⟩
  rw [heq, be16_of_holds htype, parseLoop_ip (by omega) hok, hheader.hLen, hheader.totalLen,
    hheader.proto, hheader.source, hheader.destination]
  have hproto : IsTransport f.transport.proto := by
    cases f.transport
    · exact Or.inr (Or.inl rfl)
    · exact Or.inr (Or.inr rfl)
    · exact Or.inl rfl
  have hmac : ∀ bp, loadMac IPFlow.zero.destinationMac p.bytes bp = macAt p.bytes bp := by
    intro bp
    rw [IPFlow.zero, loadMac, UInt64.zero_and, UInt64.zero_or]
  rw [parseLoop_l4 hproto (by omega), parseL4_encode htransport (by rw [hheader.hLen]; exact hf.total)
    (by rw [hheader.hLen]; exact hf.fits), addressed, hmac, show IPFlow.zero.sourceMac
    = IPFlow.zero.destinationMac from rfl, hmac, macAt_of_holds hdst, macAt_of_holds hsrc]
  simp only [EthFrame.flow, hvlan]

end Decode

end Flow
