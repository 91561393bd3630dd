import XdpFlows.Flow.Reads

/-!
# Frames the parser accepts

`parseLoop_tags` and `parseLoop_ip` say how the loop of `parsePacket` gets over the headers: any
number of 802.1Q tags in one step, then the IPv4 header.  With them `parse` is evaluated on every
frame.

* `parse_accepted`: an accepted frame carries IPv4 with a sound transport header, or the field
  behind its tags holds 1.  The loop keeps EtherTypes and IP protocols in one variable, and 1 is
  the protocol number of ICMP.
* `parse_typeOne`: such a frame is accepted whatever follows.
-/

namespace Flow

variable {p : Packet} {flow : IPFlow} {bp n fuel : ℕ} {ipLen ipHLen : UInt16}

/-! ## Over the headers -/

/-- The VLAN noted after `n` tags: that of the last one. -/
def vlanAfter (b : ℕ → UInt8) (bp : ℕ) (vlanTag : UInt16) : ℕ → UInt16
  | 0 => vlanTag
  | n + 1 => be16 b (bp + 4 * n + 2) &&& 0x0FFF

lemma vlanAfter_succ (b : ℕ → UInt8) (bp : ℕ) (vlanTag : UInt16) (n : ℕ) :
    vlanAfter b (bp + 4) (be16 b (bp + 2) &&& 0x0FFF) n = vlanAfter b bp vlanTag (n + 1) := by
  cases n with
  | zero => rfl
  | succ n =>
      simp only [vlanAfter]
      rw [show bp + 4 + 4 * n + 2 = bp + 4 * (n + 1) + 2 by omega]

/-- The loop gets over `n` tags, as long as each of them begins below `caplen`. -/
lemma parseLoop_tags (htags : Tags p.bytes bp n) (hcap : ∀ k < n, bp + 4 * k < p.caplen.toNat) :
    parseLoop p (fuel + n) flow bp (be16 p.bytes bp) ipLen ipHLen
      = parseLoop p fuel { flow with vlanTag := vlanAfter p.bytes bp flow.vlanTag n } (bp + 4 * n)
          (be16 p.bytes (bp + 4 * n)) ipLen ipHLen := by
  induction n generalizing flow bp with
  | zero => rfl
  | succ n ih =>
      obtain ⟨htag, htags⟩ := tags_succ.mp htags
      have hbp : bp < p.caplen.toNat := hcap 0 (Nat.succ_pos n)
      have hcap' : ∀ k < n, bp + 4 + 4 * k < p.caplen.toNat := by
        intro k hk
        have hnext := hcap (k + 1) (Nat.succ_lt_succ hk)
        omega
      rw [show fuel + (n + 1) = (fuel + n) + 1 by omega, parseLoop, if_neg (by omega), if_pos htag,
        ih htags hcap', vlanAfter_succ p.bytes bp flow.vlanTag,
        show bp + 4 + 4 * n = bp + 4 * (n + 1) by omega]

/-- The loop gets over an IPv4 header with sound lengths. -/
lemma parseLoop_ip (hcap : bp + 22 < p.caplen.toNat) (hlen : LengthsOk p.bytes (bp + 2)) :
    parseLoop p (fuel + 1) flow bp 0x0800 ipLen ipHLen
      = parseLoop p fuel { flow with
            sourceIp := be32 p.bytes (bp + 14), destinationIp := be32 p.bytes (bp + 18) }
          (bp + 2 + (ipHLenAt p.bytes (bp + 2)).toNat) (p.bytes (bp + 11)).toUInt16
          (ipLenAt p.bytes (bp + 2)) (ipHLenAt p.bytes (bp + 2)) := by
  rw [parseLoop, if_neg (by omega), if_neg (by decide), if_pos rfl, if_neg (by omega)]
  simp only
  split
  · exact absurd ‹_› ((lengthsOk_iff _).mp hlen)
  · rfl

/-- The protocols the loop knows. -/
def IsTransport (proto : UInt8) : Prop :=
  proto = 1 ∨ proto = 6 ∨ proto = 17

lemma parseLoop_l4 {proto : UInt8} (hproto : IsTransport proto) (hcap : bp < p.caplen.toNat) :
    parseLoop p (fuel + 1) flow bp proto.toUInt16 ipLen ipHLen
      = parseL4 p proto flow bp ipLen ipHLen := by
  rw [parseLoop, if_neg (by omega)]
  rcases hproto with rfl | rfl | rfl
  · rfl
  · rfl
  · rfl

/-- How many tags the loop gets over. -/
lemma exists_tags (p : Packet) (bp : ℕ) :
    ∃ n, Tags p.bytes bp n ∧ (∀ k < n, bp + 4 * k < p.caplen.toNat)
      ∧ (p.caplen.toNat ≤ bp + 4 * n ∨ be16 p.bytes (bp + 4 * n) ≠ 0x8100) := by
  have hex : ∃ n, p.caplen.toNat ≤ bp + 4 * n ∨ be16 p.bytes (bp + 4 * n) ≠ 0x8100 :=
    ⟨p.caplen.toNat, Or.inl (by omega)⟩
  refine ⟨Nat.find hex, fun k hk => ?_, fun k hk => ?_, Nat.find_spec hex⟩
  · have hmin := Nat.find_min hex hk
    simp only [not_or, not_not] at hmin
    exact hmin.2
  · have hmin := Nat.find_min hex hk
    simp only [not_or, not_le] at hmin
    exact hmin.1

/-- What `parsePacket` has written before the loop. -/
def addressed (p : Packet) (flow : IPFlow) : IPFlow :=
  { flow with
    vlanTag := 0xFFFF
    destinationMac := loadMac flow.destinationMac p.bytes 0
    sourceMac := loadMac flow.sourceMac p.bytes 6 }

/-- `parse` from behind the tags. -/
lemma parse_tags (flow : IPFlow) (htags : Tags p.bytes 12 n)
    (hcap : ∀ k < n, 12 + 4 * k < p.caplen.toNat) :
    ∃ fuel, p.caplen.toNat < fuel + n + 1 ∧ parse p flow
      = parseLoop p (fuel + 1)
          { addressed p flow with vlanTag := vlanAfter p.bytes 12 0xFFFF n } (12 + 4 * n)
          (be16 p.bytes (12 + 4 * n)) 0 0 := by
  have hn : n ≤ p.caplen.toNat := by
    cases n with
    | zero => exact Nat.zero_le _
    | succ n =>
        have hlast := hcap n (Nat.lt_succ_self n)
        omega
  refine ⟨p.caplen.toNat - n, by omega, ?_⟩
  rw [parse, ← addressed, show p.caplen.toNat + 1 = (p.caplen.toNat - n + 1) + n by omega,
    parseLoop_tags htags hcap]
  rfl

/-! ## What is accepted -/

/-- The header length of the TCP header at `l4`. -/
def tcpHLenAt (b : ℕ → UInt8) (l4 : ℕ) : ℕ :=
  (((b (l4 + 12) >>> 4) &&& 0x0F) * 4).toNat

/-- The transport header at `l4` fits into `payload` bytes of IP payload. -/
def TransportOk (b : ℕ → UInt8) (proto : UInt8) (l4 : ℕ) (payload : ℤ) : Prop :=
  proto = 1 ∨ (proto = 6 ∧ 20 ≤ tcpHLenAt b l4 ∧ (tcpHLenAt b l4 : ℤ) ≤ payload)
    ∨ (proto = 17 ∧ 8 ≤ payload)

/-- Behind `n` tags the frame carries IPv4, with lengths in order and a transport header that fits. -/
structure Carries (b : ℕ → UInt8) (n : ℕ) : Prop where
  tags : Tags b 12 n
  etherType : be16 b (12 + 4 * n) = 0x0800
  lengths : LengthsOk b (14 + 4 * n)
  transport : TransportOk b (b (14 + 4 * n + 9)) (14 + 4 * n + (ipHLenAt b (14 + 4 * n)).toNat)
    ((ipLenAt b (14 + 4 * n)).toNat - (ipHLenAt b (14 + 4 * n)).toNat)

/-- The field behind the tags holds 1. -/
def TypeOne (p : Packet) : Prop :=
  ∃ n, Tags p.bytes 12 n ∧ be16 p.bytes (12 + 4 * n) = 0x0001 ∧ 12 + 4 * n < p.caplen.toNat

/-- Tags end in one place. -/
lemma tags_unique {b : ℕ → UInt8} {m : ℕ} (hn : Tags b bp n) (hm : Tags b bp m)
    (hn' : be16 b (bp + 4 * n) ≠ 0x8100) (hm' : be16 b (bp + 4 * m) ≠ 0x8100) : n = m := by
  rcases Nat.lt_trichotomy n m with hlt | heq | hgt
  · exact absurd (hm n hlt) hn'
  · exact heq
  · exact absurd (hn m hgt) hm'

lemma Carries.not_typeOne (h : Carries p.bytes n) : ¬ TypeOne p := by
  rintro ⟨m, hm, hone, -⟩
  have hn' : be16 p.bytes (12 + 4 * n) ≠ 0x8100 := by
    rw [h.etherType]
    decide
  have hm' : be16 p.bytes (12 + 4 * m) ≠ 0x8100 := by
    rw [hone]
    decide
  obtain rfl := tags_unique h.tags hm hn' hm'
  rw [h.etherType] at hone
  exact absurd hone (by decide)

lemma processL4Flow_accepted
    (h : (processL4Flow p flow bp ipLen ipHLen).verdict = .accepted) :
    TransportOk p.bytes flow.transportProtocol bp (ipLen.toNat - ipHLen.toNat) := by
  unfold processL4Flow at h
  simp only at h
  split_ifs at h with h6 hbad h17 hbad h1
  · refine Or.inr (Or.inl ⟨h6, ?_⟩)
    simp only [not_or, not_lt] at hbad
    exact ⟨by exact_mod_cast hbad.2.1, hbad.1⟩
  · exact Or.inr (Or.inr ⟨h17, not_lt.mp hbad⟩)
  · exact Or.inl h1

/-- `processL4Flow` leaves the addresses alone. -/
lemma processL4Flow_ips :
    (processL4Flow p flow bp ipLen ipHLen).flow.sourceIp = flow.sourceIp
      ∧ (processL4Flow p flow bp ipLen ipHLen).flow.destinationIp = flow.destinationIp := by
  unfold processL4Flow
  simp only
  split_ifs <;> exact ⟨rfl, rfl⟩

/-- What the loop accepts at a field that is neither a tag nor IPv4. -/
lemma parseLoop_l4_accepted {aux16 : UInt16} (htag : aux16 ≠ 0x8100) (hip : aux16 ≠ 0x0800)
    (h : (parseLoop p fuel flow bp aux16 ipLen ipHLen).verdict = .accepted) :
    ∃ proto : UInt8, aux16 = proto.toUInt16 ∧ bp < p.caplen.toNat
      ∧ TransportOk p.bytes proto bp (ipLen.toNat - ipHLen.toNat)
      ∧ parseLoop p fuel flow bp aux16 ipLen ipHLen = parseL4 p proto flow bp ipLen ipHLen := by
  cases fuel with
  | zero => exact absurd h (by simp [parseLoop])
  | succ fuel =>
      by_cases hcap : p.caplen.toNat ≤ bp
      · rw [parseLoop, if_pos hcap] at h
        exact absurd h (by simp)
      have hlt : bp < p.caplen.toNat := by omega
      -- the three cases of the switch differ in the protocol only
      have hcase : ∀ proto : UInt8, IsTransport proto → aux16 = proto.toUInt16 →
          ∃ proto : UInt8, aux16 = proto.toUInt16 ∧ bp < p.caplen.toNat
            ∧ TransportOk p.bytes proto bp (ipLen.toNat - ipHLen.toNat)
            ∧ parseLoop p (fuel + 1) flow bp aux16 ipLen ipHLen
              = parseL4 p proto flow bp ipLen ipHLen := by
        rintro proto hproto rfl
        rw [parseLoop_l4 hproto hlt] at h ⊢
        exact ⟨proto, rfl, hlt, processL4Flow_accepted h, rfl⟩
      by_cases h17 : aux16 = 0x0011
      · exact hcase 17 (Or.inr (Or.inr rfl)) h17
      by_cases h6 : aux16 = 0x0006
      · exact hcase 6 (Or.inr (Or.inl rfl)) h6
      by_cases h1 : aux16 = 0x0001
      · exact hcase 1 (Or.inl rfl) h1
      · rw [parseLoop, if_neg hcap, if_neg htag, if_neg hip, if_neg h17, if_neg h6, if_neg h1] at h
        exact absurd h (by simp)

/-- **An accepted frame carries IPv4, or the field behind its tags holds 1.**  In the first case the
addresses are those of the IPv4 header. -/
lemma parse_accepted (h : (parse p flow).verdict = .accepted) :
    (∃ n, Carries p.bytes n
      ∧ (parse p flow).flow.sourceIp = be32 p.bytes (14 + 4 * n + 12)
      ∧ (parse p flow).flow.destinationIp = be32 p.bytes (14 + 4 * n + 16)) ∨ TypeOne p := by
  obtain ⟨n, htags, hcap, hend⟩ := exists_tags p 12
  obtain ⟨fuel, hfuel, heq⟩ := parse_tags flow htags hcap
  rw [heq] at h ⊢
  by_cases hpast : p.caplen.toNat ≤ 12 + 4 * n
  · rw [parseLoop, if_pos hpast] at h
    exact absurd h (by simp)
  have htag := hend.resolve_left hpast
  by_cases hip : be16 p.bytes (12 + 4 * n) = 0x0800
  · refine Or.inl ⟨n, ?_⟩
    rw [hip] at h ⊢
    by_cases hlong : 12 + 4 * n + 22 < p.caplen.toNat
    · by_cases hlen : LengthsOk p.bytes (12 + 4 * n + 2)
      · rw [parseLoop_ip hlong hlen] at h ⊢
        obtain ⟨proto, hproto, -, hok, hl4⟩ :=
          parseLoop_l4_accepted (toUInt16_ne_tag _) (toUInt16_ne_ip _) h
        obtain rfl : p.bytes (12 + 4 * n + 11) = proto := by
          have hnat := congrArg UInt16.toNat hproto
          rw [UInt8.toNat_toUInt16, UInt8.toNat_toUInt16] at hnat
          exact UInt8.toNat_inj.mp hnat
        rw [hl4]
        rw [show 12 + 4 * n + 2 = 14 + 4 * n by omega] at hlen hok
        rw [show 12 + 4 * n + 11 = 14 + 4 * n + 9 by omega] at hok
        rw [show 12 + 4 * n + 14 = 14 + 4 * n + 12 by omega,
          show 12 + 4 * n + 18 = 14 + 4 * n + 16 by omega]
        exact ⟨⟨htags, hip, hlen, hok⟩, processL4Flow_ips⟩
      · rw [parseLoop, if_neg (by omega), if_neg (by decide), if_pos rfl, if_neg (by omega)] at h
        simp only at h
        split at h
        · exact absurd h (by simp)
        · exact absurd ((lengthsOk_iff _).mpr ‹_›) hlen
    · rw [parseLoop, if_neg hpast, if_neg (by decide), if_pos rfl, if_pos (by omega)] at h
      exact absurd h (by simp)
  · obtain ⟨proto, hproto, hlt, hok, -⟩ := parseLoop_l4_accepted htag hip h
    -- before an IPv4 header both lengths are 0, so only ICMP gets through
    rcases hok with rfl | ⟨rfl, h20, hle⟩ | ⟨rfl, hle⟩
    · exact Or.inr ⟨n, htags, hproto, hlt⟩
    · have hzero : ((0 : UInt16).toNat : ℤ) - (0 : UInt16).toNat = 0 := by decide
      omega
    · have hzero : ((0 : UInt16).toNat : ℤ) - (0 : UInt16).toNat = 0 := by decide
      omega

/-- A frame with 1 behind its tags is accepted, whatever follows. -/
lemma parse_typeOne (h : TypeOne p) (flow : IPFlow) : (parse p flow).verdict = .accepted := by
  obtain ⟨n, htags, hone, hlt⟩ := h
  obtain ⟨fuel, -, heq⟩ := parse_tags flow htags fun k hk => by omega
  rw [heq, hone, show (0x0001 : UInt16) = (1 : UInt8).toUInt16 from rfl,
    parseLoop_l4 (Or.inl rfl) hlt]
  rfl

end Flow
