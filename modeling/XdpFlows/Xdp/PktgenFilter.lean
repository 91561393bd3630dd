import XdpFlows.Xdp.Verdict

/-!
# The pktgen filter

`af_xdp_kern.c` hands the packets of the kernel's packet generator to the AF_XDP socket and passes on the
others.  Its `parse_ethhdr` and `parse_iphdr` are those of `xdp_echo.c`, word for word; its other two
parsers are here with the cursor they leave behind, because `xdp_sock_prog` goes on from it without asking
whether `parse_udphdr` succeeded.

`redirects_iff_pktgen`: nothing goes wrong.  Where the cursor has not moved, there is no room for a UDP
header and even less for a pktgen header.
-/

namespace Xdp

open ByteReader Reader

/-! ## The program -/

namespace Pktgen

/-- `parse_udphdr`: the length of the payload or -1, and the cursor. -/
def parseUdphdr (len pos : ℕ) : Reader UInt8 (ℤ × ℕ) :=
  if len < pos + 8 then return (-1, pos)
  else do
    let udpLen ← readLe16 (pos + 4)
    let payload : ℤ := (bswap16 udpLen).toNat - 8
    if payload < 0 then return (-1, pos + 8)
    else return (payload, pos + 8)

/-- `parse_pktgenhdr`: 1 for a pktgen header, 0 for something else, -1 for too little, and the cursor. -/
def parsePktgenhdr (len pos : ℕ) : Reader UInt8 (ℤ × ℕ) :=
  if len < pos + 16 then return (-1, pos)
  else do
    let pghMagic ← readLe32 pos
    if pghMagic = 0x55E99BBE then return (1, pos + 16)
    else return (0, pos + 16)

/-- The branch of `xdp_sock_prog` for UDP. -/
def udpBranch (ctx : XskCtx) (len l4 : ℕ) : Reader UInt8 Action := do
  -- `(void)l;`
  let (_, pos) ← parseUdphdr len l4
  let (l, _) ← parsePktgenhdr len pos
  if l = 1 then
    if ctx.xsksMap ctx.rxQueueIndex then return ctx.redirected
    else return .pass
  else return .pass

/-- `xdp_sock_prog`. -/
def xdpSockProg (ctx : XskCtx) (len : ℕ) : Reader UInt8 Action := do
  match ← parseEthhdr len 0 with
  | none => return .pass
  | some (hProto, iph) =>
      if hProto ≠ bswap16 0x0800 then return .pass
      else
        match ← parseIphdr len iph with
        | none => return .pass
        | some (nhProto, l4) =>
            if nhProto = 17 then udpBranch ctx len l4
            else return .pass

end Pktgen

/-! ## What it redirects -/

namespace Pktgen

/-- A pktgen packet, with its magic number behind the UDP header. -/
structure PktgenFrame (b : ℕ → UInt8) (len : ℕ) : Prop where
  ipv4 : Ipv4Frame b len
  protocol : b 23 = 17
  room : l4Offset b + 24 ≤ len
  magic : Holds b (l4Offset b + 8) [0xBE, 0x9B, 0xE9, 0x55]

section Branch

variable {b : ℕ → UInt8} {ctx : XskCtx} {len pos : ℕ}

lemma readLe32_eq_magic :
    run b (readLe32 pos) = 0x55E99BBE ↔ Holds b pos [0xBE, 0x9B, 0xE9, 0x55] := by
  have hword : (run b (readLe32 pos)).toNat
      = (run b (readLe16 (pos + 2))).toNat * 65536 + (run b (readLe16 pos)).toNat := toNat_join32 _ _
  have hbyte : ∀ x y : UInt8, x = y ↔ x.toNat = y.toNat := fun x y => UInt8.toNat_inj.symm
  have h0 := (b pos).toNat_lt
  have h1 := (b (pos + 1)).toNat_lt
  have h2 := (b (pos + 2)).toNat_lt
  have h3 := (b (pos + 3)).toNat_lt
  rw [← UInt32.toNat_inj, hword, toNat_readLe16, toNat_readLe16]
  simp only [holds_cons, holds_nil, and_true, hbyte, UInt32.reduceToNat, UInt8.reduceToNat, Nat.add_assoc,
    Nat.reduceAdd]
  omega

/-- The cursor moves whenever there is room for a UDP header. -/
lemma run_parseUdphdr_snd :
    (run b (parseUdphdr len pos)).2 = if pos + 8 ≤ len then pos + 8 else pos := by
  rw [parseUdphdr, run_ite]
  by_cases hlen : len < pos + 8
  · rw [if_pos hlen, if_neg (by omega), run_pure]
  · rw [if_neg hlen, if_pos (by omega), run_bind]
    simp only [run_ite, run_pure]
    split_ifs <;> rfl

lemma parsePktgenhdr_fst_eq_one : (run b (parsePktgenhdr len pos)).1 = 1
    ↔ pos + 16 ≤ len ∧ Holds b pos [0xBE, 0x9B, 0xE9, 0x55] := by
  rw [parsePktgenhdr, run_ite]
  by_cases hlen : len < pos + 16
  · rw [if_pos hlen, run_pure]
    refine ⟨fun h => absurd h (by simp), fun h => by omega⟩
  · rw [if_neg hlen, run_bind, ← readLe32_eq_magic]
    simp only [run_ite, run_pure]
    split_ifs with hmagic
    · exact ⟨fun _ => ⟨by omega, hmagic⟩, fun _ => rfl⟩
    · exact ⟨fun h => absurd h (by simp), fun h => absurd h.2 hmagic⟩

/-- Without room for a UDP header the magic number is not looked at. -/
lemma unmoved_too_short (h : (run b (parseUdphdr len pos)).2 = pos) :
    len < pos + 8 ∧ run b (parsePktgenhdr len pos) = (-1, pos) := by
  rw [run_parseUdphdr_snd] at h
  have hlen : len < pos + 8 := by
    by_contra hroom
    rw [if_pos (by omega)] at h
    omega
  refine ⟨hlen, ?_⟩
  rw [parsePktgenhdr, run_ite, if_pos (by omega), run_pure]

lemma run_udpBranch (hhelper : ctx.redirectMap.Documented) : (pos + 24 ≤ len ∧ Holds b (pos + 8) [0xBE, 0x9B, 0xE9, 0x55]
      ∧ ctx.xsksMap ctx.rxQueueIndex = true → run b (udpBranch ctx len pos) = .redirect)
    ∧ (¬ (pos + 24 ≤ len ∧ Holds b (pos + 8) [0xBE, 0x9B, 0xE9, 0x55]
      ∧ ctx.xsksMap ctx.rxQueueIndex = true) → run b (udpBranch ctx len pos) = .pass) := by
  rw [udpBranch]
  simp only [run_bind, run_ite, run_pure, run_parseUdphdr_snd]
  by_cases hroom : pos + 8 ≤ len
  · rw [if_pos hroom]
    constructor
    · rintro ⟨hlen, hmagic, hmap⟩
      rw [if_pos (parsePktgenhdr_fst_eq_one.mpr ⟨by omega, hmagic⟩), if_pos hmap, XskCtx.redirected]
      exact hhelper.success _ _ hmap
    · intro hnot
      split_ifs with hone hmap
      · obtain ⟨hlen, hmagic⟩ := parsePktgenhdr_fst_eq_one.mp hone
        exact absurd ⟨by omega, hmagic, hmap⟩ hnot
      · rfl
      · rfl
  · rw [if_neg hroom, if_neg fun hone => by have := (parsePktgenhdr_fst_eq_one.mp hone).1; omega]
    exact ⟨fun h => by omega, fun _ => rfl⟩

lemma run_xdpSockProg : (Ipv4Frame b len → b 23 = 17 →
      run b (xdpSockProg ctx len) = run b (udpBranch ctx len (l4Offset b)))
    ∧ (¬ (Ipv4Frame b len ∧ b 23 = 17) → run b (xdpSockProg ctx len) = .pass) := by
  have htype : run b (readLe16 12) = bswap16 0x0800 ↔ be16At b 12 = 0x0800 := readLe16_eq_bswap16
  rw [xdpSockProg, run_bind, run_parseEthhdr]
  constructor
  · rintro ⟨heth, hihl, hcomplete⟩ hproto
    rw [if_pos (by omega)]
    simp only [Nat.zero_add]
    rw [run_ite, if_neg (not_not.mpr (htype.mpr heth)), run_bind, run_parseIphdr,
      if_pos ⟨hihl, hcomplete⟩]
    simp only [if_pos hproto]
    rfl
  · intro hnot
    split_ifs with hlen
    · simp only [Nat.zero_add]
      rw [run_ite]
      split_ifs with heth
      · rfl
      · rw [run_bind, run_parseIphdr]
        split_ifs with hheader
        · have hip : Ipv4Frame b len := ⟨htype.mp (not_not.mp heth), hheader.1, hheader.2⟩
          simp only [if_neg fun hproto => hnot ⟨hip, hproto⟩]
          rfl
        · rfl
    · rfl

lemma within_udpBranch : Within b len (udpBranch ctx len pos) := by
  have hudp : Within b len (parseUdphdr len pos) := by
    rw [parseUdphdr]
    split_ifs with hlen
    · exact within_pure _
    · simp only [within_bind, within_readLe16]
      refine ⟨by omega, ?_⟩
      split_ifs
      · exact within_pure _
      · exact within_pure _
  have hpktgen : ∀ pos, Within b len (parsePktgenhdr len pos) := by
    intro pos
    rw [parsePktgenhdr]
    split_ifs with hlen
    · exact within_pure _
    · simp only [within_bind, readLe32, within_readLe16, within_pure, and_true]
      refine ⟨by omega, ?_⟩
      split_ifs
      · exact within_pure _
      · exact within_pure _
  rw [udpBranch]
  simp only [within_bind]
  refine ⟨hudp, hpktgen _, ?_⟩
  split_ifs
  · exact within_pure _
  · exact within_pure _
  · exact within_pure _

lemma within_xdpSockProg : Within b len (xdpSockProg ctx len) := by
  rw [xdpSockProg, within_bind]
  refine ⟨within_parseEthhdr, ?_⟩
  split
  · exact within_pure _
  · split_ifs
    · exact within_pure _
    · rw [within_bind]
      refine ⟨within_parseIphdr, ?_⟩
      split
      · exact within_pure _
      · split_ifs
        · exact within_udpBranch
        · exact within_pure _

end Branch

/-- **The filter redirects exactly the pktgen packets**, if the queue has a socket, and passes on all other
packets.  It never reads behind `data_end`, and where `parse_udphdr` leaves the cursor at the UDP header
the magic number is not read. -/
theorem redirects_iff_pktgen (ctx : XskCtx) (hhelper : ctx.redirectMap.Documented)
    (pkt : List UInt8) :
    Within (ofList pkt 0) pkt.length (xdpSockProg ctx pkt.length)
      ∧ (run (ofList pkt 0) (xdpSockProg ctx pkt.length) = .redirect
        ↔ PktgenFrame (ofList pkt 0) pkt.length ∧ ctx.xsksMap ctx.rxQueueIndex = true)
      ∧ (run (ofList pkt 0) (xdpSockProg ctx pkt.length) = .pass
        ↔ ¬ (PktgenFrame (ofList pkt 0) pkt.length ∧ ctx.xsksMap ctx.rxQueueIndex = true))
      ∧ ∀ l4, (run (ofList pkt 0) (parseUdphdr pkt.length l4)).2 = l4 →
        run (ofList pkt 0) (udpBranch ctx pkt.length l4) = .pass
          ∧ run (ofList pkt 0) (parsePktgenhdr pkt.length l4) = (-1, l4) := by
  generalize ofList pkt 0 = b
  generalize pkt.length = len
  have hyes : PktgenFrame b len ∧ ctx.xsksMap ctx.rxQueueIndex = true →
      run b (xdpSockProg ctx len) = .redirect := by
    rintro ⟨⟨hip, hproto, hroom, hmagic⟩, hmap⟩
    rw [run_xdpSockProg.1 hip hproto]
    exact (run_udpBranch hhelper).1 ⟨hroom, hmagic, hmap⟩
  have hno : ¬ (PktgenFrame b len ∧ ctx.xsksMap ctx.rxQueueIndex = true) →
      run b (xdpSockProg ctx len) = .pass := by
    intro hnot
    by_cases hudp : Ipv4Frame b len ∧ b 23 = 17
    · rw [run_xdpSockProg.1 hudp.1 hudp.2]
      refine (run_udpBranch hhelper).2 fun h => hnot ⟨⟨hudp.1, hudp.2, h.1, h.2.1⟩, h.2.2⟩
    · exact run_xdpSockProg.2 hudp
  refine ⟨within_xdpSockProg, ?_, ?_, fun l4 hunmoved => ?_⟩
  · refine ⟨fun h => ?_, hyes⟩
    by_contra hnot
    rw [hno hnot] at h
    exact absurd h (by simp)
  · refine ⟨fun h hpktgen => ?_, hno⟩
    rw [hyes hpktgen] at h
    exact absurd h (by simp)
  · obtain ⟨hshort, hnothing⟩ := unmoved_too_short hunmoved
    exact ⟨(run_udpBranch hhelper).2 fun h => by omega, hnothing⟩

/-- What the packet generator sends: the magic number stands behind the UDP header. -/
def generated : List UInt8 :=
  [2, 0, 0, 0, 0, 2, 2, 0, 0, 0, 0, 1, 8, 0]
    ++ [69, 0, 0, 44, 0, 0, 0, 0, 32, 17, 0, 0, 10, 0, 0, 1, 10, 0, 0, 2]
    ++ [0, 9, 0, 9, 0, 24, 0, 0]
    ++ [0xBE, 0x9B, 0xE9, 0x55, 0, 0, 0, 1, 0, 0, 0, 0, 0, 0, 0, 0]

/-- From queue 3 it goes to the socket if there is one, and on if there is none. -/
theorem redirects_iff_pktgen_generated :
    run (ofList generated 0) (xdpSockProg ⟨3, fun queue => queue = 3, lookupRedirect⟩ generated.length)
        = .redirect
      ∧ run (ofList generated 0) (xdpSockProg ⟨3, fun _ => false, lookupRedirect⟩ generated.length)
        = .pass := by
  have hframe : PktgenFrame (ofList generated 0) generated.length := by
    refine ⟨⟨by decide, by decide, by decide⟩, by decide, by decide, ?_⟩
    simp only [holds_cons, holds_nil]
    decide
  obtain ⟨-, hsocket, -⟩ :=
    redirects_iff_pktgen ⟨3, fun queue => queue = 3, lookupRedirect⟩ lookupRedirect_documented generated
  obtain ⟨-, -, hnone, -⟩ :=
    redirects_iff_pktgen ⟨3, fun _ => false, lookupRedirect⟩ lookupRedirect_documented generated
  exact ⟨hsocket.mpr ⟨hframe, rfl⟩, hnone.mpr fun h => absurd h.2 (by decide)⟩

end Pktgen

end Xdp
