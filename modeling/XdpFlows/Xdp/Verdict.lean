import XdpFlows.Xdp.Echo

/-!
# The verdict of the echo program

The rule `xdp_echo_prog` is made for, read off the bytes of the frame: TCP to the port of the map is
dropped, UDP to it sent back, other UDP handed to the socket, and the rest passed on.  What the parsers
accept is said once for each of them (`run_parseIphdr`, `run_tcpVerdict`, `run_udpVerdict`), and the
verdict is read off that (`run_verdict`).

`parse_tcphdr` compares the length of the header with `sizeof(h)`, the size of a pointer, where the one in
`common/parsing_helpers.h` has `sizeof(*h)`.  `follows_rule_iff`: the program follows its rule except on
the headers that only it accepts.
-/

namespace Xdp

open ByteReader Reader

/-! ## The rule -/

/-- The number in two bytes in network byte order. -/
def be16At (b : ℕ → UInt8) (o : ℕ) : ℕ :=
  (b o).toNat * 256 + (b (o + 1)).toNat

/-- An Ethernet frame with a complete IPv4 header. -/
structure Ipv4Frame (b : ℕ → UInt8) (len : ℕ) : Prop where
  etherType : be16At b 12 = 0x0800
  ihl : 20 ≤ hdrsizeAt b 14
  complete : 14 + hdrsizeAt b 14 ≤ len

/-- Where the header of the transport protocol is. -/
def l4Offset (b : ℕ → UInt8) : ℕ :=
  14 + hdrsizeAt b 14

/-- The length of a TCP header at `pos`. -/
def tcpHdrsizeAt (b : ℕ → UInt8) (pos : ℕ) : ℕ :=
  (b (pos + 12) >>> 4).toNat * 4

/-- TCP, with the twenty bytes every header has. -/
structure TcpFrame (b : ℕ → UInt8) (len : ℕ) : Prop where
  ipv4 : Ipv4Frame b len
  protocol : b 23 = 6
  fixed : l4Offset b + 20 ≤ len

/-- UDP, with its header. -/
structure UdpFrame (b : ℕ → UInt8) (len : ℕ) : Prop where
  ipv4 : Ipv4Frame b len
  protocol : b 23 = 17
  header : l4Offset b + 8 ≤ len
  length : 8 ≤ be16At b (l4Offset b + 4)

/-- What is to be dropped. -/
def ToDrop (b : ℕ → UInt8) (len port : ℕ) : Prop :=
  TcpFrame b len ∧ 20 ≤ tcpHdrsizeAt b (l4Offset b) ∧ l4Offset b + tcpHdrsizeAt b (l4Offset b) ≤ len
    ∧ be16At b (l4Offset b + 2) = port

/-- What is to be sent back. -/
def ToEcho (b : ℕ → UInt8) (len port : ℕ) : Prop :=
  UdpFrame b len ∧ be16At b (l4Offset b + 2) = port

/-- What is to go to the socket. -/
def ToSocket (b : ℕ → UInt8) (len port : ℕ) : Prop :=
  UdpFrame b len ∧ be16At b (l4Offset b + 2) ≠ port

/-- A TCP header of fewer than twenty bytes by its own account, but not of fewer than eight. -/
def ShortTcp (b : ℕ → UInt8) (len : ℕ) : Prop :=
  TcpFrame b len ∧ 8 ≤ tcpHdrsizeAt b (l4Offset b) ∧ tcpHdrsizeAt b (l4Offset b) < 20

/-- `parse_tcphdr` of `common/parsing_helpers.h`. -/
def ParsingHelpers.parseTcphdr (len pos : ℕ) : Reader UInt8 (Option ℕ) :=
  if len < pos + 20 then return none
  else do
    let doff ← cell (pos + 12)
    let hdrsize := (doff >>> 4).toNat * 4
    if hdrsize < 20 then return none
    else if len < pos + hdrsize then return none
    else return some hdrsize

/-! ## What is loaded -/

section Loads

variable {b : ℕ → UInt8} {n : ℕ}

lemma toNat_bswap16 (x : UInt16) : (bswap16 x).toNat = x.toNat % 256 * 256 + x.toNat / 256 := by
  have hx := x.toNat_lt
  simp only [bswap16, UInt16.toNat_or, UInt16.toNat_shiftLeft, UInt16.toNat_shiftRight,
    show (8 : UInt16).toNat % 16 = 8 from rfl, Nat.shiftRight_eq_div_pow]
  rw [show x.toNat <<< 8 % 2 ^ 16 = (x.toNat % 256) <<< 8 by rw [Nat.shiftLeft_eq, Nat.shiftLeft_eq]; omega,
    ← Nat.shiftLeft_add_eq_or_of_lt (by omega), Nat.shiftLeft_eq]

lemma toNat_readLe16 (b : ℕ → UInt8) (o : ℕ) :
    (run b (readLe16 o)).toNat = (b (o + 1)).toNat * 256 + (b o).toNat :=
  toNat_join16 _ _

/-- A load and the number in network byte order. -/
lemma readLe16_eq_bswap16 {o : ℕ} {x : UInt16} :
    run b (readLe16 o) = bswap16 x ↔ be16At b o = x.toNat := by
  have hlow := (b o).toNat_lt
  have hhigh := (b (o + 1)).toNat_lt
  have hx := x.toNat_lt
  rw [← UInt16.toNat_inj, toNat_readLe16, toNat_bswap16, be16At]
  omega

lemma toNat_bswap16_readLe16 (b : ℕ → UInt8) (o : ℕ) :
    (bswap16 (run b (readLe16 o))).toNat = be16At b o := by
  have hlow := (b o).toNat_lt
  have hhigh := (b (o + 1)).toNat_lt
  rw [toNat_bswap16, toNat_readLe16, be16At]
  omega

@[simp] lemma within_readLe16 (o : ℕ) : Within b n (readLe16 o) ↔ o + 1 < n := by
  simp only [readLe16, within_bind, within_cell, within_pure, and_true]
  omega

end Loads

/-! ## What the parsers accept -/

section Parsers

variable {b : ℕ → UInt8} {ctx : Ctx} {len pos : ℕ}

lemma run_parseEthhdr : run b (parseEthhdr len pos)
    = if pos + 14 ≤ len then some (run b (readLe16 (pos + 12)), pos + 14) else none := by
  rw [parseEthhdr, run_ite]
  split_ifs
  · omega
  · rfl
  · rw [run_bind]
    rfl
  · omega

lemma run_parseIphdr : run b (parseIphdr len pos)
    = if 20 ≤ hdrsizeAt b pos ∧ pos + hdrsizeAt b pos ≤ len
      then some (b (pos + 9), pos + hdrsizeAt b pos) else none := by
  rw [parseIphdr, run_ite]
  by_cases hlen : len < pos + 20
  · rw [if_pos hlen, if_neg (by omega), run_pure]
  · rw [if_neg hlen, run_bind, run_cell]
    simp only [run_ite, run_pure, run_bind, run_cell]
    rw [← hdrsizeAt]
    split_ifs <;> first | rfl | omega

lemma run_parseUdphdr : run b (parseUdphdr len pos)
    = if pos + 8 ≤ len ∧ 8 ≤ be16At b (pos + 4) then some (be16At b (pos + 4) - 8) else none := by
  rw [parseUdphdr, run_ite]
  by_cases hlen : len < pos + 8
  · rw [if_pos hlen, if_neg (by omega), run_pure]
  · rw [if_neg hlen, run_bind]
    simp only [run_ite, run_pure, toNat_bswap16_readLe16]
    split_ifs <;> first | rfl | omega

/-- Both parsers of TCP headers, which differ in the least length they accept. -/
lemma run_parseTcphdr : run b (parseTcphdr len pos)
      = (if pos + 20 ≤ len ∧ 8 ≤ tcpHdrsizeAt b pos ∧ pos + tcpHdrsizeAt b pos ≤ len
        then some (tcpHdrsizeAt b pos) else none)
    ∧ run b (ParsingHelpers.parseTcphdr len pos)
      = if pos + 20 ≤ len ∧ 20 ≤ tcpHdrsizeAt b pos ∧ pos + tcpHdrsizeAt b pos ≤ len
        then some (tcpHdrsizeAt b pos) else none := by
  rw [parseTcphdr, ParsingHelpers.parseTcphdr, run_ite, run_ite]
  by_cases hlen : len < pos + 20
  · rw [if_pos hlen, if_pos hlen, if_neg (by omega), if_neg (by omega)]
    exact ⟨run_pure b none, run_pure b none⟩
  · rw [if_neg hlen, if_neg hlen, run_bind, run_bind, run_cell]
    simp only [run_ite, run_pure]
    rw [← tcpHdrsizeAt]
    constructor
    · split_ifs <;> first | rfl | omega
    · split_ifs <;> first | rfl | omega

lemma run_tcpVerdict : run b (tcpVerdict ctx len pos)
    = if (pos + 20 ≤ len ∧ 8 ≤ tcpHdrsizeAt b pos ∧ pos + tcpHdrsizeAt b pos ≤ len)
        ∧ run b (readLe16 (pos + 2)) = ctx.port then .drop else .pass := by
  rw [tcpVerdict, run_bind, run_parseTcphdr.1]
  by_cases hheader : pos + 20 ≤ len ∧ 8 ≤ tcpHdrsizeAt b pos ∧ pos + tcpHdrsizeAt b pos ≤ len
  · rw [if_pos hheader]
    simp only [run_bind, run_pure, hheader, true_and]
  · rw [if_neg hheader]
    simp only [run_pure, hheader, false_and, if_false]

lemma run_udpVerdict : run b (udpVerdict ctx len pos)
    = if pos + 8 ≤ len ∧ 8 ≤ be16At b (pos + 4)
      then if run b (readLe16 (pos + 2)) = ctx.port then .tx else ctx.redirected
      else .pass := by
  rw [udpVerdict, run_bind, run_parseUdphdr]
  by_cases hheader : pos + 8 ≤ len ∧ 8 ≤ be16At b (pos + 4)
  · simp only [if_pos hheader, run_bind, run_pure]
  · simp only [if_neg hheader, run_pure]

/-- **The verdict**, for a frame with an IPv4 header and for any other. -/
lemma run_verdict : (Ipv4Frame b len → run b (verdict ctx len)
      = if b 23 = 6 then (run b (tcpVerdict ctx len (l4Offset b)), l4Offset b)
        else if b 23 = 17 then (run b (udpVerdict ctx len (l4Offset b)), l4Offset b)
        else (.pass, l4Offset b))
    ∧ (¬ Ipv4Frame b len → (run b (verdict ctx len)).1 = .pass) := by
  have htype : run b (readLe16 12) = bswap16 0x0800 ↔ be16At b 12 = 0x0800 := readLe16_eq_bswap16
  rw [verdict, run_bind, run_parseEthhdr]
  constructor
  · rintro ⟨heth, hihl, hcomplete⟩
    rw [if_pos (by omega)]
    simp only [Nat.zero_add]
    rw [run_ite, if_neg (not_not.mpr (htype.mpr heth)), run_bind, run_parseIphdr,
      if_pos ⟨hihl, hcomplete⟩]
    simp only [run_ite, run_bind, run_pure]
    rfl
  · intro hnot
    split_ifs with hlen
    · simp only [Nat.zero_add]
      rw [run_ite]
      split_ifs with heth
      · rfl
      · rw [run_bind, run_parseIphdr, if_neg fun hheader =>
          hnot ⟨htype.mp (not_not.mp heth), hheader.1, hheader.2⟩]
        rfl
    · rfl

end Parsers

/-! ## Where the program looks -/

section Bounds

variable {b : ℕ → UInt8} {ctx : Ctx} {len pos : ℕ}

lemma within_parseEthhdr : Within b len (parseEthhdr len pos) := by
  rw [parseEthhdr]
  split_ifs with hlen
  · exact within_pure _
  · simp only [within_bind, within_readLe16, within_pure, and_true]
    omega

lemma within_parseIphdr : Within b len (parseIphdr len pos) := by
  rw [parseIphdr]
  split_ifs with hlen
  · exact within_pure _
  · simp only [within_bind, within_cell]
    refine ⟨by omega, ?_⟩
    split_ifs
    · exact within_pure _
    · exact within_pure _
    · simp only [within_bind, within_cell, within_pure, and_true]
      omega

lemma within_tcpVerdict : Within b len (tcpVerdict ctx len pos) := by
  have hparse : Within b len (parseTcphdr len pos) := by
    rw [parseTcphdr]
    split_ifs with hlen
    · exact within_pure _
    · simp only [within_bind, within_cell]
      refine ⟨by omega, ?_⟩
      split_ifs
      · exact within_pure _
      · exact within_pure _
      · exact within_pure _
  rw [tcpVerdict, within_bind, run_parseTcphdr.1]
  refine ⟨hparse, ?_⟩
  split_ifs
  · simp only [within_bind, within_readLe16, within_pure, and_true]
    omega
  · exact within_pure _

lemma within_udpVerdict : Within b len (udpVerdict ctx len pos) := by
  have hparse : Within b len (parseUdphdr len pos) := by
    rw [parseUdphdr]
    split_ifs with hlen
    · exact within_pure _
    · simp only [within_bind, within_readLe16]
      refine ⟨by omega, ?_⟩
      split_ifs
      · exact within_pure _
      · exact within_pure _
  rw [udpVerdict, within_bind, run_parseUdphdr]
  refine ⟨hparse, ?_⟩
  split_ifs
  · simp only [within_bind, within_readLe16, within_pure, and_true]
    omega
  · exact within_pure _

/-- **The program looks at nothing behind `data_end`.** -/
lemma within_verdict : Within b len (verdict ctx len) := by
  rw [verdict, within_bind]
  refine ⟨within_parseEthhdr, ?_⟩
  split
  · exact within_pure _
  · split_ifs
    · exact within_pure _
    · rw [within_bind]
      refine ⟨within_parseIphdr, ?_⟩
      split
      · exact within_pure _
      · split_ifs
        · exact within_bind _ _ |>.mpr ⟨within_tcpVerdict, within_pure _⟩
        · exact within_bind _ _ |>.mpr ⟨within_udpVerdict, within_pure _⟩
        · exact within_pure _

/-- Neither does the rewrite, and it writes nothing there. -/
lemma echo_append {pkt : List UInt8} (hpos : 34 ≤ pos) (hlen : pos + 8 ≤ pkt.length)
    (rest : List UInt8) : echo pos (pkt ++ rest) = echo pos pkt ++ rest := by
  have hmirror : ∀ k < pkt.length, mirror pos k < pkt.length := by
    intro k hk
    rw [mirror]
    simp only [exchange]
    split_ifs <;> omega
  have hapart : ∀ k, pkt.length ≤ k → mirror pos k = k := fun k hk =>
    mirror_of_apart (by omega) (by omega) (by omega)
  refine eq_of_getD (by simp) fun k => ?_
  rw [getD_echo hpos (by rw [List.length_append]; omega)]
  by_cases hk : k < pkt.length
  · rw [List.getD_append _ _ _ _ (hmirror k hk), List.getD_append _ _ _ _ (by simpa using hk),
      getD_echo hpos (by omega)]
  · rw [hapart k (by omega), List.getD_append_right _ _ _ _ (by omega),
      List.getD_append_right _ _ _ _ (by simpa using hk), length_echo]

end Bounds

/-! ## The rule and the program -/

section Rule

variable {b : ℕ → UInt8} {ctx : Ctx} {len port : ℕ} {pkt : List UInt8}

/-- What the helper returns is none of the program's own verdicts. -/
lemma redirected_ne (hhelper : ctx.redirectMap.Documented) :
    ctx.redirected ≠ .drop ∧ ctx.redirected ≠ .tx ∧ ctx.redirected ≠ .pass := by
  rw [XskCtx.redirected]
  rcases hhelper.result ctx.xsksMap ctx.rxQueueIndex with h | h <;> simp [h]

/-- A destination port and the port of the map. -/
lemma readLe16_eq_port (hport : port < 65536) (hslot : ctx.puerto1 = some (Int32.ofNat port)) {o : ℕ} :
    run b (readLe16 o) = ctx.port ↔ be16At b o = port := by
  have hword : ((ctx.puerto1.getD (-1)).toUInt32.toUInt16).toNat = port := by
    rw [hslot, Option.getD_some, Int32.toUInt32_ofNat', UInt32.toNat_toUInt16, UInt32.toNat_ofNat']
    omega
  rw [Ctx.port, readLe16_eq_bswap16, hword]

/-- What the program drops. -/
def Drops (b : ℕ → UInt8) (len port : ℕ) : Prop :=
  TcpFrame b len ∧ 8 ≤ tcpHdrsizeAt b (l4Offset b) ∧ l4Offset b + tcpHdrsizeAt b (l4Offset b) ≤ len
    ∧ be16At b (l4Offset b + 2) = port

/-- **The four verdicts.** -/
lemma verdict_cases (hport : port < 65536) (hslot : ctx.puerto1 = some (Int32.ofNat port)) :
    (Drops b len port → (run b (verdict ctx len)).1 = .drop)
      ∧ (ToEcho b len port → (run b (verdict ctx len)).1 = .tx)
      ∧ (ToSocket b len port → (run b (verdict ctx len)).1 = ctx.redirected)
      ∧ (¬ Drops b len port → ¬ ToEcho b len port → ¬ ToSocket b len port →
        (run b (verdict ctx len)).1 = .pass) := by
  have hdest : ∀ {o}, run b (readLe16 o) = ctx.port ↔ be16At b o = port :=
    readLe16_eq_port hport hslot
  refine ⟨?_, ?_, ?_, ?_⟩
  · rintro ⟨⟨hip, hproto, hfixed⟩, hleast, hcomplete, hto⟩
    rw [run_verdict.1 hip, if_pos hproto, run_tcpVerdict,
      if_pos ⟨⟨hfixed, hleast, hcomplete⟩, hdest.mpr hto⟩]
  · rintro ⟨⟨hip, hproto, hheader, hlength⟩, hto⟩
    rw [run_verdict.1 hip, if_neg (by rw [hproto]; decide), if_pos hproto, run_udpVerdict,
      if_pos ⟨hheader, hlength⟩, if_pos (hdest.mpr hto)]
  · rintro ⟨⟨hip, hproto, hheader, hlength⟩, hto⟩
    rw [run_verdict.1 hip, if_neg (by rw [hproto]; decide), if_pos hproto, run_udpVerdict,
      if_pos ⟨hheader, hlength⟩, if_neg fun h => hto (hdest.mp h)]
  · intro hdrop htx hsocket
    by_cases hip : Ipv4Frame b len
    · rw [run_verdict.1 hip]
      split_ifs with htcp hudp
      · rw [run_tcpVerdict, if_neg]
        rintro ⟨⟨hfixed, hleast, hcomplete⟩, hto⟩
        exact hdrop ⟨⟨hip, htcp, hfixed⟩, hleast, hcomplete, hdest.mp hto⟩
      · rw [run_udpVerdict, if_neg]
        rintro ⟨hheader, hlength⟩
        by_cases hto : be16At b (l4Offset b + 2) = port
        · exact htx ⟨⟨hip, hudp, hheader, hlength⟩, hto⟩
        · exact hsocket ⟨⟨hip, hudp, hheader, hlength⟩, hto⟩
      · rfl
    · exact run_verdict.2 hip

/-- Four cases that exclude each other, told apart by the verdict. -/
lemma exact_of_cases {action socket : Action} {D T S : Prop} (hD : D → ¬ T ∧ ¬ S) (hT : T → ¬ S)
    (hne : socket ≠ .drop ∧ socket ≠ .tx ∧ socket ≠ .pass) (hdrop : D → action = .drop)
    (htx : T → action = .tx) (hsocket : S → action = socket)
    (hpass : ¬ D → ¬ T → ¬ S → action = .pass) :
    (action = .drop ↔ D) ∧ (action = .tx ↔ T) ∧ (action = socket ↔ S)
      ∧ (action = .pass ↔ ¬ D ∧ ¬ T ∧ ¬ S) := by
  by_cases hd : D
  · simp [hdrop hd, hd, hD hd, hne.1.symm]
  · by_cases ht : T
    · simp [htx ht, hd, ht, hT ht, hne.2.1.symm]
    · by_cases hs : S
      · simp [hsocket hs, hd, ht, hs, hne]
      · simp [hpass hd ht hs, hd, ht, hs, hne.2.2.symm]

/-- What the rule says of a run of the program on `pkt`, with the port `port` in the map. -/
structure FollowsRule (ctx : Ctx) (port : ℕ) (pkt : List UInt8) : Prop where
  drop : (xdpEchoProg ctx pkt).1 = .drop ↔ ToDrop (ofList pkt 0) pkt.length port
  tx : (xdpEchoProg ctx pkt).1 = .tx ↔ ToEcho (ofList pkt 0) pkt.length port
  redirect : (xdpEchoProg ctx pkt).1 = ctx.redirected ↔ ToSocket (ofList pkt 0) pkt.length port
  pass : (xdpEchoProg ctx pkt).1 = .pass ↔ ¬ ToDrop (ofList pkt 0) pkt.length port
    ∧ ¬ ToEcho (ofList pkt 0) pkt.length port ∧ ¬ ToSocket (ofList pkt 0) pkt.length port
  /-- Both parsers accept the same TCP header. -/
  sibling : Ipv4Frame (ofList pkt 0) pkt.length → ofList pkt 0 23 = 6 →
    (run (ofList pkt 0) (parseTcphdr pkt.length (l4Offset (ofList pkt 0)))
      = run (ofList pkt 0) (ParsingHelpers.parseTcphdr pkt.length (l4Offset (ofList pkt 0))))
  reads : Within (ofList pkt 0) pkt.length (verdict ctx pkt.length)
  unmodified : (xdpEchoProg ctx pkt).1 ≠ .tx → (xdpEchoProg ctx pkt).2 = pkt
  /-- What lies behind the packet is neither read nor written by the rewrite. -/
  rewrite : (xdpEchoProg ctx pkt).1 = .tx →
    (xdpEchoProg ctx pkt).2 = echo (l4Offset (ofList pkt 0)) pkt
      ∧ ∀ rest, echo (l4Offset (ofList pkt 0)) (pkt ++ rest) = (xdpEchoProg ctx pkt).2 ++ rest

lemma xdpEchoProg_fst (ctx : Ctx) (pkt : List UInt8) :
    (xdpEchoProg ctx pkt).1 = (run (ofList pkt 0) (verdict ctx pkt.length)).1 := by
  rw [xdpEchoProg]
  rcases run (ofList pkt 0) (verdict ctx pkt.length) with ⟨action, l4⟩
  cases action <;> rfl

lemma xdpEchoProg_unmodified (h : (xdpEchoProg ctx pkt).1 ≠ .tx) : (xdpEchoProg ctx pkt).2 = pkt := by
  rw [xdpEchoProg] at h ⊢
  generalize run (ofList pkt 0) (verdict ctx pkt.length) = r at h ⊢
  obtain ⟨action, l4⟩ := r
  cases action with
  | tx => exact absurd rfl h
  | _ => rfl

lemma xdpEchoProg_rewrite (h : (xdpEchoProg ctx pkt).1 = .tx) :
    (xdpEchoProg ctx pkt).2 = echo (l4Offset (ofList pkt 0)) pkt
      ∧ ∀ rest, echo (l4Offset (ofList pkt 0)) (pkt ++ rest) = (xdpEchoProg ctx pkt).2 ++ rest := by
  have hpair : xdpEchoProg ctx pkt = (.tx, (xdpEchoProg ctx pkt).2) := by rw [← h]
  obtain ⟨hechoable, hout⟩ := xdpEchoProg_tx hpair
  refine ⟨hout, fun rest => ?_⟩
  rw [hout]
  exact echo_append hechoable.udph hechoable.length rest

/-- **The program follows its rule exactly on the packets without a short TCP header.** -/
theorem follows_rule_iff (hhelper : ctx.redirectMap.Documented) (hport : port < 65536)
    (hslot : ctx.puerto1 = some (Int32.ofNat port)) (pkt : List UInt8) :
    FollowsRule ctx port pkt ↔ ¬ ShortTcp (ofList pkt 0) pkt.length := by
  obtain ⟨hdrop, htx, hredirect, hpass⟩ := @verdict_cases (ofList pkt 0) ctx pkt.length port hport hslot
  constructor
  · rintro h ⟨⟨hip, hproto, hfixed⟩, hleast, hshort⟩
    have hsame := h.sibling hip hproto
    rw [run_parseTcphdr.1, run_parseTcphdr.2, if_pos ⟨hfixed, hleast, by omega⟩, if_neg (by omega)] at hsame
    exact absurd hsame (by simp)
  · intro hlong
    have hiff : Drops (ofList pkt 0) pkt.length port ↔ ToDrop (ofList pkt 0) pkt.length port := by
      refine ⟨fun ⟨htcp, hleast, hrest⟩ => ⟨htcp, ?_, hrest⟩,
        fun ⟨htcp, hleast, hrest⟩ => ⟨htcp, by omega, hrest⟩⟩
      by_contra hshort
      exact hlong ⟨htcp, hleast, by omega⟩
    rw [hiff] at hdrop hpass
    rw [← xdpEchoProg_fst] at hdrop htx hredirect hpass
    have hapart : ToDrop (ofList pkt 0) pkt.length port →
        ¬ ToEcho (ofList pkt 0) pkt.length port ∧ ¬ ToSocket (ofList pkt 0) pkt.length port := by
      rintro ⟨htcp, -⟩
      have hne : ¬ UdpFrame (ofList pkt 0) pkt.length := fun hudp =>
        absurd (htcp.protocol.symm.trans hudp.protocol) (by decide)
      exact ⟨fun h => hne h.1, fun h => hne h.1⟩
    have hapart' : ToEcho (ofList pkt 0) pkt.length port → ¬ ToSocket (ofList pkt 0) pkt.length port :=
      fun h h' => h'.2 h.2
    have hsibling : Ipv4Frame (ofList pkt 0) pkt.length → ofList pkt 0 23 = 6 →
        (run (ofList pkt 0) (parseTcphdr pkt.length (l4Offset (ofList pkt 0)))
          = run (ofList pkt 0) (ParsingHelpers.parseTcphdr pkt.length (l4Offset (ofList pkt 0)))) := by
      intro hip hproto
      rw [run_parseTcphdr.1, run_parseTcphdr.2]
      refine if_congr (and_congr_right fun hfixed => and_congr_left fun _ => ?_) rfl rfl
      refine ⟨fun hleast => ?_, fun hleast => by omega⟩
      by_contra hshort
      exact hlong ⟨⟨hip, hproto, hfixed⟩, hleast, by omega⟩
    obtain ⟨hdrop', htx', hredirect', hpass'⟩ :=
      exact_of_cases hapart hapart' (redirected_ne hhelper) hdrop htx hredirect hpass
    exact ⟨hdrop', htx', hredirect', hpass', hsibling, within_verdict, xdpEchoProg_unmodified,
      xdpEchoProg_rewrite⟩

/-- To a datagram no short header can happen. -/
theorem follows_rule_iff_ping : FollowsRule echoCtx 7 ping := by
  have hslot : echoCtx.puerto1 = some (Int32.ofNat 7) := rfl
  refine (follows_rule_iff lookupRedirect_documented (by decide) hslot ping).mpr fun h => ?_
  exact absurd h.1.protocol (by decide)

/-- A TCP header that claims to be eight bytes long, to port 7. -/
def shortSegment : List UInt8 :=
  [2, 0, 0, 0, 0, 2, 2, 0, 0, 0, 0, 1, 8, 0]
    ++ [69, 0, 0, 40, 0, 0, 0, 0, 64, 6, 102, 206, 10, 0, 0, 1, 10, 0, 0, 2]
    ++ [19, 136, 0, 7, 0, 0, 0, 0, 0, 0, 0, 0, 32, 2, 0, 0, 0, 0, 0, 0]

/-- **It is dropped**, although its header is not complete and the other parser rejects it. -/
theorem short_header_dropped :
    (xdpEchoProg echoCtx shortSegment).1 = .drop
      ∧ ¬ ToDrop (ofList shortSegment 0) shortSegment.length 7
      ∧ run (ofList shortSegment 0) (parseTcphdr shortSegment.length 34) = some 8
      ∧ run (ofList shortSegment 0) (ParsingHelpers.parseTcphdr shortSegment.length 34) = none
      ∧ ¬ FollowsRule echoCtx 7 shortSegment := by
  have hdropped : (xdpEchoProg echoCtx shortSegment).1 = .drop := by
    decide +kernel
  have hnot : ¬ ToDrop (ofList shortSegment 0) shortSegment.length 7 := by
    rintro ⟨-, hleast, -⟩
    exact absurd hleast (by decide)
  exact ⟨hdropped, hnot, by decide +kernel, by decide +kernel, fun h => hnot (h.drop.mp hdropped)⟩

end Rule

end Xdp
