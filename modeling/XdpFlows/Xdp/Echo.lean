import Mathlib.Data.List.GetD
import XdpFlows.Core.ByteReader
import XdpFlows.Core.InternetChecksum

/-!
# The echo program

`xdp_echo.c` runs in the driver, on the packet in place: UDP to the port of the map is sent back to
where it came from, TCP to it is dropped, other UDP goes to the AF_XDP socket.  The packet is the list
of the bytes from `data` to `data_end`; what is loaded from it and stored into it is as wide as in the
source, on a little endian machine.

The program exchanges addresses and ports and recomputes nothing.  `echo_keeps_packets_valid` says
that it need not: the exchanged words stand at even distances from each other, and the checksums do
not see that.
-/

namespace Xdp

open ByteReader Reader InternetChecksum

/-! ## Parsing -/

/-- A 16-bit load. -/
def readLe16 (o : ℕ) : Reader UInt8 UInt16 := do
  let low ← cell o
  let high ← cell (o + 1)
  return high.toUInt16 <<< 8 ||| low.toUInt16

/-- A 32-bit load. -/
def readLe32 (o : ℕ) : Reader UInt8 UInt32 := do
  let low ← readLe16 o
  let high ← readLe16 (o + 2)
  return high.toUInt32 <<< 16 ||| low.toUInt32

/-- `bpf_htons` and `bpf_ntohs`. -/
def bswap16 (x : UInt16) : UInt16 :=
  x <<< 8 ||| x >>> 8

/-- `parse_ethhdr`: the type and where the header ends, for a cursor at `pos` and `len` bytes. -/
def parseEthhdr (len pos : ℕ) : Reader UInt8 (Option (UInt16 × ℕ)) :=
  if len < pos + 14 then return none
  else do
    let hProto ← readLe16 (pos + 12)
    return some (hProto, pos + 14)

/-- `parse_iphdr`: the protocol and where the header ends. -/
def parseIphdr (len pos : ℕ) : Reader UInt8 (Option (UInt8 × ℕ)) :=
  if len < pos + 20 then return none
  else do
    let ihl ← cell pos
    let hdrsize := (ihl &&& 0x0F).toNat * 4
    if hdrsize < 20 then return none
    else if len < pos + hdrsize then return none
    else
      let protocol ← cell (pos + 9)
      return some (protocol, pos + hdrsize)

/-- `parse_udphdr`: the length of the payload. -/
def parseUdphdr (len pos : ℕ) : Reader UInt8 (Option ℕ) :=
  if len < pos + 8 then return none
  else do
    let udpLen ← readLe16 (pos + 4)
    if (bswap16 udpLen).toNat < 8 then return none
    else return some ((bswap16 udpLen).toNat - 8)

/-- `parse_tcphdr`: the length of the header.  `sizeof(h)` is the size of a pointer. -/
def parseTcphdr (len pos : ℕ) : Reader UInt8 (Option ℕ) :=
  if len < pos + 20 then return none
  else do
    let doff ← cell (pos + 12)
    let hdrsize := (doff >>> 4).toNat * 4
    if hdrsize < 8 then return none
    else if len < pos + hdrsize then return none
    else return some hdrsize

/-! ## The verdict -/

/-- What an XDP program returns. -/
inductive Action where
  | aborted
  | drop
  | pass
  | tx
  | redirect
deriving DecidableEq

/-- `bpf_redirect_map(map, key, flags)`.  It is the kernel's, so it is a parameter; of the map it is
given which keys have an entry. -/
abbrev RedirectMap := (UInt32 → Bool) → UInt32 → UInt64 → Action

/-- What `bpf_helper_defs.h` says of it, for a call without flags: `XDP_REDIRECT` on success, which is
when the lookup in the map succeeds, and `XDP_ABORTED` on error. -/
structure RedirectMap.Documented (redirectMap : RedirectMap) : Prop where
  result : ∀ map key, redirectMap map key 0 = .redirect ∨ redirectMap map key 0 = .aborted
  success : ∀ map key, map key = true → redirectMap map key 0 = .redirect

/-- What a program that redirects sees besides the packet: the queue, which queues have a socket in
`xsks_map`, and the helper. -/
structure XskCtx where
  rxQueueIndex : UInt32
  xsksMap : UInt32 → Bool
  redirectMap : RedirectMap

/-- `bpf_redirect_map(&xsks_map, index, 0)`. -/
def XskCtx.redirected (ctx : XskCtx) : Action :=
  ctx.redirectMap ctx.xsksMap ctx.rxQueueIndex 0

/-- What `xdp_echo_prog` sees besides the packet: also what `xdp_puerto_map` holds under the key 1. -/
structure Ctx extends XskCtx where
  puerto1 : Option Int32

/-- `valor_puerto`, in network byte order. -/
def Ctx.port (ctx : Ctx) : UInt16 :=
  bswap16 (ctx.puerto1.getD (-1)).toUInt32.toUInt16

/-- The branch of `xdp_echo_prog` for TCP. -/
def tcpVerdict (ctx : Ctx) (len tcph : ℕ) : Reader UInt8 Action := do
  match ← parseTcphdr len tcph with
  | none => return .pass
  | some _ =>
      let dest ← readLe16 (tcph + 2)
      return if dest = ctx.port then .drop else .pass

/-- The branch of `xdp_echo_prog` for UDP. -/
def udpVerdict (ctx : Ctx) (len udph : ℕ) : Reader UInt8 Action := do
  match ← parseUdphdr len udph with
  | none => return .pass
  | some _ =>
      let dest ← readLe16 (udph + 2)
      return if dest = ctx.port then .tx else ctx.redirected

/-- `xdp_echo_prog` up to its verdict, with the cursor behind the IPv4 header. -/
def verdict (ctx : Ctx) (len : ℕ) : Reader UInt8 (Action × ℕ) := do
  match ← parseEthhdr len 0 with
  | none => return (.pass, 0)
  | some (hProto, iph) =>
      if hProto ≠ bswap16 0x0800 then return (.pass, iph)
      else
        match ← parseIphdr len iph with
        | none => return (.pass, iph)
        | some (protocol, l4) =>
            if protocol = 6 then
              let action ← tcpVerdict ctx len l4
              return (action, l4)
            else if protocol = 17 then
              let action ← udpVerdict ctx len l4
              return (action, l4)
            else return (.pass, l4)

/-! ## The rewrite -/

def load16 (pkt : List UInt8) (o : ℕ) : UInt16 :=
  run (ofList pkt 0) (readLe16 o)

def load32 (pkt : List UInt8) (o : ℕ) : UInt32 :=
  run (ofList pkt 0) (readLe32 o)

def store16 (pkt : List UInt8) (o : ℕ) (x : UInt16) : List UInt8 :=
  (pkt.set o x.toUInt8).set (o + 1) (x >>> 8).toUInt8

def store32 (pkt : List UInt8) (o : ℕ) (x : UInt32) : List UInt8 :=
  store16 (store16 pkt o x.toUInt16) (o + 2) (x >>> 16).toUInt16

/-- `swap_src_dst_mac`, with `p` an array of 16-bit words. -/
def swapSrcDstMac (pkt : List UInt8) : List UInt8 :=
  let dst0 := load16 pkt 0
  let dst1 := load16 pkt 2
  let dst2 := load16 pkt 4
  let pkt := store16 pkt 0 (load16 pkt 6)
  let pkt := store16 pkt 2 (load16 pkt 8)
  let pkt := store16 pkt 4 (load16 pkt 10)
  let pkt := store16 pkt 6 dst0
  let pkt := store16 pkt 8 dst1
  store16 pkt 10 dst2

/-- `saddr` and `daddr`. -/
def swapAddresses (iph : ℕ) (pkt : List UInt8) : List UInt8 :=
  let aux := load32 pkt (iph + 12)
  let pkt := store32 pkt (iph + 12) (load32 pkt (iph + 16))
  store32 pkt (iph + 16) aux

/-- `source` and `dest`. -/
def swapPorts (udph : ℕ) (pkt : List UInt8) : List UInt8 :=
  let aux2 := load16 pkt udph
  let pkt := store16 pkt udph (load16 pkt (udph + 2))
  store16 pkt (udph + 2) aux2

/-- What is done to a packet that is sent back. -/
def echo (udph : ℕ) (pkt : List UInt8) : List UInt8 :=
  swapPorts udph (swapAddresses 14 (swapSrcDstMac pkt))

/-- `xdp_echo_prog`: the verdict, and the packet as it leaves it.  `XDP_TX` is never what the helper
returned (`RedirectMap.Documented`), so the verdict tells whether the packet has been rewritten. -/
def xdpEchoProg (ctx : Ctx) (pkt : List UInt8) : Action × List UInt8 :=
  match run (ofList pkt 0) (verdict ctx pkt.length) with
  | (.tx, udph) => (.tx, echo udph pkt)
  | (action, _) => (action, pkt)

/-! ## What is sent back -/

section Verdict

variable {b : ℕ → UInt8} {ctx : Ctx} {len pos l4 : ℕ}

/-- The length of an IPv4 header at `pos`. -/
def hdrsizeAt (b : ℕ → UInt8) (pos : ℕ) : ℕ :=
  (b pos &&& 0x0F).toNat * 4

lemma parseEthhdr_some {hProto : UInt16} {iph : ℕ}
    (h : run b (parseEthhdr len pos) = some (hProto, iph)) :
    pos + 14 ≤ len ∧ iph = pos + 14 ∧ hProto = run b (readLe16 (pos + 12)) := by
  rw [parseEthhdr, run_ite] at h
  split_ifs at h with hlen
  · simp at h
  · simp only [run_bind, run_pure, Option.some.injEq, Prod.mk.injEq] at h
    exact ⟨by omega, h.2.symm, h.1.symm⟩

lemma parseIphdr_some {protocol : UInt8} (h : run b (parseIphdr len pos) = some (protocol, l4)) :
    20 ≤ hdrsizeAt b pos ∧ l4 = pos + hdrsizeAt b pos ∧ l4 ≤ len ∧ protocol = b (pos + 9) := by
  rw [parseIphdr, run_ite] at h
  split_ifs at h with hlen
  · simp at h
  · rw [run_bind] at h
    dsimp only at h
    rw [run_ite, run_ite, run_cell] at h
    split_ifs at h with hsmall hshort
    · simp at h
    · simp at h
    · simp only [run_bind, run_cell, run_pure, Option.some.injEq, Prod.mk.injEq] at h
      obtain ⟨rfl, rfl⟩ := h
      rw [hdrsizeAt]
      exact ⟨by omega, rfl, by omega, rfl⟩

lemma parseUdphdr_some {n : ℕ} (h : run b (parseUdphdr len pos) = some n) :
    pos + 8 ≤ len ∧ 8 ≤ (bswap16 (run b (readLe16 (pos + 4)))).toNat := by
  rw [parseUdphdr, run_ite] at h
  split_ifs at h with hlen
  · simp at h
  · rw [run_bind, run_ite] at h
    split_ifs at h with hsmall
    · simp at h
    · omega

lemma tcpVerdict_ne_tx : run b (tcpVerdict ctx len pos) ≠ .tx := by
  rw [tcpVerdict, run_bind]
  split
  · simp
  · rw [run_bind, run_pure]
    split_ifs
    · simp
    · simp

lemma udpVerdict_tx (h : run b (udpVerdict ctx len pos) = .tx) :
    pos + 8 ≤ len ∧ 8 ≤ (bswap16 (run b (readLe16 (pos + 4)))).toNat := by
  rw [udpVerdict, run_bind] at h
  split at h
  · simp at h
  · exact parseUdphdr_some ‹_›

/-- **The packets that are sent back.** -/
lemma verdict_tx (h : run b (verdict ctx len) = (.tx, l4)) :
    l4 = 14 + hdrsizeAt b 14 ∧ 20 ≤ hdrsizeAt b 14 ∧ l4 + 8 ≤ len
      ∧ 8 ≤ (bswap16 (run b (readLe16 (l4 + 4)))).toNat := by
  rw [verdict, run_bind] at h
  split at h
  · simp at h
  · rename_i hProto iph heth
    obtain ⟨-, rfl, -⟩ := parseEthhdr_some heth
    rw [run_ite] at h
    split_ifs at h with htype
    · simp at h
    rw [run_bind] at h
    split at h
    · simp at h
    · rename_i protocol udph hip
      obtain ⟨hsize, rfl, -, rfl⟩ := parseIphdr_some hip
      rw [run_ite, run_ite] at h
      split_ifs at h
      · rw [run_bind, run_pure] at h
        exact absurd (congrArg Prod.fst h) tcpVerdict_ne_tx
      · rw [run_bind, run_pure] at h
        obtain rfl := congrArg Prod.snd h
        exact ⟨rfl, hsize, udpVerdict_tx (congrArg Prod.fst h)⟩
      · simp at h

end Verdict

/-! ## Loads and stores -/

section Stores

variable {pkt q : List UInt8} {o o' k udph : ℕ}

lemma toNat_join16 (low high : UInt8) :
    (high.toUInt16 <<< 8 ||| low.toUInt16).toNat = high.toNat * 256 + low.toNat := by
  have hhigh := high.toNat_lt
  simp only [UInt16.toNat_or, UInt16.toNat_shiftLeft, UInt8.toNat_toUInt16,
    show (8 : UInt16).toNat % 16 = 8 from rfl]
  rw [Nat.mod_eq_of_lt (show high.toNat <<< 8 < 2 ^ 16 by rw [Nat.shiftLeft_eq]; omega),
    ← Nat.shiftLeft_add_eq_or_of_lt low.toNat_lt, Nat.shiftLeft_eq]

lemma toNat_join32 (low high : UInt16) :
    (high.toUInt32 <<< 16 ||| low.toUInt32).toNat = high.toNat * 65536 + low.toNat := by
  have hhigh := high.toNat_lt
  simp only [UInt32.toNat_or, UInt32.toNat_shiftLeft, UInt16.toNat_toUInt32,
    show (16 : UInt32).toNat % 32 = 16 from rfl]
  rw [Nat.mod_eq_of_lt (show high.toNat <<< 16 < 2 ^ 32 by rw [Nat.shiftLeft_eq]; omega),
    ← Nat.shiftLeft_add_eq_or_of_lt low.toNat_lt, Nat.shiftLeft_eq]

/-- The bytes of a loaded word. -/
lemma load16_bytes (q : List UInt8) (o : ℕ) :
    (load16 q o).toUInt8 = q.getD o 0 ∧ (load16 q o >>> 8).toUInt8 = q.getD (o + 1) 0 := by
  have hjoin : (load16 q o).toNat = (q.getD (o + 1) 0).toNat * 256 + (q.getD o 0).toNat :=
    toNat_join16 _ _
  have hlow := (q.getD o 0).toNat_lt
  have hhigh := (q.getD (o + 1) 0).toNat_lt
  refine ⟨UInt8.toNat_inj.mp ?_, UInt8.toNat_inj.mp ?_⟩
  · rw [UInt16.toNat_toUInt8, hjoin]
    omega
  · rw [UInt16.toNat_toUInt8, UInt16.toNat_shiftRight, hjoin, Nat.shiftRight_eq_div_pow,
      show (8 : UInt16).toNat % 16 = 8 from rfl]
    omega

/-- The words of a loaded double word. -/
lemma load32_words (q : List UInt8) (o : ℕ) :
    (load32 q o).toUInt16 = load16 q o ∧ (load32 q o >>> 16).toUInt16 = load16 q (o + 2) := by
  have hjoin : (load32 q o).toNat = (load16 q (o + 2)).toNat * 65536 + (load16 q o).toNat :=
    toNat_join32 _ _
  have hlow := (load16 q o).toNat_lt
  have hhigh := (load16 q (o + 2)).toNat_lt
  refine ⟨UInt16.toNat_inj.mp ?_, UInt16.toNat_inj.mp ?_⟩
  · rw [UInt32.toNat_toUInt16, hjoin]
    omega
  · rw [UInt32.toNat_toUInt16, UInt32.toNat_shiftRight, hjoin, Nat.shiftRight_eq_div_pow,
      show (16 : UInt32).toNat % 32 = 16 from rfl]
    omega

@[simp] lemma length_store16 (pkt : List UInt8) (o : ℕ) (x : UInt16) :
    (store16 pkt o x).length = pkt.length := by
  simp [store16]

/-- A word that is loaded and stored is two bytes that are copied. -/
lemma getD_copy16 (h : o + 1 < pkt.length) (q : List UInt8) (o' k : ℕ) :
    (store16 pkt o (load16 q o')).getD k 0
      = if o ≤ k ∧ k < o + 2 then q.getD (o' + (k - o)) 0 else pkt.getD k 0 := by
  have hstored : (store16 pkt o (load16 q o')).getD k 0
      = if k = o + 1 then q.getD (o' + 1) 0 else if k = o then q.getD o' 0 else pkt.getD k 0 := by
    rw [store16, (load16_bytes q o').1, (load16_bytes q o').2]
    simp only [List.getD_eq_getElem?_getD, List.getElem?_set, List.length_set]
    split_ifs <;> first | rfl | omega
  rw [hstored]
  by_cases hlow : k = o
  · subst hlow
    simp
  · by_cases hhigh : k = o + 1
    · subst hhigh
      simp
    · rw [if_neg hhigh, if_neg hlow, if_neg (by omega)]

@[simp] lemma length_store32 (pkt : List UInt8) (o : ℕ) (x : UInt32) :
    (store32 pkt o x).length = pkt.length := by
  simp [store32]

lemma getD_copy32 (h : o + 3 < pkt.length) (q : List UInt8) (o' k : ℕ) :
    (store32 pkt o (load32 q o')).getD k 0
      = if o ≤ k ∧ k < o + 4 then q.getD (o' + (k - o)) 0 else pkt.getD k 0 := by
  rw [store32, (load32_words q o').1, (load32_words q o').2,
    getD_copy16 (by rw [length_store16]; omega), getD_copy16 (by omega)]
  by_cases hhigh : o + 2 ≤ k ∧ k < o + 2 + 2
  · rw [if_pos hhigh, if_pos (by omega), show o' + 2 + (k - (o + 2)) = o' + (k - o) by omega]
  · rw [if_neg hhigh]
    split_ifs <;> first | rfl | omega

/-! ## The exchange -/

@[simp] lemma length_swapSrcDstMac (pkt : List UInt8) :
    (swapSrcDstMac pkt).length = pkt.length := by
  simp [swapSrcDstMac]

@[simp] lemma length_swapAddresses (iph : ℕ) (pkt : List UInt8) :
    (swapAddresses iph pkt).length = pkt.length := by
  simp [swapAddresses]

@[simp] lemma length_swapPorts (udph : ℕ) (pkt : List UInt8) :
    (swapPorts udph pkt).length = pkt.length := by
  simp [swapPorts]

@[simp] lemma length_echo (udph : ℕ) (pkt : List UInt8) : (echo udph pkt).length = pkt.length := by
  simp [echo]

/-- Where place `k` is found after exchanging `w` cells from `a` on with those from `b` on. -/
def exchange (a b w k : ℕ) : ℕ :=
  if a ≤ k ∧ k < a + w then b + (k - a) else if b ≤ k ∧ k < b + w then a + (k - b) else k

lemma exchange_exchange {a b w : ℕ} (h : a + w ≤ b) (k : ℕ) :
    exchange a b w (exchange a b w k) = k := by
  simp only [exchange]
  split_ifs <;> omega

lemma getD_swapPorts (h : udph + 3 < pkt.length) (k : ℕ) :
    (swapPorts udph pkt).getD k 0 = pkt.getD (exchange udph (udph + 2) 2 k) 0 := by
  rw [swapPorts, getD_copy16 (by rw [length_store16]; omega), getD_copy16 (by omega), exchange]
  split_ifs <;> first | rfl | omega

lemma getD_swapAddresses {iph : ℕ} (h : iph + 19 < pkt.length) (k : ℕ) :
    (swapAddresses iph pkt).getD k 0 = pkt.getD (exchange (iph + 12) (iph + 16) 4 k) 0 := by
  rw [swapAddresses, getD_copy32 (by rw [length_store32]; omega), getD_copy32 (by omega), exchange]
  split_ifs <;> first | rfl | omega

/-- One more word of the source address is brought to the front. -/
lemma getD_copyFront {r : List UInt8} (n : ℕ) (hlen : n + 1 < r.length)
    (h : ∀ k, r.getD k 0 = if k < n then pkt.getD (k + 6) 0 else pkt.getD k 0) (k : ℕ) :
    (store16 r n (load16 r (n + 6))).getD k 0
      = if k < n + 2 then pkt.getD (k + 6) 0 else pkt.getD k 0 := by
  rw [getD_copy16 hlen]
  by_cases hk : n ≤ k ∧ k < n + 2
  · rw [if_pos hk, if_pos hk.2, h, if_neg (by omega), show n + 6 + (k - n) = k + 6 by omega]
  · rw [if_neg hk, h]
    split_ifs <;> first | rfl | omega

lemma getD_swapSrcDstMac (h : 12 ≤ pkt.length) (k : ℕ) :
    (swapSrcDstMac pkt).getD k 0 = pkt.getD (exchange 0 6 6 k) 0 := by
  have hstart : ∀ k, pkt.getD k 0 = if k < 0 then pkt.getD (k + 6) 0 else pkt.getD k 0 := by
    simp
  have hfirst := getD_copyFront 0 (by omega) hstart
  have hsecond := getD_copyFront 2 (by rw [length_store16]; omega) hfirst
  have hthird := getD_copyFront 4 (by simp only [length_store16]; omega) hsecond
  rw [swapSrcDstMac, getD_copy16 (by simp only [length_store16]; omega),
    getD_copy16 (by simp only [length_store16]; omega),
    getD_copy16 (by simp only [length_store16]; omega), hthird, exchange]
  split_ifs <;> first | omega | exact congrArg (pkt.getD · 0) (by omega)

/-- Where the byte at `k` of an echoed packet was before. -/
def mirror (udph k : ℕ) : ℕ :=
  if k < 12 then exchange 0 6 6 k
  else if k < 34 then exchange 26 30 4 k
  else exchange udph (udph + 2) 2 k

/-- **What is sent back**, byte by byte. -/
lemma getD_echo (hudph : 34 ≤ udph) (h : udph + 3 < pkt.length) (k : ℕ) :
    (echo udph pkt).getD k 0 = pkt.getD (mirror udph k) 0 := by
  rw [echo, getD_swapPorts (by simpa using h),
    getD_swapAddresses (by rw [length_swapSrcDstMac]; omega), getD_swapSrcDstMac (by omega)]
  have hports : k < 34 → exchange udph (udph + 2) 2 k = k := by
    intro hk
    rw [exchange, if_neg (by omega), if_neg (by omega)]
  have hports' : 34 ≤ k → 34 ≤ exchange udph (udph + 2) 2 k := by
    intro hk
    rw [exchange]
    split_ifs <;> omega
  have haddresses : ∀ j, j < 26 ∨ 34 ≤ j → exchange 26 30 4 j = j := by
    intro j hj
    rw [exchange, if_neg (by omega), if_neg (by omega)]
  have haddresses' : 12 ≤ k → 12 ≤ exchange 26 30 4 k := by
    intro hk
    rw [exchange]
    split_ifs <;> omega
  have hmacs : ∀ j, 12 ≤ j → exchange 0 6 6 j = j := by
    intro j hj
    rw [exchange, if_neg (by omega), if_neg (by omega)]
  rw [mirror]
  split_ifs with hmac hip
  · rw [hports (by omega), haddresses k (by omega)]
  · rw [hports hip, hmacs _ (haddresses' (by omega))]
  · have hk := hports' (by omega)
    rw [haddresses _ (Or.inr hk), hmacs _ (by omega)]

lemma mirror_mirror (hudph : 34 ≤ udph) (k : ℕ) : mirror udph (mirror udph k) = k := by
  by_cases hmac : k < 12
  · have hlt : exchange 0 6 6 k < 12 := by
      rw [exchange]
      split_ifs <;> omega
    simp only [mirror, if_pos hmac, if_pos hlt]
    exact exchange_exchange (by omega) k
  · by_cases hip : k < 34
    · have hlt : ¬ exchange 26 30 4 k < 12 ∧ exchange 26 30 4 k < 34 := by
        rw [exchange]
        split_ifs <;> omega
      simp only [mirror, if_neg hmac, if_pos hip, if_neg hlt.1, if_pos hlt.2]
      exact exchange_exchange (by omega) k
    · have hlt : ¬ exchange udph (udph + 2) 2 k < 12 ∧ ¬ exchange udph (udph + 2) 2 k < 34 := by
        rw [exchange]
        split_ifs <;> omega
      simp only [mirror, if_neg hmac, if_neg hip, if_neg hlt.1, if_neg hlt.2]
      exact exchange_exchange (by omega) k

lemma eq_of_getD {l m : List UInt8} (hlen : l.length = m.length)
    (h : ∀ k, l.getD k 0 = m.getD k 0) : l = m := by
  refine List.ext_getElem hlen fun k hl hm => ?_
  have hk := h k
  rwa [List.getD_eq_getElem _ _ hl, List.getD_eq_getElem _ _ hm] at hk

/-- Once more, and the packet is what it was. -/
lemma echo_echo (hudph : 34 ≤ udph) (h : udph + 3 < pkt.length) :
    echo udph (echo udph pkt) = pkt := by
  refine eq_of_getD (by simp) fun k => ?_
  rw [getD_echo hudph (by simpa using h), getD_echo hudph h, mirror_mirror hudph]

end Stores

/-! ## Checksums -/

section Checksums

variable {pkt : List UInt8} {o n i udph : ℕ}

/-- `n` bytes from `o` on. -/
def slice (pkt : List UInt8) (o n : ℕ) : List UInt8 :=
  (pkt.drop o).take n

lemma length_slice (h : o + n ≤ pkt.length) : (slice pkt o n).length = n := by
  simp only [slice, List.length_take, List.length_drop]
  omega

lemma getD_slice (hi : i < n) : (slice pkt o n).getD i 0 = pkt.getD (o + i) 0 := by
  simp only [slice, List.getD_eq_getElem?_getD, List.getElem?_take, List.getElem?_drop, if_pos hi]

/-- Where the UDP header is. -/
def udpOffset (pkt : List UInt8) : ℕ :=
  14 + hdrsizeAt (ofList pkt 0) 14

/-- The length field of the UDP header. -/
def udpLength (pkt : List UInt8) : ℕ :=
  (bswap16 (load16 pkt (udpOffset pkt + 4))).toNat

/-- What the UDP checksum is over: addresses, protocol and length, then header and payload. -/
def udpCovered (pkt : List UInt8) : List UInt8 :=
  slice pkt 26 8 ++ [0, pkt.getD 23 0] ++ slice pkt (udpOffset pkt + 4) 2
    ++ slice pkt (udpOffset pkt) (udpLength pkt)

/-- The checksum of the IPv4 header is right. -/
def Ipv4ChecksumOk (pkt : List UInt8) : Prop :=
  Valid (slice pkt 14 (hdrsizeAt (ofList pkt 0) 14))

/-- The checksum of the datagram is right, or none was sent. -/
def UdpChecksumOk (pkt : List UInt8) : Prop :=
  udpOffset pkt + udpLength pkt ≤ pkt.length
    ∧ (load16 pkt (udpOffset pkt + 6) = 0 ∨ Valid (udpCovered pkt))

/-- **Exchanging whole words does not change their sum.** -/
lemma wordSum_slice {out : List UInt8} (hlen : out.length = pkt.length) (hon : o + n ≤ pkt.length)
    {a b w : ℕ} (hab : a + w ≤ b) (hb : b + w ≤ n) (heven : (b - a) % 2 = 0)
    (h : ∀ i < n, out.getD (o + i) 0 = pkt.getD (o + exchange a b w i) 0) :
    wordSum (slice out o n) = wordSum (slice pkt o n) := by
  have hslice : (slice pkt o n).length = n := length_slice hon
  have hlt : ∀ i < n, exchange a b w i < n := by
    intro i hi
    rw [exchange]
    split_ifs <;> omega
  refine wordSum_congr ?_ (exchange a b w) ?_ ?_ ?_ ?_
  · rw [hslice, length_slice (by omega)]
  · rwa [hslice]
  · exact fun i _ => exchange_exchange hab i
  · intro i _
    rw [exchange]
    split_ifs <;> omega
  · rw [hslice]
    intro i hi
    rw [getD_slice hi, getD_slice (hlt i hi), h i hi]

lemma slice_congr {out : List UInt8} (hlen : out.length = pkt.length) (hon : o + n ≤ pkt.length)
    (h : ∀ i < n, out.getD (o + i) 0 = pkt.getD (o + i) 0) : slice out o n = slice pkt o n := by
  refine eq_of_getD (by rw [length_slice hon, length_slice (by omega)]) fun i => ?_
  by_cases hi : i < n
  · rw [getD_slice hi, getD_slice hi, h i hi]
  · rw [List.getD_eq_default _ _ (by rw [length_slice (by omega)]; omega),
      List.getD_eq_default _ _ (by rw [length_slice hon]; omega)]

lemma mirror_of_apart (hmac : 12 ≤ i) (hip : ¬ (26 ≤ i ∧ i < 34))
    (hports : ¬ (udph ≤ i ∧ i < udph + 4)) : mirror udph i = i := by
  rw [mirror, if_neg (by omega)]
  split_ifs
  · rw [exchange, if_neg (by omega), if_neg (by omega)]
  · rw [exchange, if_neg (by omega), if_neg (by omega)]

lemma load16_congr {out : List UInt8} (h : out.getD o 0 = pkt.getD o 0)
    (h' : out.getD (o + 1) 0 = pkt.getD (o + 1) 0) : load16 out o = load16 pkt o := by
  simp only [load16, readLe16, run_bind, run_cell, run_pure, ofList, h, h']

/-- The packets `xdp_echo_prog` sends back. -/
structure Echoable (pkt : List UInt8) : Prop where
  udph : 34 ≤ udpOffset pkt
  length : udpOffset pkt + 8 ≤ pkt.length
  udpLength : 8 ≤ udpLength pkt

namespace Echoable

variable (h : Echoable pkt)

include h

/-- What is neither an address nor a port stays. -/
lemma getD_of_apart (hmac : 12 ≤ i) (hip : ¬ (26 ≤ i ∧ i < 34))
    (hports : ¬ (udpOffset pkt ≤ i ∧ i < udpOffset pkt + 4)) :
    (echo (udpOffset pkt) pkt).getD i 0 = pkt.getD i 0 := by
  have hudph := h.udph
  have hlength := h.length
  rw [getD_echo hudph (by omega), mirror_of_apart hmac hip hports]

lemma hdrsizeAt_echo : hdrsizeAt (ofList (echo (udpOffset pkt) pkt) 0) 14
    = hdrsizeAt (ofList pkt 0) 14 := by
  have hudph := h.udph
  rw [hdrsizeAt, hdrsizeAt, ofList, ofList, h.getD_of_apart (by omega) (by omega) (by omega)]

lemma udpOffset_echo : udpOffset (echo (udpOffset pkt) pkt) = udpOffset pkt := by
  rw [udpOffset, h.hdrsizeAt_echo, udpOffset]

lemma load16_echo (hk : udpOffset pkt + 4 ≤ o) :
    load16 (echo (udpOffset pkt) pkt) o = load16 pkt o := by
  have hudph := h.udph
  exact load16_congr (h.getD_of_apart (by omega) (by omega) (by omega))
    (h.getD_of_apart (by omega) (by omega) (by omega))

lemma udpLength_echo : Xdp.udpLength (echo (udpOffset pkt) pkt) = Xdp.udpLength pkt := by
  rw [Xdp.udpLength, h.udpOffset_echo, h.load16_echo (Nat.le_refl _), Xdp.udpLength]

/-- The IPv4 header adds up to what it did before. -/
lemma wordSum_ipv4 : wordSum (slice (echo (udpOffset pkt) pkt) 14 (hdrsizeAt (ofList pkt 0) 14))
    = wordSum (slice pkt 14 (hdrsizeAt (ofList pkt 0) 14)) := by
  have hudph := h.udph
  have hlength := h.length
  have hoffset : udpOffset pkt = 14 + hdrsizeAt (ofList pkt 0) 14 := rfl
  refine wordSum_slice (a := 12) (b := 16) (w := 4) (length_echo _ _) (by omega) (by omega)
    (by omega) rfl fun i hi => ?_
  rw [getD_echo hudph (by omega), mirror, if_neg (by omega)]
  refine congrArg (pkt.getD · 0) ?_
  simp only [exchange]
  split_ifs <;> omega

/-- So does what the UDP checksum is over. -/
lemma wordSum_udp (hcovered : udpOffset pkt + Xdp.udpLength pkt ≤ pkt.length) :
    wordSum (udpCovered (echo (udpOffset pkt) pkt)) = wordSum (udpCovered pkt) := by
  have hudph := h.udph
  have hlength := h.length
  have haddresses : wordSum (slice (echo (udpOffset pkt) pkt) 26 8) = wordSum (slice pkt 26 8) := by
    refine wordSum_slice (a := 0) (b := 4) (w := 4) (length_echo _ _) (by omega) (by omega)
      (by omega) rfl fun i hi => ?_
    rw [getD_echo hudph (by omega), mirror, if_neg (by omega), if_pos (by omega)]
    refine congrArg (pkt.getD · 0) ?_
    simp only [exchange]
    split_ifs <;> omega
  have hdatagram : wordSum (slice (echo (udpOffset pkt) pkt) (udpOffset pkt) (Xdp.udpLength pkt))
      = wordSum (slice pkt (udpOffset pkt) (Xdp.udpLength pkt)) := by
    have hlong := h.udpLength
    refine wordSum_slice (a := 0) (b := 2) (w := 2) (length_echo _ _) hcovered (by omega)
      (by omega) rfl fun i hi => ?_
    rw [getD_echo hudph (by omega), mirror, if_neg (by omega), if_neg (by omega)]
    refine congrArg (pkt.getD · 0) ?_
    simp only [exchange]
    split_ifs <;> omega
  have hprotocol : (echo (udpOffset pkt) pkt).getD 23 0 = pkt.getD 23 0 :=
    h.getD_of_apart (by omega) (by omega) (by omega)
  have hfield : slice (echo (udpOffset pkt) pkt) (udpOffset pkt + 4) 2
      = slice pkt (udpOffset pkt + 4) 2 :=
    slice_congr (length_echo _ _) (by omega)
      fun i _ => h.getD_of_apart (by omega) (by omega) (by omega)
  have heven : ∀ q : List UInt8, q.length = pkt.length → (slice q 26 8).length % 2 = 0 := by
    intro q hq
    rw [length_slice (by omega)]
  have heven' : (slice pkt (udpOffset pkt + 4) 2).length % 2 = 0 := by
    rw [length_slice (by omega)]
  have hpair : [0, pkt.getD 23 0].length % 2 = 0 := by simp
  rw [udpCovered, udpCovered, h.udpOffset_echo, h.udpLength_echo, hprotocol, hfield]
  simp only [List.append_assoc]
  rw [wordSum_append (heven _ (length_echo _ _)), wordSum_append (heven _ rfl),
    wordSum_append hpair, wordSum_append hpair, wordSum_append heven', wordSum_append heven',
    haddresses, hdatagram]

end Echoable

/-- What `xdp_echo_prog` makes of `pkt` when it sends it back. -/
structure Echoed (pkt out : List UInt8) : Prop where
  length : out.length = pkt.length
  macs : ∀ k < 6, out.getD k 0 = pkt.getD (6 + k) 0 ∧ out.getD (6 + k) 0 = pkt.getD k 0
  addresses : ∀ k < 4, out.getD (26 + k) 0 = pkt.getD (30 + k) 0
    ∧ out.getD (30 + k) 0 = pkt.getD (26 + k) 0
  ports : ∀ k < 2, out.getD (udpOffset pkt + k) 0 = pkt.getD (udpOffset pkt + 2 + k) 0
    ∧ out.getD (udpOffset pkt + 2 + k) 0 = pkt.getD (udpOffset pkt + k) 0
  rest : ∀ k, 12 ≤ k → ¬ (26 ≤ k ∧ k < 34) → ¬ (udpOffset pkt ≤ k ∧ k < udpOffset pkt + 4) →
    out.getD k 0 = pkt.getD k 0
  again : echo (udpOffset out) out = pkt

lemma Echoable.echoed (h : Echoable pkt) : Echoed pkt (echo (udpOffset pkt) pkt) := by
  have hudph := h.udph
  have hlength := h.length
  have hbyte : ∀ {k j}, mirror (udpOffset pkt) k = j →
      (echo (udpOffset pkt) pkt).getD k 0 = pkt.getD j 0 := by
    rintro k j rfl
    exact getD_echo hudph (by omega) k
  refine ⟨length_echo _ _, fun k hk => ⟨hbyte ?_, hbyte ?_⟩, fun k hk => ⟨hbyte ?_, hbyte ?_⟩,
    fun k hk => ⟨hbyte ?_, hbyte ?_⟩, fun k => h.getD_of_apart, ?_⟩
  · rw [mirror, if_pos (by omega), exchange, if_pos (by omega)]
    omega
  · rw [mirror, if_pos (by omega), exchange, if_neg (by omega), if_pos (by omega)]
    omega
  · rw [mirror, if_neg (by omega), if_pos (by omega), exchange, if_pos (by omega)]
    omega
  · rw [mirror, if_neg (by omega), if_pos (by omega), exchange, if_neg (by omega),
      if_pos (by omega)]
    omega
  · rw [mirror, if_neg (by omega), if_neg (by omega), exchange, if_pos (by omega)]
    omega
  · rw [mirror, if_neg (by omega), if_neg (by omega), exchange, if_neg (by omega),
      if_pos (by omega)]
    omega
  · rw [h.udpOffset_echo]
    exact echo_echo hudph (by omega)

lemma xdpEchoProg_tx {ctx : Ctx} {out : List UInt8} (h : xdpEchoProg ctx pkt = (.tx, out)) :
    Echoable pkt ∧ out = echo (udpOffset pkt) pkt := by
  rw [xdpEchoProg] at h
  rcases hrun : run (ofList pkt 0) (verdict ctx pkt.length) with ⟨action, l4⟩
  rw [hrun] at h
  cases action with
  | tx =>
      obtain ⟨hl4, hsize, hlength, hlong⟩ := verdict_tx hrun
      rw [← udpOffset] at hl4
      simp only [hl4, Prod.mk.injEq, true_and] at h hlength hlong
      refine ⟨⟨?_, hlength, hlong⟩, h.symm⟩
      rw [udpOffset]
      omega
  | aborted => simp at h
  | drop => simp at h
  | pass => simp at h
  | redirect => simp at h

/-- **The echo keeps packets valid.**  Nothing but addresses and ports changes, the exchange undoes
itself, and checksums that were right stay right. -/
theorem echo_keeps_packets_valid {ctx : Ctx} {out : List UInt8}
    (h : xdpEchoProg ctx pkt = (.tx, out)) :
    Echoed pkt out ∧ (Ipv4ChecksumOk pkt → UdpChecksumOk pkt →
      Ipv4ChecksumOk out ∧ UdpChecksumOk out) := by
  obtain ⟨hechoable, hout⟩ := xdpEchoProg_tx h
  rw [hout]
  refine ⟨hechoable.echoed, fun hip hudp => ⟨?_, ?_, ?_⟩⟩
  · rw [Ipv4ChecksumOk, hechoable.hdrsizeAt_echo, Valid, hechoable.wordSum_ipv4]
    exact hip
  · rw [hechoable.udpOffset_echo, hechoable.udpLength_echo, length_echo]
    exact hudp.1
  · rw [hechoable.udpOffset_echo, hechoable.load16_echo (by omega), Valid,
      hechoable.wordSum_udp hudp.1]
    exact hudp.2

/-- A datagram of three bytes to port 7. -/
def ping : List UInt8 :=
  [2, 0, 0, 0, 0, 2, 2, 0, 0, 0, 0, 1, 8, 0]
    ++ [69, 0, 0, 31, 0, 0, 0, 0, 64, 17, 102, 204, 10, 0, 0, 1, 10, 0, 0, 2]
    ++ [19, 136, 0, 7, 0, 11, 19, 228, 97, 98, 99]

/-- A helper that does as documented. -/
def lookupRedirect : RedirectMap :=
  fun map key _ => if map key then .redirect else .aborted

lemma lookupRedirect_documented : lookupRedirect.Documented := by
  constructor
  · intro map key
    rw [lookupRedirect]
    split_ifs <;> simp
  · intro map key h
    exact if_pos h

/-- Port 7 is to be echoed, and no queue has a socket. -/
def echoCtx : Ctx where
  rxQueueIndex := 0
  xsksMap := fun _ => false
  redirectMap := lookupRedirect
  puerto1 := some 7

/-- The datagram comes back. -/
theorem echo_keeps_packets_valid_ping :
    ∃ out, xdpEchoProg echoCtx ping = (.tx, out)
      ∧ Echoed ping out ∧ Ipv4ChecksumOk out ∧ UdpChecksumOk out := by
  have hrun : xdpEchoProg echoCtx ping = (.tx, echo 34 ping) := by
    decide +kernel
  obtain ⟨hechoed, hvalid⟩ := echo_keeps_packets_valid hrun
  have hip : wordSum (slice ping 14 (hdrsizeAt (ofList ping 0) 14)) = 65535 := by decide +kernel
  have hudp : wordSum (udpCovered ping) = 65535 := by decide +kernel
  refine ⟨_, hrun, hechoed, hvalid ?_ ⟨by decide +kernel, Or.inr ?_⟩⟩
  · rw [Ipv4ChecksumOk, Valid, hip]
    simp [fold]
  · rw [Valid, hudp]
    simp [fold]

end Checksums

end Xdp
