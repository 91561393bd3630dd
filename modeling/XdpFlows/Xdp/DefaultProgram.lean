import XdpFlows.Core.Ebpf

/-!
# The default program of an AF_XDP socket

`xsk_load_xdp_prog` of `libbpf/src/xsk.c` attaches a program to the interface if there is none.  The
source gives it twice: as a C program in a comment and as an array of instructions.  `xdpSockProg` is
the first, `xskProg` the second, and `xskProg_runs_xdpSockProg` says that they do the same.

The helpers are the kernel's, so they are a parameter: `Kernel` says what they are given and what they
give back.
-/

namespace Xdp.Default

open Ebpf

/-- `XDP_PASS`. -/
def xdpPass : UInt32 := 2

/-- `XDP_REDIRECT`. -/
def xdpRedirect : UInt32 := 4

/-- The two helpers.  `bpf_redirect_map` returns the whole of `r0`, `bpf_map_lookup_elem` whether there
is an entry. -/
structure Kernel (σ : Type) where
  redirectMap : ℤ → UInt32 → UInt64 → σ → UInt64 × σ
  mapLookupElem : ℤ → UInt32 → σ → Bool × σ

/-! ## The program in C -/

/-- The program of the comment.  It returns an `int`, so of what `bpf_redirect_map` returns it keeps
the low 32 bits. -/
def xdpSockProg {σ : Type} (k : Kernel σ) (xsksMap : ℤ) (rxQueueIndex : UInt32) (world : σ) :
    UInt32 × σ :=
  let index := rxQueueIndex
  let (ret, world) := k.redirectMap xsksMap index xdpPass.toUInt64 world
  if 0 < signedWord ret then
    (ret.toUInt32, world)
  else
    let (found, world) := k.mapLookupElem xsksMap index world
    if found then
      let (ret, world) := k.redirectMap xsksMap index 0 world
      (ret.toUInt32, world)
    else
      (xdpPass, world)

/-! ## The program in instructions -/

/-- `BPF_FUNC_map_lookup_elem`. -/
def funcMapLookupElem : ℤ := 1

/-- `BPF_FUNC_redirect_map`. -/
def funcRedirectMap : ℤ := 51

/-- `struct bpf_insn prog[]`. -/
def xskProg (xsksMapFd : ℤ) : List BpfInsn :=
  [ldxMemW 2 1 16, stxMemW 10 2 (-4)]
    ++ ldMapFd 1 xsksMapFd
    ++ [mov64Imm 3 2, emitCall funcRedirectMap, jsgt32Imm 0 0 13, mov64Reg 2 10, add64Imm 2 (-4)]
    ++ ldMapFd 1 xsksMapFd
    ++ [emitCall funcMapLookupElem, mov64Reg 1 0, mov64Imm 0 2, jeqImm 1 0 5, ldxMemW 2 10 (-4)]
    ++ ldMapFd 1 xsksMapFd
    ++ [mov64Imm 3 0, emitCall funcRedirectMap, exitInsn]

/-- The context of a packet from queue `rxQueueIndex`, and the helpers.  `rx_queue_index` is at offset
16 of `struct xdp_md`.  `bpf_redirect_map` takes its key as a 32-bit number, `bpf_map_lookup_elem` as a
pointer to one. -/
def Kernel.surroundings {σ : Type} (k : Kernel σ) (rxQueueIndex : UInt32) : Surroundings σ where
  ctxField := fun off => if off = 16 then some rxQueueIndex else none
  helper := fun func regs stack world =>
    if func = funcRedirectMap then
      match regs 1, regs 2, regs 3 with
      | some (.map fd), some (.scalar key), some (.scalar flags) =>
          let (ret, world) := k.redirectMap fd key.toUInt32 flags world
          some (.scalar ret, world)
      | _, _, _ => none
    else if func = funcMapLookupElem then
      match regs 1, regs 2 with
      | some (.map fd), some (.frame off) =>
          if InStack off then
            match loadWord stack off with
            | some key =>
                let (found, world) := k.mapLookupElem fd key world
                some (if found then .element else .scalar 0, world)
            | none => none
          else none
      | _, _ => none
    else none

/-! ## They do the same -/

section Walk

variable {σ : Type} (k : Kernel σ) (fd : ℤ) (queue : UInt32)

/-- What the program relies on after a helper call: the top of the stack in `r10` and the queue under
it. -/
structure Keeps (queue : UInt32) (m : Machine σ) : Prop where
  r10 : m.regs 10 = some (.frame 0)
  index : loadWord m.stack (-4) = some queue

/-- Up to the first jump. -/
lemma walk_redirect (world : σ) :
    ∃ m, Arrives (k.surroundings queue) (xskProg fd) 5 (start world) m ∧ m.pc = 6
      ∧ m.regs 0 = some (.scalar (k.redirectMap fd queue xdpPass.toUInt64 world).1)
      ∧ m.world = (k.redirectMap fd queue xdpPass.toUInt64 world).2 ∧ Keeps queue m := by
  have h0 : Arrives (k.surroundings queue) (xskProg fd) 0 (start world) (start world) := .refl _
  have h1 := h0.ldxCtx 2 1 16 rfl rfl rfl
  have h2 := h1.stxStack 10 2 (-4) rfl rfl rfl (by decide)
  have h3 := h2.ldMap 1 fd rfl rfl rfl
  have h4 := h3.mov64Imm 3 2 rfl
  have hkey : (k.redirectMap fd queue.toUInt64.toUInt32 (immWord 2) world)
      = k.redirectMap fd queue xdpPass.toUInt64 world := by
    rw [UInt32.toUInt32_toUInt64]
    rfl
  have h5 := h4.call funcRedirectMap
    (.scalar (k.redirectMap fd queue xdpPass.toUInt64 world).1)
    (k.redirectMap fd queue xdpPass.toUInt64 world).2 rfl (by rw [← hkey]; rfl)
  refine ⟨_, h5, rfl, rfl, rfl, rfl, ?_⟩
  show loadWord (storeWord _ (-4) queue.toUInt64.toUInt32) (-4) = some queue
  rw [loadWord_storeWord, UInt32.toUInt32_toUInt64]

/-- From the first jump, not taken, to the second. -/
lemma walk_lookup {n : ℕ} {m₀ m : Machine σ} (h : Arrives (k.surroundings queue) (xskProg fd) n m₀ m)
    (hpc : m.pc = 7) (hm : Keeps queue m) :
    ∃ m', Arrives (k.surroundings queue) (xskProg fd) (n + 6) m₀ m' ∧ m'.pc = 14
      ∧ m'.regs 0 = some (.scalar xdpPass.toUInt64)
      ∧ m'.regs 1 = some (if (k.mapLookupElem fd queue m.world).1 then .element else .scalar 0)
      ∧ m'.world = (k.mapLookupElem fd queue m.world).2 ∧ Keeps queue m' := by
  obtain ⟨pc, regs, stack, world⟩ := m
  obtain ⟨h10, hindex⟩ := hm
  simp only at hpc h10 hindex
  subst hpc
  have h1 := h.mov64Reg 2 10 rfl h10
  have h2 := h1.add64Frame 2 (-4) rfl rfl
  have h3 := h2.ldMap 1 fd rfl rfl rfl
  have h4 := h3.call funcMapLookupElem
    (if (k.mapLookupElem fd queue world).1 then .element else .scalar 0)
    (k.mapLookupElem fd queue world).2 rfl ?_
  · have h5 := h4.mov64Reg 1 0 rfl rfl
    have h6 := h5.mov64Imm 0 2 rfl
    exact ⟨_, h6, rfl, rfl, rfl, rfl, h10, hindex⟩
  · show (match loadWord stack (-4) with
        | some key => some (if (k.mapLookupElem fd key world).1 then Value.element else .scalar 0,
            (k.mapLookupElem fd key world).2)
        | none => none) = _
    rw [hindex]

/-- From the second jump, not taken, to the end. -/
lemma walk_fallback {n : ℕ} {m₀ m : Machine σ} (h : Arrives (k.surroundings queue) (xskProg fd) n m₀ m)
    (hpc : m.pc = 15) (hm : Keeps queue m) :
    ∃ m', Arrives (k.surroundings queue) (xskProg fd) (n + 4) m₀ m' ∧ m'.pc = 20
      ∧ m'.regs 0 = some (.scalar (k.redirectMap fd queue 0 m.world).1)
      ∧ m'.world = (k.redirectMap fd queue 0 m.world).2 := by
  obtain ⟨pc, regs, stack, world⟩ := m
  obtain ⟨h10, hindex⟩ := hm
  simp only at hpc h10 hindex
  subst hpc
  have h1 := h.ldxStack 2 10 (-4) rfl h10 (by decide) hindex
  have h2 := h1.ldMap 1 fd rfl rfl rfl
  have h3 := h2.mov64Imm 3 0 rfl
  have hkey : (k.redirectMap fd queue.toUInt64.toUInt32 (immWord 0) world)
      = k.redirectMap fd queue 0 world := by
    rw [UInt32.toUInt32_toUInt64]
    rfl
  have h4 := h3.call funcRedirectMap (.scalar (k.redirectMap fd queue 0 world).1)
    (k.redirectMap fd queue 0 world).2 rfl (by rw [← hkey]; rfl)
  exact ⟨_, h4, rfl, rfl, rfl⟩

end Walk

/-- The three walks put together. -/
lemma run_xskProg {σ : Type} (k : Kernel σ) (fd : ℤ) (queue : UInt32) (world : σ)
    {fuel : ℕ} (hfuel : (xskProg fd).length ≤ fuel) :
    ∃ r0, run (k.surroundings queue) (xskProg fd) fuel (start world)
        = some (r0, (xdpSockProg k fd queue world).2)
      ∧ r0.toUInt32 = (xdpSockProg k fd queue world).1 := by
  have hlen : (xskProg fd).length = 21 := rfl
  obtain ⟨m₁, h₁, hpc₁, hr₁, hw₁, hk₁⟩ := walk_redirect k fd queue world
  obtain ⟨ret, hret⟩ : ∃ ret, ret = k.redirectMap fd queue xdpPass.toUInt64 world := ⟨_, rfl⟩
  rw [← hret] at hr₁ hw₁
  have h₂ := h₁.jsgt32 0 0 13 (by rw [hpc₁]; rfl) hr₁
  by_cases hpos : 0 < signedWord ret.1
  · -- the first call has decided
    rw [decide_eq_true hpos] at h₂
    have hexit : fetch (xskProg fd) (m₁.jump true 13).pc = some exitInsn := by
      rw [Machine.jump, hpc₁]
      rfl
    refine ⟨ret.1, ?_, ?_⟩
    · rw [h₂.exits hexit hr₁ (by omega)]
      simp only [xdpSockProg, ← hret, if_pos hpos, ← hw₁, Machine.jump]
    · simp only [xdpSockProg, ← hret, if_pos hpos]
  · rw [decide_eq_false hpos] at h₂
    obtain ⟨m₃, h₃, hpc₃, hr₃, hv₃, hw₃, hk₃⟩ := walk_lookup k fd queue h₂
      (by rw [Machine.jump, hpc₁]; rfl) ⟨hk₁.r10, hk₁.index⟩
    have hsame : (m₁.jump false 13).world = ret.2 := hw₁
    obtain ⟨found, hfound⟩ : ∃ found, found = k.mapLookupElem fd queue ret.2 := ⟨_, rfl⟩
    rw [hsame, ← hfound] at hv₃ hw₃
    cases hf : found.1 with
    | true =>
        rw [hf, if_pos rfl] at hv₃
        have h₄ := h₃.jeqElement 1 5 (by rw [hpc₃]; rfl) hv₃
        obtain ⟨m₅, h₅, hpc₅, hr₅, hw₅⟩ := walk_fallback k fd queue h₄
          (by rw [Machine.jump, hpc₃]; rfl) ⟨hk₃.r10, hk₃.index⟩
        have hsame₃ : (m₃.jump false 5).world = found.2 := hw₃
        rw [hsame₃] at hr₅ hw₅
        have hrun := h₅.exits (by rw [hpc₅]; rfl) hr₅ (by omega : _ < fuel)
        refine ⟨(k.redirectMap fd queue 0 found.2).1, ?_, ?_⟩
        · rw [hrun]
          simp only [xdpSockProg, ← hret, if_neg hpos, ← hfound, hf, if_true, hw₅]
        · simp only [xdpSockProg, ← hret, if_neg hpos, ← hfound, hf, if_true]
    | false =>
        rw [hf, if_neg (by decide)] at hv₃
        have h₄ := h₃.jeqScalar 1 0 5 (by rw [hpc₃]; rfl) hv₃
        have hzero : ((0 : UInt64) == immWord 0) = true := rfl
        rw [hzero] at h₄
        have hexit : fetch (xskProg fd) (m₃.jump true 5).pc = some exitInsn := by
          rw [Machine.jump, hpc₃]
          rfl
        have hrun := h₄.exits hexit hr₃ (by omega : _ < fuel)
        refine ⟨xdpPass.toUInt64, ?_, ?_⟩
        · rw [hrun]
          simp only [xdpSockProg, ← hret, if_neg hpos, ← hfound, hf, Bool.false_eq_true, if_false, ← hw₃,
            Machine.jump]
        · simp only [xdpSockProg, ← hret, if_neg hpos, ← hfound, hf, Bool.false_eq_true, if_false,
            UInt32.toUInt32_toUInt64]

/-! ## The verdict -/

/-- What the helpers do with a map whose entries are the queues with a socket: `bpf_redirect_map`
returns `XDP_REDIRECT` if there is an entry; if there is none, kernels before 5.3 return `XDP_ABORTED`,
later ones the flags.  The former return `XDP_ABORTED` also for any flags but 0. -/
structure Kernel.Documented {σ : Type} (k : Kernel σ) (bound : UInt32 → Bool) : Prop where
  plain : ∀ fd key world, bound key = true → (k.redirectMap fd key 0 world).1 = xdpRedirect.toUInt64
  flagged : (∀ fd key world, (k.redirectMap fd key xdpPass.toUInt64 world).1 = 0)
    ∨ ∀ fd key world, (k.redirectMap fd key xdpPass.toUInt64 world).1
        = if bound key then xdpRedirect.toUInt64 else xdpPass.toUInt64
  lookup : ∀ fd key world, (k.mapLookupElem fd key world).1 = bound key

/-- The sign of the verdicts, as the first jump sees it. -/
lemma signedWord_verdict :
    0 < signedWord xdpRedirect.toUInt64 ∧ 0 < signedWord xdpPass.toUInt64 ∧ ¬ 0 < signedWord 0 := by
  decide

lemma Kernel.Documented.xdpSockProg {σ : Type} {k : Kernel σ} {bound : UInt32 → Bool}
    (hk : k.Documented bound) (fd : ℤ) (queue : UInt32) (world : σ) :
    (Default.xdpSockProg k fd queue world).1 = if bound queue then xdpRedirect else xdpPass := by
  obtain ⟨hredirect, hpass, hzero⟩ := signedWord_verdict
  rw [Default.xdpSockProg]
  rcases hk.flagged with hold | hnew
  · -- an old kernel: the map is asked first
    simp only [hold, if_neg hzero, hk.lookup]
    cases hb : bound queue with
    | true =>
        simp only [if_true, hk.plain _ _ _ hb]
        rfl
    | false => rfl
  · simp only [hnew]
    cases hb : bound queue with
    | true =>
        simp only [if_true, if_pos hredirect]
        rfl
    | false =>
        simp only [Bool.false_eq_true, if_false, if_pos hpass]
        rfl

/-- **The instructions are the C program.**  Whatever the helpers do and whichever queue a packet comes
from, the array of instructions runs to its end without a fault, within as many steps as it has slots;
its helper calls leave the world as those of the C program do, and it returns the same verdict.  With the
helpers of a kernel before or after 5.3, that verdict is to redirect if the queue has a socket, and to
pass if it has none. -/
theorem xskProg_runs_xdpSockProg {σ : Type} (k : Kernel σ) (fd : ℤ) (queue : UInt32) (world : σ)
    {fuel : ℕ} (hfuel : (xskProg fd).length ≤ fuel) :
    ∃ r0, run (k.surroundings queue) (xskProg fd) fuel (start world)
        = some (r0, (xdpSockProg k fd queue world).2)
      ∧ r0.toUInt32 = (xdpSockProg k fd queue world).1
      ∧ ∀ bound, k.Documented bound → r0.toUInt32 = if bound queue then xdpRedirect else xdpPass := by
  obtain ⟨r0, hrun, hr0⟩ := run_xskProg k fd queue world hfuel
  exact ⟨r0, hrun, hr0, fun bound hk => hr0.trans (hk.xdpSockProg fd queue world)⟩

/-- The helpers of a kernel before 5.3, which count their calls. -/
def oldKernel (bound : UInt32 → Bool) : Kernel ℕ where
  redirectMap := fun _ key flags calls =>
    (if flags = 0 ∧ bound key = true then xdpRedirect.toUInt64 else 0, calls + 1)
  mapLookupElem := fun _ key calls => (bound key, calls + 1)

lemma documented_oldKernel (bound : UInt32 → Bool) : (oldKernel bound).Documented bound where
  plain := fun _ _ _ h => if_pos ⟨rfl, h⟩
  flagged := by
    have hflags : xdpPass.toUInt64 ≠ 0 := by decide
    left
    intro fd key world
    simp only [oldKernel, hflags, false_and, if_false]
  lookup := fun _ _ _ => rfl

/-- Queue 3 has a socket: an old kernel redirects after three helper calls. -/
theorem xskProg_runs_xdpSockProg_old :
    ∃ r0, run ((oldKernel (· == 3)).surroundings 3) (xskProg 7) 21 (start 0) = some (r0, 3)
      ∧ r0.toUInt32 = xdpRedirect := by
  obtain ⟨r0, hrun, -, hverdict⟩ :=
    xskProg_runs_xdpSockProg (oldKernel (· == 3)) 7 3 0 (show (xskProg 7).length ≤ 21 by decide)
  exact ⟨r0, hrun, hverdict _ (documented_oldKernel _)⟩

end Xdp.Default
