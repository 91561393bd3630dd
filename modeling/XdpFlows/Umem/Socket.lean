import XdpFlows.Core.Sections
import XdpFlows.Umem.XskRing

/-!
# The AF_XDP receive path

`flujos/libs/xdp/lxdpFlow.c` and its copy in `Escenarios 1 y 2/af_xdp_user.c`: the stack of free
UMEM frames, the initial stuffing of the fill ring and `handle_receive_packets`, as programs that
share the rings with the kernel.  `KernelStep` is the kernel: it takes fill-ring entries in order,
drops those that name no chunk, keeps the others for as long as it likes and gives each back at most
once as an rx descriptor.

The local variables of `handle_receive_packets` that say where a frame is (how much of the batch is
left, how many reserved entries are still to be written) are part of the state, so that a frame can
be located at every moment and not only between calls.
-/

namespace Umem

open Sections

/-! ## Data -/

/-- `NUM_FRAMES`. -/
def numFrames : ℕ := 4096

/-- `FRAME_SIZE`, `XSK_UMEM__DEFAULT_FRAME_SIZE`. -/
def frameSize : ℕ := 4096

/-- `RX_BATCH_SIZE`. -/
def rxBatchSize : UInt32 := 64

/-- `XSK_RING_PROD__DEFAULT_NUM_DESCS` and `XSK_RING_CONS__DEFAULT_NUM_DESCS`. -/
def ringSize : UInt32 := 2048

/-- `INVALID_UMEM_FRAME`, that is `UINT64_MAX`. -/
def invalidUmemFrame : UInt64 := 0xFFFFFFFFFFFFFFFF

/-- The chunk of the UMEM an address lies in, if any. -/
def chunkOf (addr : UInt64) : Option ℕ :=
  if addr.toNat < numFrames * frameSize then some (addr.toNat / frameSize) else none

/-- `struct xdp_desc`, the rx descriptor. -/
structure XdpDesc where
  addr : UInt64
  len : UInt32
deriving DecidableEq, Repr

/-- What an observer of the receive path can note down. -/
inductive XskEvent where
  /-- `xsk_prod_nb_free` was asked while `free` frames were on the stack and `away` frames were with
  the kernel or in the rx ring. -/
  | stock (free away : ℕ)
  /-- The first reservation of a call. -/
  | reserved (asked granted : UInt32)
  /-- A turn of the retry loop. -/
  | retried
  /-- An address written into the fill ring. -/
  | filled (addr : UInt64)
  /-- A packet handed to the packet processor. -/
  | delivered (desc : XdpDesc)
deriving DecidableEq, Repr

/-- The socket (`struct xsk_socket_info`, `struct xsk_umem_info`), the locals of a running
`handle_receive_packets` that name frames, and the frames the kernel holds. -/
structure XskState where
  rx : XskRing XdpDesc
  fq : XskRing UInt64
  cq : XskRing UInt64
  umemFrameAddr : ℕ → UInt64
  umemFrameFree : ℕ
  outstandingTx : ℕ
  statsRxBytes : UInt64
  statsRxPackets : UInt64
  idxRx : UInt32
  batchLeft : UInt32
  idxFq : UInt32
  fillLeft : UInt32
  held : List ℕ
  assertFailed : Bool
  trace : List XskEvent

/-! ## The stack of free frames -/

/-- `xsk_alloc_umem_frame`. -/
def xskAllocUmemFrame (s : XskState) : XskState × UInt64 :=
  match s.umemFrameFree with
  | 0 => (s, invalidUmemFrame)
  | n + 1 =>
      ({ s with
          umemFrameFree := n
          umemFrameAddr := Function.update s.umemFrameAddr n invalidUmemFrame },
        s.umemFrameAddr n)

/-- `xsk_free_umem_frame`, with its `assert`. -/
def xskFreeUmemFrame (s : XskState) (frame : UInt64) : XskState :=
  if s.umemFrameFree < numFrames then
    { s with
      umemFrameAddr := Function.update s.umemFrameAddr s.umemFrameFree frame
      umemFrameFree := s.umemFrameFree + 1 }
  else
    { s with assertFailed := true }

/-- `xsk_umem_free_frames`. -/
def xskUmemFreeFrames (s : XskState) : UInt32 :=
  UInt32.ofNat s.umemFrameFree

/-! ## Stuffing the fill ring -/

/-- One turn of the fill loop: `*xsk_ring_prod__fill_addr(fq, idx_fq++) = xsk_alloc_umem_frame()`.
The result of the allocation is not looked at. -/
def fillOne (s : XskState) : XskState :=
  let (s', frame) := xskAllocUmemFrame s
  { s' with
    fq := s'.fq.write s'.idxFq frame
    idxFq := s'.idxFq + 1
    fillLeft := s'.fillLeft - 1
    trace := s'.trace ++ [.filled frame] }

/-- `for (i = 0; i < stock_frames; i++)`. -/
def fillLoop : ℕ → Prog XskState Unit
  | 0 => .ret ()
  | n + 1 => do
      Prog.act fillOne
      fillLoop n

/-- `xsk_ring_prod__reserve` on the fill ring. -/
def reserveFq (nb : UInt32) (s : XskState) : XskState × UInt32 :=
  let (fq, granted, idx) := xskRingProdReserve s.fq nb s.idxFq
  ({ s with fq := fq, idxFq := idx, fillLeft := granted }, granted)

/-- `while (ret != stock_frames) ret = xsk_ring_prod__reserve(fq, rcvd, &idx_fq)`, followed for at
most `fuel + 1` turns.  It asks for `rcvd` entries, not for `stock_frames`. -/
def retryReserve (rcvd stock : UInt32) : ℕ → UInt32 → Prog XskState Unit
  | 0, ret =>
      if ret = stock then .ret ()
      else Prog.act fun s => { s with trace := s.trace ++ [.retried] }
  | fuel + 1, ret =>
      if ret = stock then .ret ()
      else do
        let ret' ← Prog.atomic fun s =>
          reserveFq rcvd { s with trace := s.trace ++ [.retried] }
        retryReserve rcvd stock fuel ret'

/-- `stock_frames = xsk_prod_nb_free(fq, xsk_umem_free_frames(xsk))`. -/
def stockFrames (s : XskState) : XskState × UInt32 :=
  let (fq, stock) := xskProdNbFree s.fq (xskUmemFreeFrames s)
  ({ s with
      fq := fq
      trace := s.trace
        ++ [.stock s.umemFrameFree (s.held.length + (s.rx.producer - s.rx.consumer).toNat)] },
    stock)

/-- The refill, between the peek and the processing of the batch. -/
def stuffFillRing (fuel : ℕ) (rcvd : UInt32) : Prog XskState Unit := do
  let stock ← Prog.atomic stockFrames
  if 0 < stock then
    let granted ← Prog.atomic fun s =>
      let (s', granted) := reserveFq stock s
      ({ s' with trace := s'.trace ++ [.reserved stock granted] }, granted)
    retryReserve rcvd stock fuel granted
    fillLoop stock.toNat
    Prog.act fun s => { s with fq := xskRingProdSubmit s.fq stock }
  else
    .ret ()

/-! ## Receiving a batch -/

/-- `rcvd = xsk_ring_cons__peek(&xsk->rx, RX_BATCH_SIZE, &idx_rx)`. -/
def peekRx (s : XskState) : XskState × UInt32 :=
  let (rx, rcvd, idx) := xskRingConsPeek s.rx rxBatchSize s.idxRx
  ({ s with rx := rx, idxRx := idx, batchLeft := rcvd }, rcvd)

/-- The descriptor under `idx_rx++`. -/
def nextDesc (s : XskState) : XskState × XdpDesc :=
  ({ s with idxRx := s.idxRx + 1, batchLeft := s.batchLeft - 1 }, s.rx.entry s.idxRx)

/-- `for (i = 0; i < rcvd; i++)`, with the body that each copy of the function has. -/
def processLoop (body : XdpDesc → XskState → XskState) : ℕ → Prog XskState Unit
  | 0 => .ret ()
  | n + 1 => do
      Prog.act fun s =>
        let (s', desc) := nextDesc s
        body desc s'
      processLoop body n

/-- `lxdpFlow.c`: `fn(pkt, &h, aux_data); xsk_free_umem_frame(xsk, addr)`, in one section.  The source
frees the frame when `fn` has returned.  That `fn` is at work in between cannot be seen here: it has no
access to the socket, and nobody but this thread looks at the stack, which the frame can leave only in
the refill of a later call. -/
def processAndFree (desc : XdpDesc) (s : XskState) : XskState :=
  xskFreeUmemFrame { s with trace := s.trace ++ [.delivered desc] } desc.addr

/-- `handle_receive_packets` of `lxdpFlow.c`. -/
def handleReceivePackets (fuel : ℕ) : Prog XskState ℤ := do
  let rcvd ← Prog.atomic peekRx
  if rcvd = 0 then
    return 0
  else
    stuffFillRing fuel rcvd
    processLoop processAndFree rcvd.toNat
    Prog.act fun s => { s with rx := xskRingConsRelease s.rx rcvd }
    return 1

namespace Escenarios

/-- `process_packet` of `af_xdp_user.c`.  Its whole body stands under `if (false)`. -/
def processPacket (_desc : XdpDesc) : Bool :=
  false

/-- `if (!process_packet(xsk, addr, len)) xsk_free_umem_frame(xsk, addr);` and the byte counter. -/
def processOrFree (desc : XdpDesc) (s : XskState) : XskState :=
  let s := { s with trace := s.trace ++ [.delivered desc] }
  let s := if processPacket desc then s else xskFreeUmemFrame s desc.addr
  { s with statsRxBytes := s.statsRxBytes + desc.len.toUInt64 }

/-- The loop of `complete_tx` over the completion ring. -/
def freeCompleted : ℕ → UInt32 → Prog XskState Unit
  | 0, _ => .ret ()
  | n + 1, idxCq => do
      Prog.act fun s => xskFreeUmemFrame s (s.cq.entry idxCq)
      freeCompleted n (idxCq + 1)

/-- `complete_tx`. -/
def completeTx : Prog XskState Unit := do
  let outstanding ← Prog.atomic fun s => (s, s.outstandingTx)
  if outstanding = 0 then
    .ret ()
  else
    let (completed, idxCq) ← Prog.atomic fun s =>
      let (cq, completed, idx) := xskRingConsPeek s.cq ringSize 0
      ({ s with cq := cq }, (completed, idx))
    if 0 < completed then
      freeCompleted completed.toNat idxCq
      Prog.act fun s =>
        { s with
          cq := xskRingConsRelease s.cq completed
          outstandingTx := s.outstandingTx - min completed.toNat s.outstandingTx }
    else
      .ret ()

/-- `handle_receive_packets` of `af_xdp_user.c`. -/
def handleReceivePackets (fuel : ℕ) : Prog XskState Unit := do
  let rcvd ← Prog.atomic peekRx
  if rcvd = 0 then
    return ()
  else
    stuffFillRing fuel rcvd
    processLoop processOrFree rcvd.toNat
    Prog.act fun s =>
      { s with
        rx := xskRingConsRelease s.rx rcvd
        statsRxPackets := s.statsRxPackets + rcvd.toUInt64 }
    completeTx

end Escenarios

/-! ## The initial state -/

/-- A ring as `xsk_umem__create` and `xsk_socket__create` leave it; the producer's side starts with
`cached_cons = size`. -/
def freshRing {α : Type} (cachedCons : UInt32) (x : α) : XskRing α where
  cachedProd := 0
  cachedCons := cachedCons
  mask := ringSize - 1
  size := ringSize
  producer := 0
  consumer := 0
  ring := fun _ => x

/-- The state before the fill ring is stuffed: all frames on the stack. -/
def freshSocket : XskState where
  rx := freshRing 0 ⟨0, 0⟩
  fq := freshRing ringSize 0
  cq := freshRing 0 0
  umemFrameAddr := fun i => if i < numFrames then UInt64.ofNat (i * frameSize) else 0
  umemFrameFree := numFrames
  outstandingTx := 0
  statsRxBytes := 0
  statsRxPackets := 0
  idxRx := 0
  batchLeft := 0
  idxFq := 0
  fillLeft := 0
  held := []
  assertFailed := false
  trace := []

/-- `xsk_configure_socket` after the socket has been created; `none` is its `error_exit`. -/
def xskConfigureSocket : Option XskState :=
  let (s, granted) := reserveFq ringSize freshSocket
  if granted ≠ ringSize then none
  else
    let s := ((fillLoop ringSize.toNat).run s).1
    some { s with fq := xskRingProdSubmit s.fq ringSize }

/-! ## The kernel and the runs -/

/-- The kernel takes the next fill-ring entry. -/
def kernelConsume (s : XskState) : XskState :=
  { s with
    fq := { s.fq with consumer := s.fq.consumer + 1 }
    held := (chunkOf (s.fq.entry s.fq.consumer)).toList ++ s.held }

/-- The kernel delivers a frame it holds. -/
def kernelDeliver (chunk : ℕ) (desc : XdpDesc) (s : XskState) : XskState :=
  { s with
    rx := { s.rx.write s.rx.producer desc with producer := s.rx.producer + 1 }
    held := s.held.erase chunk }

/-- What the kernel may do between two sections of the process. -/
inductive KernelStep : XskState → XskState → Prop where
  | consume {s : XskState} (hentry : s.fq.consumer ≠ s.fq.producer) :
      KernelStep s (kernelConsume s)
  | deliver {s : XskState} {chunk : ℕ} {desc : XdpDesc} (hheld : chunk ∈ s.held)
      (haddr : chunkOf desc.addr = some chunk)
      (hroom : s.rx.producer - s.rx.consumer < s.rx.size) :
      KernelStep s (kernelDeliver chunk desc s)

/-- The runs of a receive function from `xsk_configure_socket`, interleaved with the kernel.  The
second index is what is left of the current call, `none` between calls. -/
inductive XskRun {α : Type} (call : ℕ → Prog XskState α) :
    XskState → Option (Prog XskState α) → Prop where
  | start {s : XskState} (h : xskConfigureSocket = some s) : XskRun call s none
  | call {s : XskState} (fuel : ℕ) (h : XskRun call s none) : XskRun call s (some (call fuel))
  | user {s : XskState} {u : XskState → XskState} {k : XskState → Prog XskState α}
      (h : XskRun call s (some (.sec u k))) : XskRun call (u s) (some (k s))
  | back {s : XskState} {a : α} (h : XskRun call s (some (.ret a))) : XskRun call s none
  | kernel {s s' : XskState} {p : Option (Prog XskState α)} (h : XskRun call s p)
      (hk : KernelStep s s') : XskRun call s' p

/-! ## Where the frames are -/

/-- The chunks on the stack of free frames. -/
def XskState.stackChunks (s : XskState) : List ℕ :=
  ((List.range s.umemFrameFree).map s.umemFrameAddr).filterMap chunkOf

/-- The chunks named by the entries written into the fill ring and not yet consumed, submitted or
not. -/
def XskState.fillChunks (s : XskState) : List ℕ :=
  (s.fq.entries s.fq.consumer (s.fq.cachedProd - s.fillLeft)).filterMap chunkOf

/-- The chunks named by the entries submitted to the kernel and not yet consumed.  The kernel sees
`*producer`, not the cached counter of the process. -/
def XskState.submittedChunks (s : XskState) : List ℕ :=
  (s.fq.entries s.fq.consumer s.fq.producer).filterMap chunkOf

/-- The chunks of the rx descriptors not yet peeked. -/
def XskState.pendingChunks (s : XskState) : List ℕ :=
  (s.rx.entries s.rx.cachedCons s.rx.producer).filterMap fun d => chunkOf d.addr

/-- The chunks of the current batch not yet processed. -/
def XskState.batchChunks (s : XskState) : List ℕ :=
  (s.rx.entries s.idxRx (s.idxRx + s.batchLeft)).filterMap fun d => chunkOf d.addr

/-- All places a chunk can be at. -/
def XskState.places (s : XskState) : List ℕ :=
  s.stackChunks ++ s.fillChunks ++ s.held ++ s.pendingChunks ++ s.batchChunks

end Umem
