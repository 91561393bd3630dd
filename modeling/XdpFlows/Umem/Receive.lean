import XdpFlows.Umem.Frames

/-!
# The receive path never loses a frame and never stalls

The two copies of `handle_receive_packets`, run against the kernel from `xsk_configure_socket`.

A call goes through stages, each with an assertion that the kernel keeps: `Fresh` (a batch has been
peeked), `Stocked` (the free entries of the fill ring are known), `Filling` (entries are being written),
`Draining` (the batch is being processed) and `Idle` (between calls).  The point of the refill is that it
either finds no free frame, or leaves the fill ring full with at least one real frame in it
(`FullNamesFrame`); both ways some frame stays off the stack, so the stack is never full between calls
and reception goes on.  What the refill does *not* guarantee is that all entries it writes are frames
(`OnlyFrames`): it writes as many as there are slots, and `EnoughFrames` says when that is too many.
-/

namespace Umem

open Sections RingWindow

/-! ## What the trace says -/

/-- Reservations are granted in full and the retry loop is not entered. -/
def Granted (s : XskState) : Prop :=
  (∀ asked granted, XskEvent.reserved asked granted ∈ s.trace → granted = asked)
    ∧ XskEvent.retried ∉ s.trace

/-- Every address written into the fill ring names a chunk. -/
def OnlyFrames (s : XskState) : Prop :=
  ∀ addr, XskEvent.filled addr ∈ s.trace → (chunkOf addr).isSome

/-- Every refill found no free frame, or at most `NUM_FRAMES - 2048` frames with the kernel and in
the rx ring. -/
def EnoughFrames (s : XskState) : Prop :=
  ∀ free away, XskEvent.stock free away ∈ s.trace →
    free = 0 ∨ away ≤ numFrames - ringSize.toNat

/-! ## Assertions and the kernel -/

/-- An assertion about the state and its unbounded counters. -/
def Holds (C : Counters → XskState → Prop) (s : XskState) : Prop :=
  ∃ k, Frames k s ∧ C k s

/-- The kernel only moves the fill ring's consumer and the rx ring's producer. -/
lemma stable_holds {C : Counters → XskState → Prop}
    (hconsume : ∀ k s, Frames k s → k.fc < k.fp → C k s →
      C { k with fc := k.fc + 1 } (kernelConsume s))
    (hdeliver : ∀ k s chunk desc, C k s → C { k with rp := k.rp + 1 } (kernelDeliver chunk desc s)) :
    Stable KernelStep (Holds C) := by
  rintro s s' ⟨k, hk, hC⟩ hstep
  cases hstep with
  | consume hentry =>
      obtain ⟨hlt, hk'⟩ := hk.kernelConsume hentry
      exact ⟨_, hk', hconsume k s hk hlt hC⟩
  | deliver hheld haddr hroom =>
      exact ⟨_, hk.kernelDeliver hheld haddr hroom, hdeliver k s _ _ hC⟩

/-- As long as only frames have been written, the fill ring holds only frames. -/
def FillValid (k : Counters) (s : XskState) : Prop :=
  OnlyFrames s → ∀ a ∈ window s.fq.ring 11 k.fc k.fe, (chunkOf a).isSome

/-- What holds at every moment. -/
structure Always (k : Counters) (s : XskState) : Prop where
  noTx : s.outstandingTx = 0
  granted : Granted s
  fillValid : FillValid k s
  sound : EnoughFrames s → OnlyFrames s

/-- A full fill ring names at least one chunk. -/
def FullNamesFrame (k : Counters) (s : XskState) : Prop :=
  k.fe - k.fc = 2048 → (window s.fq.ring 11 k.fc k.fe).filterMap chunkOf ≠ []

/-- No reservation is open and the cached consumer counter shows no free entry. -/
def Closed (k : Counters) (s : XskState) : Prop :=
  k.fe = k.fcp ∧ k.fp = k.fcp ∧ k.fcc = k.fcp ∧ FullNamesFrame k s
    ∧ (EnoughFrames s ↔ OnlyFrames s)

/-- Between calls. -/
def Idle (k : Counters) (s : XskState) : Prop :=
  Always k s ∧ Closed k s ∧ k.ri = k.rcc ∧ k.rc = k.rcc ∧ s.umemFrameFree < numFrames

/-- A batch of `n` descriptors has been peeked, the fill ring not yet looked at. -/
def Fresh (n : ℕ) (k : Counters) (s : XskState) : Prop :=
  Always k s ∧ Closed k s ∧ k.ri = k.rc ∧ k.rcc = k.rc + n ∧ n ≤ 64

/-- `stock` free entries are known; nothing is reserved yet. -/
def Stocked (n stock : ℕ) (k : Counters) (s : XskState) : Prop :=
  Always k s ∧ k.ri = k.rc ∧ k.rcc = k.rc + n ∧ k.fe = k.fcp ∧ k.fp = k.fcp
    ∧ k.fcc = k.fcp + stock ∧ 0 < s.umemFrameFree
    ∧ (EnoughFrames s ↔ OnlyFrames s ∧ stock ≤ s.umemFrameFree)

/-- `left` of `stock` reserved entries are still to be written.  Either none has been written yet
and there is a frame to write first, or one of the entries not yet submitted names a chunk. -/
def Filling (n stock left : ℕ) (k : Counters) (s : XskState) : Prop :=
  Always k s ∧ k.ri = k.rc ∧ k.rcc = k.rc + n ∧ k.fe + left = k.fcp ∧ k.fp + stock = k.fcp
    ∧ k.fcc = k.fcp ∧ (EnoughFrames s ↔ OnlyFrames s ∧ left ≤ s.umemFrameFree)
    ∧ ((left = stock ∧ 0 < s.umemFrameFree)
      ∨ (∃ j, k.fp ≤ j ∧ j < k.fe ∧ (chunkOf (s.fq.ring (slot 11 j))).isSome)
        ∧ s.umemFrameFree + n < numFrames)

/-- `left` of the `n` packets of the batch are still to be processed; some frame is neither on the
stack nor in the batch. -/
def Draining (n left : ℕ) (k : Counters) (s : XskState) : Prop :=
  Always k s ∧ Closed k s ∧ k.ri + left = k.rcc ∧ k.rcc = k.rc + n
    ∧ s.umemFrameFree + left < numFrames

lemma always_of {C : Counters → XskState → Prop} (hC : ∀ k s, C k s → Always k s) (s : XskState)
    (h : Holds C s) : Holds Always s := by
  obtain ⟨k, hk, hc⟩ := h
  exact ⟨k, hk, hC k s hc⟩

/-- Consuming an entry leaves a ring that is not full. -/
lemma FullNamesFrame.consume {k : Counters} {s : XskState} (hk : Frames k s) :
    FullNamesFrame { k with fc := k.fc + 1 } (kernelConsume s) := by
  obtain ⟨hf1, hf2, hf3, hf4, hf5⟩ := hk.fillOrder
  intro hfull
  simp only at hfull
  omega

lemma Always.consume {k : Counters} {s : XskState} (h : Always k s) (hk : Frames k s)
    (hlt : k.fc < k.fp) : Always { k with fc := k.fc + 1 } (kernelConsume s) := by
  obtain ⟨hf1, hf2, hf3, hf4, hf5⟩ := hk.fillOrder
  refine { h with fillValid := fun ho a ha => h.fillValid ho a ?_ }
  rw [window_cons _ _ (by omega : k.fc < k.fe)]
  exact List.mem_cons_of_mem _ ha

lemma Always.deliver {k : Counters} {s : XskState} {chunk : ℕ} {desc : XdpDesc}
    (h : Always k s) : Always { k with rp := k.rp + 1 } (kernelDeliver chunk desc s) :=
  { h with }

lemma Closed.consume {k : Counters} {s : XskState} (h : Closed k s) (hk : Frames k s) :
    Closed { k with fc := k.fc + 1 } (kernelConsume s) := by
  obtain ⟨hfe, hfp, hfcc, -, hiff⟩ := h
  exact ⟨hfe, hfp, hfcc, .consume hk, hiff⟩

lemma stable_idle : Stable KernelStep (Holds Idle) :=
  stable_holds
    (fun _ _ hk hlt ⟨halways, hclosed, hrest⟩ => ⟨halways.consume hk hlt, hclosed.consume hk, hrest⟩)
    fun _ _ _ _ h => ⟨h.1.deliver, h.2⟩

lemma stable_fresh (n : ℕ) : Stable KernelStep (Holds (Fresh n)) :=
  stable_holds
    (fun _ _ hk hlt ⟨halways, hclosed, hrest⟩ => ⟨halways.consume hk hlt, hclosed.consume hk, hrest⟩)
    fun _ _ _ _ h => ⟨h.1.deliver, h.2⟩

lemma stable_stocked (n stock : ℕ) : Stable KernelStep (Holds (Stocked n stock)) :=
  stable_holds (fun _ _ hk hlt h => ⟨h.1.consume hk hlt, h.2⟩) fun _ _ _ _ h => ⟨h.1.deliver, h.2⟩

lemma stable_filling (n stock left : ℕ) : Stable KernelStep (Holds (Filling n stock left)) :=
  stable_holds (fun _ _ hk hlt h => ⟨h.1.consume hk hlt, h.2⟩) fun _ _ _ _ h => ⟨h.1.deliver, h.2⟩

lemma stable_draining (n left : ℕ) : Stable KernelStep (Holds (Draining n left)) :=
  stable_holds
    (fun _ _ hk hlt ⟨halways, hclosed, hrest⟩ => ⟨halways.consume hk hlt, hclosed.consume hk, hrest⟩)
    fun _ _ _ _ h => ⟨h.1.deliver, h.2⟩

/-! ## The refill -/

/-- An allocation touches nothing but the stack. -/
lemma xskAllocUmemFrame_frame (s : XskState) :
    (xskAllocUmemFrame s).1.trace = s.trace
      ∧ (xskAllocUmemFrame s).1.outstandingTx = s.outstandingTx
      ∧ (xskAllocUmemFrame s).1.fq = s.fq ∧ (xskAllocUmemFrame s).1.idxFq = s.idxFq := by
  unfold xskAllocUmemFrame
  split <;> exact ⟨rfl, rfl, rfl, rfl⟩

section Trace

variable {s s' : XskState}

lemma Granted.append {e : XskEvent} (h : Granted s) (ht : s'.trace = s.trace ++ [e])
    (he : (∀ asked granted, e = .reserved asked granted → granted = asked) ∧ e ≠ .retried) :
    Granted s' := by
  refine ⟨fun asked granted hmem => ?_, fun hmem => ?_⟩
  · rw [ht, List.mem_append, List.mem_singleton] at hmem
    rcases hmem with hmem | heq
    · exact h.1 asked granted hmem
    · exact he.1 asked granted heq.symm
  · rw [ht, List.mem_append, List.mem_singleton] at hmem
    rcases hmem with hmem | heq
    · exact h.2 hmem
    · exact he.2 heq.symm

lemma onlyFrames_append {e : XskEvent} (ht : s'.trace = s.trace ++ [e]) :
    OnlyFrames s' ↔ OnlyFrames s ∧ ∀ addr, e = .filled addr → (chunkOf addr).isSome := by
  simp only [OnlyFrames, ht, List.mem_append, List.mem_singleton, or_imp, forall_and]
  exact and_congr_right fun _ => ⟨fun h a he => h a he.symm, fun h a he => h a he.symm⟩

lemma enoughFrames_append {e : XskEvent} (ht : s'.trace = s.trace ++ [e]) :
    EnoughFrames s' ↔ EnoughFrames s
      ∧ ∀ free away, e = .stock free away → free = 0 ∨ away ≤ numFrames - ringSize.toNat := by
  simp only [EnoughFrames, ht, List.mem_append, List.mem_singleton, or_imp, forall_and]
  exact and_congr_right fun _ => ⟨fun h a b he => h a b he.symm, fun h a b he => h a b he.symm⟩

end Trace

lemma fillOne_trace (s : XskState) :
    (fillOne s).trace = s.trace ++ [.filled (xskAllocUmemFrame s).2] := by
  show (xskAllocUmemFrame s).1.trace ++ [.filled (xskAllocUmemFrame s).2] = _
  rw [(xskAllocUmemFrame_frame s).1]

lemma fillOne_outstandingTx (s : XskState) : (fillOne s).outstandingTx = s.outstandingTx :=
  (xskAllocUmemFrame_frame s).2.1

lemma fillOne_ring (s : XskState) :
    (fillOne s).fq.ring
      = Function.update s.fq.ring (s.idxFq &&& s.fq.mask) (xskAllocUmemFrame s).2 := by
  obtain ⟨-, -, hfq, hidx⟩ := xskAllocUmemFrame_frame s
  show ((xskAllocUmemFrame s).1.fq.write (xskAllocUmemFrame s).1.idxFq
    (xskAllocUmemFrame s).2).ring = _
  rw [hfq, hidx, XskRing.write]

/-- A step that leaves the ring's entries alone and notes down something harmless. -/
lemma Always.append {k k' : Counters} {s s' : XskState} {e : XskEvent} (h : Always k s)
    (ht : s'.trace = s.trace ++ [e])
    (he : (∀ asked granted, e = .reserved asked granted → granted = asked) ∧ e ≠ .retried)
    (hfill : ∀ a, e ≠ .filled a) (htx : s'.outstandingTx = s.outstandingTx)
    (hring : s'.fq.ring = s.fq.ring) (hfc : k'.fc = k.fc) (hfe : k'.fe = k.fe) :
    Always k' s' := by
  have honly : OnlyFrames s' ↔ OnlyFrames s := by
    rw [onlyFrames_append ht]
    exact and_iff_left fun a ha => absurd ha (hfill a)
  refine ⟨htx ▸ h.noTx, h.granted.append ht he, ?_, ?_⟩
  · intro ho a ha
    rw [hring, hfc, hfe] at ha
    exact h.fillValid (honly.mp ho) a ha
  · intro hen
    exact honly.mpr (h.sound ((enoughFrames_append ht).mp hen).1)

lemma Always.same {k k' : Counters} {s s' : XskState} (h : Always k s) (ht : s'.trace = s.trace)
    (htx : s'.outstandingTx = s.outstandingTx) (hring : s'.fq.ring = s.fq.ring)
    (hfc : k'.fc = k.fc) (hfe : k'.fe = k.fe) : Always k' s' := by
  obtain ⟨h1, h2, h3, h4⟩ := h
  refine ⟨htx ▸ h1, ?_, ?_, ?_⟩
  · rwa [Granted, ht]
  · rwa [FillValid, OnlyFrames, ht, hring, hfc, hfe]
  · rwa [EnoughFrames, OnlyFrames, ht]

/-- The turn of the fill loop. -/
lemma Filling.step {n stock left : ℕ} {s : XskState} (h : Holds (Filling n stock (left + 1)) s)
    (hn : n ≤ 64) : Holds (Filling n stock left) (fillOne s) := by
  obtain ⟨k, hk, hal, hri, hrcc, hfe, hfp, hfcc, hiff, hcase⟩ := h
  obtain ⟨hf1, hf2, hf3, hf4, hf5⟩ := hk.fillOrder
  obtain ⟨hr1, hr2, hr3, hr4, hr5⟩ := hk.rxOrder
  obtain ⟨hk', hfree, a, htrace, ha⟩ := hk.fillOne (by omega)
  have ha2 : a = (xskAllocUmemFrame s).2 := by
    rw [fillOne_trace] at htrace
    simpa using htrace.symm
  have hring : (fillOne s).fq.ring = Function.update s.fq.ring (slot 11 k.fe) a := by
    rw [fillOne_ring, hk.idxFq (by omega), hk.fqMask, slot, ha2]
  have hiff' : EnoughFrames (fillOne s)
      ↔ OnlyFrames (fillOne s) ∧ left ≤ (fillOne s).umemFrameFree := by
    rw [enoughFrames_append htrace, onlyFrames_append htrace, hiff, hfree]
    simp only [XskEvent.filled.injEq, forall_eq']
    constructor
    · rintro ⟨⟨ho, hle⟩, -⟩
      exact ⟨⟨ho, ha.mpr (by omega)⟩, by omega⟩
    · rintro ⟨⟨ho, hsome⟩, hle⟩
      have hpos := ha.mp hsome
      exact ⟨⟨ho, by omega⟩, by simp⟩
  have hal' : Always { k with fe := k.fe + 1 } (fillOne s) := by
    refine ⟨fillOne_outstandingTx s ▸ hal.noTx, hal.granted.append htrace ⟨by simp, by simp⟩, ?_,
      fun hen => (hiff'.mp hen).1⟩
    intro ho b hb
    rw [onlyFrames_append htrace] at ho
    rw [hring, window_concat _ _ (by omega : k.fc ≤ k.fe),
      window_update _ (by omega) a le_rfl (by omega), Function.update_self, List.mem_append,
      List.mem_singleton] at hb
    rcases hb with hb | rfl
    · exact hal.fillValid ho.1 b hb
    · exact ho.2 b rfl
  refine ⟨_, hk', hal', hri, hrcc, ?_, hfp, hfcc, hiff', Or.inr ?_⟩
  · show k.fe + 1 + left = k.fcp
    omega
  · have hcount := hk.count
    rcases hcase with ⟨hleft, hpos⟩ | ⟨⟨j, hj1, hj2, hj⟩, hlt⟩
    · -- the first entry of this refill is a real frame
      refine ⟨⟨k.fe, hf2, Nat.lt_succ_self _, ?_⟩, ?_⟩
      · rw [hring, Function.update_self]
        exact ha.mpr hpos
      · rw [hfree]
        omega
    · refine ⟨⟨j, hj1, Nat.lt_succ_of_lt hj2, ?_⟩, ?_⟩
      · rw [hring, Function.update_of_ne (slot_ne (by omega) hj2 (by omega))]
        exact hj
      · rw [hfree]
        omega

lemma fillLoop_safe {n stock : ℕ} (hn : n ≤ 64) : ∀ (left : ℕ) {s : XskState},
    Holds (Filling n stock left) s →
      Safe KernelStep (Holds Always) (fun _ => Holds (Filling n stock 0)) (fillLoop left) s
  | 0, _, h => Safe.done (stable_filling n stock 0) (always_of fun _ _ h => h.1) h
  | left + 1, _, h =>
      Safe.act_bind (stable_filling n stock (left + 1)) (always_of fun _ _ h => h.1)
        (fun _ h => fillLoop_safe hn left (Filling.step h hn)) h

/-- Submitting makes the ring complete again, and names a chunk if it is full. -/
lemma Filling.submit {n stock : ℕ} {s : XskState} (h : Holds (Filling n stock 0) s)
    (hstock : 0 < stock) :
    Holds (Draining n n) { s with fq := xskRingProdSubmit s.fq (UInt32.ofNat stock) } := by
  obtain ⟨k, hk, hal, hri, hrcc, hfe, hfp, hfcc, hiff, hcase⟩ := h
  obtain ⟨hf1, hf2, hf3, hf4, hf5⟩ := hk.fillOrder
  rcases hcase with ⟨h0, -⟩ | ⟨⟨j, hj1, hj2, hj⟩, hlt⟩
  · omega
  · refine ⟨_, hk.submit (by omega) hfp, hal.same rfl rfl rfl rfl rfl,
      ⟨by simp only; omega, rfl, hfcc, ?_, ?_⟩, ?_, hrcc, hlt⟩
    · intro _
      have hmem : s.fq.ring (slot 11 j) ∈ window s.fq.ring 11 k.fc k.fe :=
        List.mem_map.mpr ⟨j, List.mem_range'_1.mpr ⟨by omega, by omega⟩, rfl⟩
      obtain ⟨c, hc⟩ := Option.isSome_iff_exists.mp hj
      exact List.ne_nil_of_mem (List.mem_filterMap.mpr ⟨_, hmem, hc⟩)
    · exact hiff.trans ⟨fun h => h.1, fun h => ⟨h, Nat.zero_le _⟩⟩
    · simp only
      omega

/-- Reserving what was announced opens the fill loop. -/
lemma Stocked.reserve {n stock : ℕ} {s : XskState} (h : Holds (Stocked n stock) s) :
    (reserveFq (UInt32.ofNat stock) s).2 = UInt32.ofNat stock
      ∧ Holds (Filling n stock stock) { (reserveFq (UInt32.ofNat stock) s).1 with
          trace := s.trace ++ [.reserved (UInt32.ofNat stock) (UInt32.ofNat stock)] } := by
  obtain ⟨k, hk, hal, hri, hrcc, hfe, hfp, hfcc, hpos, hiff⟩ := h
  have hdiff : k.fcc - k.fcp = stock := by omega
  obtain ⟨hk', hgranted⟩ := hk.reserveFq hfe
  rw [hdiff] at hk' hgranted
  refine ⟨hgranted, ?_⟩
  set t : XskState := { (reserveFq (UInt32.ofNat stock) s).1 with
    trace := s.trace ++ [.reserved (UInt32.ofNat stock) (UInt32.ofNat stock)] } with ht
  have htr : t.trace = s.trace ++ [.reserved (UInt32.ofNat stock) (UInt32.ofNat stock)] := rfl
  have hring : t.fq.ring = s.fq.ring := xskRingProdReserve_ring s.fq (UInt32.ofNat stock) s.idxFq
  refine ⟨_, { hk' with parts := hk'.parts }, hal.append htr ⟨?_, by simp⟩ (by simp) rfl hring rfl
    rfl, hri, hrcc, ?_, ?_, rfl, ?_, Or.inl ⟨rfl, hpos⟩⟩
  · rintro _ _ heq
    obtain ⟨h1, h2⟩ := XskEvent.reserved.inj heq
    rw [← h1, ← h2]
  · simp only
    omega
  · simp only
    omega
  · rw [enoughFrames_append htr, onlyFrames_append htr, hiff]
    simp only [reduceCtorEq, IsEmpty.forall_iff, implies_true, and_true]
    rfl

/-- Looking at the fill ring: either something is to be refilled, or the stage is skipped because
the stack is empty or the ring is full. -/
lemma Fresh.stock {n : ℕ} {s : XskState} (h : Holds (Fresh n) s) :
    ((stockFrames s).2 = 0 ∧ Holds (Draining n n) (stockFrames s).1)
      ∨ ∃ m, 0 < m ∧ m < 2 ^ 32 ∧ (stockFrames s).2 = UInt32.ofNat m
          ∧ Holds (Stocked n m) (stockFrames s).1 := by
  obtain ⟨k, hk, hal, ⟨hfe, hfp, hfcc, hfull, hiff⟩, hri, hrcc, hn⟩ := h
  obtain ⟨hf1, hf2, hf3, hf4, hf5⟩ := hk.fillOrder
  obtain ⟨hr1, hr2, hr3, hr4, hr5⟩ := hk.rxOrder
  obtain ⟨hk', hstock⟩ := hk.stockFrames hfcc
  have haway : (s.rx.producer - s.rx.consumer).toNat = k.rp - k.rc := by
    rw [hk.rxProducer, hk.rxConsumer, toNat_distance (by omega) (by omega)]
  have htrace : (stockFrames s).1.trace
      = s.trace ++ [.stock s.umemFrameFree (s.held.length + (k.rp - k.rc))] := by
    rw [← haway]
    rfl
  have hring : (stockFrames s).1.fq.ring = s.fq.ring :=
    xskProdNbFree_ring s.fq (xskUmemFreeFrames s)
  have hcount := hk.count
  have hiff' : EnoughFrames (stockFrames s).1
      ↔ OnlyFrames (stockFrames s).1
        ∧ (s.umemFrameFree = 0 ∨ 2048 ≤ s.umemFrameFree + (k.fcp - k.fc)) := by
    have h2048 : ringSize.toNat = 2048 := rfl
    rw [enoughFrames_append htrace, onlyFrames_append htrace, hiff, h2048]
    simp only [XskEvent.stock.injEq, reduceCtorEq, IsEmpty.forall_iff, implies_true, and_true]
    refine and_congr_right fun ho => ?_
    -- the ring holds only frames, so what is neither free nor in the ring is away
    have hlen := length_filterMap_chunkOf (hal.fillValid ho)
    rw [length_window] at hlen
    simp only [numFrames] at hcount ⊢
    constructor
    · intro h
      have := h _ _ ⟨rfl, rfl⟩
      omega
    · rintro h _ _ ⟨rfl, rfl⟩
      omega
  by_cases h0 : s.umemFrameFree = 0
  · refine Or.inl ⟨by rw [hstock, if_pos h0]; rfl, ?_⟩
    rw [if_pos h0] at hk'
    refine ⟨_, hk', hal.append htrace ⟨by simp, by simp⟩ (by simp) rfl hring rfl rfl,
      ⟨hfe, hfp, hfcc, ?_, ?_⟩, ?_, hrcc, ?_⟩
    · intro hl
      rw [hring]
      exact hfull hl
    · exact hiff'.trans ⟨fun h => h.1, fun h => ⟨h, Or.inl h0⟩⟩
    · simp only
      omega
    · show s.umemFrameFree + n < numFrames
      rw [h0, numFrames]
      omega
  · rw [if_neg h0] at hstock hk'
    obtain ⟨m, hm⟩ : ∃ m, m = k.fc + 2048 - k.fcp := ⟨_, rfl⟩
    rw [← hm] at hstock
    rcases Nat.eq_zero_or_pos m with hz | hpos
    · -- the ring is full: it names a chunk already
      refine Or.inl ⟨by rw [hstock, hz]; rfl, ?_⟩
      have hlen := List.length_pos_iff.mpr (hfull (by omega))
      refine ⟨_, hk', hal.append htrace ⟨by simp, by simp⟩ (by simp) rfl hring rfl rfl,
        ⟨hfe, hfp, ?_, ?_, ?_⟩, ?_, hrcc, ?_⟩
      · simp only
        omega
      · intro hl
        rw [hring]
        exact hfull hl
      · exact hiff'.trans ⟨fun h => h.1, fun h => ⟨h, Or.inr (by omega)⟩⟩
      · simp only
        omega
      · show s.umemFrameFree + n < numFrames
        omega
    · refine Or.inr ⟨m, hpos, by omega, hstock, ?_⟩
      refine ⟨_, hk', hal.append htrace ⟨by simp, by simp⟩ (by simp) rfl hring rfl rfl, hri, hrcc,
        hfe, hfp, ?_, ?_, hiff'.trans (and_congr_right fun _ => ?_)⟩
      · simp only
        omega
      · show 0 < s.umemFrameFree
        omega
      · show _ ↔ m ≤ s.umemFrameFree
        omega

/-- The whole refill. -/
lemma stuffFillRing_safe {n fuel : ℕ} {rcvd : UInt32} {s : XskState} (hn : n ≤ 64)
    (h : Holds (Fresh n) s) :
    Safe KernelStep (Holds Always) (fun _ => Holds (Draining n n)) (stuffFillRing fuel rcvd) s := by
  refine Safe.atomic_bind (stable_fresh n) (always_of fun _ _ h => h.1) ?_ h
  intro s hs
  rcases Fresh.stock hs with ⟨hz, hd⟩ | ⟨m, hpos, hlt, hm, hst⟩
  · rw [hz, if_neg (UInt32.lt_irrefl 0)]
    exact Safe.done (stable_draining n n) (always_of fun _ _ h => h.1) hd
  · have hval : (UInt32.ofNat m).toNat = m := by
      rw [UInt32.toNat_ofNat', Nat.mod_eq_of_lt hlt]
    rw [hm, if_pos (by rw [UInt32.lt_iff_toNat_lt, hval]; exact hpos), hval]
    refine Safe.atomic_bind (stable_stocked n m) (always_of fun _ _ h => h.1) ?_ hst
    intro t ht
    obtain ⟨hgranted, hfill⟩ := Stocked.reserve ht
    have hretry : retryReserve rcvd (UInt32.ofNat m) fuel (UInt32.ofNat m) = .ret () := by
      cases fuel <;> simp [retryReserve]
    simp only [hgranted]
    rw [hretry, Prog.ret_bind]
    refine (fillLoop_safe hn m hfill).bind ?_
    intro _ u hu
    refine Safe.act_bind (g := fun _ => .ret ()) (stable_filling n m 0)
      (always_of fun _ _ h => h.1) ?_ hu
    intro v hv
    exact Safe.done (stable_draining n n) (always_of fun _ _ h => h.1)
      (Filling.submit hv hpos)

/-! ## The batch -/

/-- A loop body that gives the frame of the packet back, whatever else it counts. -/
def FreesFrame (body : XdpDesc → XskState → XskState) : Prop :=
  ∀ desc s, ∃ bytes, body desc s
    = { xskFreeUmemFrame { s with trace := s.trace ++ [.delivered desc] } desc.addr with
        statsRxBytes := bytes }

lemma freesFrame_processAndFree : FreesFrame processAndFree :=
  fun desc s =>
    ⟨(xskFreeUmemFrame { s with trace := s.trace ++ [.delivered desc] } desc.addr).statsRxBytes, rfl⟩

lemma freesFrame_processOrFree : FreesFrame Escenarios.processOrFree :=
  fun _ _ => ⟨_, rfl⟩

lemma xskFreeUmemFrame_frame (s : XskState) (a : UInt64) :
    (xskFreeUmemFrame s a).trace = s.trace ∧ (xskFreeUmemFrame s a).outstandingTx = s.outstandingTx
      ∧ (xskFreeUmemFrame s a).fq = s.fq := by
  unfold xskFreeUmemFrame
  split_ifs <;> exact ⟨rfl, rfl, rfl⟩

/-- One packet of the batch. -/
lemma Draining.step {body : XdpDesc → XskState → XskState} (hbody : FreesFrame body) {n left : ℕ}
    {s : XskState} (h : Holds (Draining n (left + 1)) s) :
    Holds (Draining n left) (body (nextDesc s).2 (nextDesc s).1) := by
  obtain ⟨k, hk, hal, ⟨hfe, hfp, hfcc, hfull, hiff⟩, hri, hrcc, hlt⟩ := h
  obtain ⟨bytes, hb⟩ := hbody (nextDesc s).2 (nextDesc s).1
  obtain ⟨hk', hfree⟩ := hk.freeNext (by omega) (t := s.trace ++ [.delivered (nextDesc s).2])
  obtain ⟨htr, htx, hfq⟩ := xskFreeUmemFrame_frame
    { (nextDesc s).1 with trace := s.trace ++ [.delivered (nextDesc s).2] } (nextDesc s).2.addr
  have hst : (nextDesc s).1.trace = s.trace := rfl
  rw [hb, hst]
  set t := xskFreeUmemFrame { (nextDesc s).1 with trace := s.trace ++ [.delivered (nextDesc s).2] }
    (nextDesc s).2.addr with ht
  have hring : t.fq.ring = s.fq.ring := congrArg XskRing.ring hfq
  refine ⟨_, { hk' with parts := hk'.parts },
    hal.append htr ⟨by simp, by simp⟩ (by simp) htx hring rfl rfl, ⟨hfe, hfp, hfcc, ?_, ?_⟩, ?_,
    hrcc, ?_⟩
  · intro hl
    show (window t.fq.ring 11 k.fc k.fe).filterMap chunkOf ≠ []
    rw [hring]
    exact hfull hl
  · show EnoughFrames t ↔ OnlyFrames t
    rw [enoughFrames_append htr, onlyFrames_append htr]
    simp only [reduceCtorEq, IsEmpty.forall_iff, implies_true, and_true]
    exact hiff
  · show k.ri + 1 + left = k.rcc
    omega
  · show t.umemFrameFree + left < numFrames
    omega

lemma processLoop_safe {body : XdpDesc → XskState → XskState} (hbody : FreesFrame body) {n : ℕ} :
    ∀ (left : ℕ) {s : XskState}, Holds (Draining n left) s →
      Safe KernelStep (Holds Always) (fun _ => Holds (Draining n 0)) (processLoop body left) s
  | 0, _, h => Safe.done (stable_draining n 0) (always_of fun _ _ h => h.1) h
  | left + 1, _, h =>
      Safe.act_bind (stable_draining n (left + 1)) (always_of fun _ _ h => h.1)
        (fun _ h => processLoop_safe hbody left (Draining.step hbody h)) h

/-- Releasing the batch ends the call. -/
lemma Draining.release {n : ℕ} {s : XskState} (h : Holds (Draining n 0) s) (packets : UInt64) :
    Holds Idle { s with
      rx := xskRingConsRelease s.rx (UInt32.ofNat n)
      statsRxPackets := packets } := by
  obtain ⟨k, hk, hal, hclosed, hri, hrcc, hlt⟩ := h
  have hk' := hk.release (by omega) hrcc.symm
  exact ⟨_, { hk' with parts := hk'.parts }, hal.same rfl rfl rfl rfl rfl, hclosed, hri, rfl, hlt⟩

/-! ## A whole call -/

/-- Both copies of `handle_receive_packets`: they differ in the body of the loop and in what follows
it. -/
def receiveCall {α : Type} (body : XdpDesc → XskState → XskState) (none : α)
    (last : UInt32 → Prog XskState α) (fuel : ℕ) : Prog XskState α := do
  let rcvd ← Prog.atomic peekRx
  if rcvd = 0 then
    return none
  else
    stuffFillRing fuel rcvd
    processLoop body rcvd.toNat
    last rcvd

/-- The peek: either nothing has arrived and the call is over, or a batch is at hand. -/
lemma Idle.peek {s : XskState} (h : Holds Idle s) :
    ((peekRx s).2 = 0 → Holds Idle (peekRx s).1)
      ∧ (peekRx s).2.toNat ≤ 64 ∧ Holds (Fresh (peekRx s).2.toNat) (peekRx s).1 := by
  obtain ⟨k, hk, hal, ⟨hfe, hfp, hfcc, hfull, hiff⟩, hri, hrc, hlt⟩ := h
  obtain ⟨k', hk', hri', hrcc', hle, -, hrc', -, hfp', hfc', hfcp', hfcc', hfe'⟩ := hk.peekRx hri
  have hal' : Always k' (peekRx s).1 := hal.same rfl rfl rfl hfc' hfe'
  have hclosed : Closed k' (peekRx s).1 := by
    refine ⟨by omega, by omega, by omega, ?_, hiff⟩
    rw [FullNamesFrame, hfe', hfc']
    exact hfull
  refine ⟨fun h0 => ⟨k', hk', hal', hclosed, ?_, ?_, hlt⟩, hle, k', hk', hal', hclosed, ?_, ?_, hle⟩
  · have hz : (peekRx s).2.toNat = 0 := by
      rw [h0]
      rfl
    omega
  · have hz : (peekRx s).2.toNat = 0 := by
      rw [h0]
      rfl
    omega
  · omega
  · omega

/-- **A call of `handle_receive_packets`**, from one idle state to the next. -/
lemma handleReceivePackets_safe (fuel : ℕ) {s : XskState} (h : Holds Idle s) :
    Safe KernelStep (Holds Always) (fun _ => Holds Idle) (handleReceivePackets fuel) s := by
  refine Safe.atomic_bind stable_idle (always_of fun _ _ h => h.1) ?_ h
  intro s hs
  obtain ⟨hidle, hn, hfresh⟩ := Idle.peek hs
  by_cases h0 : (peekRx s).2 = 0
  · rw [if_pos h0]
    exact Safe.done stable_idle (always_of fun _ _ h => h.1) (hidle h0)
  · rw [if_neg h0]
    refine (stuffFillRing_safe hn hfresh).bind fun _ t ht => ?_
    refine (processLoop_safe freesFrame_processAndFree _ ht).bind fun _ u hu => ?_
    refine Safe.act_bind (stable_draining _ 0) (always_of fun _ _ h => h.1) ?_ hu
    intro v hv
    refine Safe.done stable_idle (always_of fun _ _ h => h.1) ?_
    have hrel := Draining.release hv v.statsRxPackets
    rwa [UInt32.ofNat_toNat] at hrel

/-- **The call of `af_xdp_user.c`.**  `complete_tx` finds nothing outstanding. -/
lemma escenarios_handleReceivePackets_safe (fuel : ℕ) {s : XskState} (h : Holds Idle s) :
    Safe KernelStep (Holds Always) (fun _ => Holds Idle)
      (Escenarios.handleReceivePackets fuel) s := by
  refine Safe.atomic_bind stable_idle (always_of fun _ _ h => h.1) ?_ h
  intro s hs
  obtain ⟨hidle, hn, hfresh⟩ := Idle.peek hs
  by_cases h0 : (peekRx s).2 = 0
  · rw [if_pos h0]
    exact Safe.done stable_idle (always_of fun _ _ h => h.1) (hidle h0)
  · rw [if_neg h0]
    refine (stuffFillRing_safe hn hfresh).bind fun _ t ht => ?_
    refine (processLoop_safe freesFrame_processOrFree _ ht).bind fun _ u hu => ?_
    refine Safe.act_bind (stable_draining _ 0) (always_of fun _ _ h => h.1) ?_ hu
    intro v hv
    have hrel := Draining.release hv (v.statsRxPackets + (peekRx s).2.toUInt64)
    rw [UInt32.ofNat_toNat] at hrel
    refine Safe.atomic_bind stable_idle (always_of fun _ _ h => h.1) ?_ hrel
    rintro w ⟨k, hk, hal, hrest⟩
    simp only [hal.noTx, if_true]
    exact Safe.done stable_idle (always_of fun _ _ h => h.1) ⟨k, hk, hal, hrest⟩

end Umem
