import XdpFlows.Core.Guarantee
import XdpFlows.Umem.Reception

/-!
# Packets are handed over in the order of their descriptors

`Receive` says where the frames are; this file says which descriptors are handed to the packet
processor and in which order.  A run is watched together with two logs nobody in it reads: the
descriptors the kernel has put into the rx ring (`given`) and the addresses it has taken out of the
fill ring (`taken`).

`InOrder` is what one section of the process does to both rings: it moves descriptors from the front
of what is unread to the packet processor, and addresses to the end of what the kernel is offered.
Every section of either `handle_receive_packets` is such a step (`receiveCall_pace`), and the kernel's
steps move the logs (`unread_kernelDeliver`, `offered_kernelConsume`).
-/

namespace Umem

open Sections RingWindow Relation

/-! ## What is in the rings and what has passed through them -/

/-- The descriptors handed to the packet processor. -/
def XskState.handed (s : XskState) : List XdpDesc :=
  s.trace.filterMap fun
    | .delivered desc => some desc
    | _ => none

/-- The addresses written into the fill ring. -/
def XskState.filled (s : XskState) : List UInt64 :=
  s.trace.filterMap fun
    | .filled addr => some addr
    | _ => none

/-- The descriptors in the rx ring that have not been handed over: the rest of the batch and what has
not been peeked. -/
def XskState.unread (s : XskState) : List XdpDesc :=
  s.rx.entries s.idxRx (s.idxRx + s.batchLeft) ++ s.rx.entries s.rx.cachedCons s.rx.producer

/-- The addresses written into the fill ring that the kernel has not taken, in the order in which it
comes to them.  Those of a refill still going on count too: they are submitted together at its end. -/
def XskState.offered (s : XskState) : List UInt64 :=
  s.fq.entries s.fq.consumer (s.fq.cachedProd - s.fillLeft)

/-- A step of the process keeps the order of both rings. -/
structure InOrder (s s' : XskState) : Prop where
  rx : ∃ ds, s'.handed = s.handed ++ ds ∧ s.unread = ds ++ s'.unread
  fill : ∃ addrs, s'.filled = s.filled ++ addrs ∧ s'.offered = s.offered ++ addrs

/-- The runs of a receive function with the two logs of the kernel. -/
inductive XskLogged {α : Type} (call : ℕ → Prog XskState α) :
    XskState → Option (Prog XskState α) → List XdpDesc → List UInt64 → Prop where
  | start {s : XskState} (h : xskConfigureSocket = some s) : XskLogged call s none [] []
  | call {s : XskState} {given : List XdpDesc} {taken : List UInt64} (fuel : ℕ)
      (h : XskLogged call s none given taken) : XskLogged call s (some (call fuel)) given taken
  | user {s : XskState} {given : List XdpDesc} {taken : List UInt64} {u : XskState → XskState}
      {k : XskState → Prog XskState α} (h : XskLogged call s (some (.sec u k)) given taken) :
      XskLogged call (u s) (some (k s)) given taken
  | back {s : XskState} {given : List XdpDesc} {taken : List UInt64} {a : α}
      (h : XskLogged call s (some (.ret a)) given taken) : XskLogged call s none given taken
  | consume {s : XskState} {p : Option (Prog XskState α)} {given : List XdpDesc}
      {taken : List UInt64} (h : XskLogged call s p given taken)
      (hentry : s.fq.consumer ≠ s.fq.producer) :
      XskLogged call (kernelConsume s) p given (taken ++ [s.fq.entry s.fq.consumer])
  | deliver {s : XskState} {p : Option (Prog XskState α)} {given : List XdpDesc}
      {taken : List UInt64} {chunk : ℕ} {desc : XdpDesc} (h : XskLogged call s p given taken)
      (hheld : chunk ∈ s.held) (haddr : chunkOf desc.addr = some chunk)
      (hroom : s.rx.producer - s.rx.consumer < s.rx.size) :
      XskLogged call (kernelDeliver chunk desc s) p (given ++ [desc]) taken

section Runs

variable {α : Type} {call : ℕ → Prog XskState α} {s : XskState} {p : Option (Prog XskState α)}

/-- The logs are only watched: forgetting them leaves a run. -/
lemma XskLogged.run {given : List XdpDesc} {taken : List UInt64}
    (h : XskLogged call s p given taken) : XskRun call s p := by
  induction h with
  | start h => exact .start h
  | call fuel _ ih => exact ih.call fuel
  | user _ ih => exact ih.user
  | back _ ih => exact ih.back
  | consume _ hentry ih => exact ih.kernel (.consume hentry)
  | deliver _ hheld haddr hroom ih => exact ih.kernel (.deliver hheld haddr hroom)

/-- Every run can be watched. -/
lemma XskRun.logged (h : XskRun call s p) :
    ∃ given taken, XskLogged call s p given taken := by
  induction h with
  | start h => exact ⟨[], [], .start h⟩
  | call fuel _ ih =>
      obtain ⟨given, taken, ih⟩ := ih
      exact ⟨given, taken, ih.call fuel⟩
  | user _ ih =>
      obtain ⟨given, taken, ih⟩ := ih
      exact ⟨given, taken, ih.user⟩
  | back _ ih =>
      obtain ⟨given, taken, ih⟩ := ih
      exact ⟨given, taken, ih.back⟩
  | kernel _ hk ih =>
      obtain ⟨given, taken, ih⟩ := ih
      cases hk with
      | consume hentry => exact ⟨given, _, ih.consume hentry⟩
      | deliver hheld haddr hroom => exact ⟨_, taken, ih.deliver hheld haddr hroom⟩

end Runs

/-! ## The rings behind the counters -/

section Windows

variable {k : Counters} {s : XskState}

lemma Frames.unread_eq (h : Frames k s) : s.unread = window s.rx.ring 11 k.ri k.rp := by
  obtain ⟨hr1, hr2, hr3, hr4, hr5⟩ := h.rxOrder
  have hbatch : s.rx.entries s.idxRx (s.idxRx + s.batchLeft) = window s.rx.ring 11 k.ri k.rcc := by
    rcases Nat.lt_or_eq_of_le hr2 with hlt | heq
    · rw [XskRing.entries, h.rxMask, h.idxRx hlt, h.batchLeft, ← UInt32.ofNat_add,
        Nat.add_sub_cancel' hr2, slice_eq_window _ _ hr2 (by omega)]
    · -- an empty batch, wherever `idx_rx` points
      rw [XskRing.entries, h.batchLeft, heq, slice]
      simp
  rw [XskState.unread, hbatch, XskRing.entries, h.rxMask, h.rxCachedCons, h.rxProducer,
    slice_eq_window _ _ (by omega) (by omega), ← window_append _ _ hr2 (by omega)]

lemma Frames.offered_eq (h : Frames k s) : s.offered = window s.fq.ring 11 k.fc k.fe := by
  obtain ⟨hf1, hf2, hf3, hf4, hf5⟩ := h.fillOrder
  rw [XskState.offered, XskRing.entries, h.cachedProd, h.fillLeft,
    ofNat_sub_ofNat (Nat.sub_le _ _), Nat.sub_sub_self hf3, h.fqMask, h.consumer,
    slice_eq_window _ _ (by omega) (by omega)]

/-- The kernel takes the address it was offered first. -/
lemma Frames.offered_kernelConsume (h : Frames k s) (hne : s.fq.consumer ≠ s.fq.producer) :
    s.offered = s.fq.entry s.fq.consumer :: (Umem.kernelConsume s).offered := by
  obtain ⟨hf1, hf2, hf3, hf4, hf5⟩ := h.fillOrder
  obtain ⟨hlt, h'⟩ := h.kernelConsume hne
  have hentry : s.fq.entry s.fq.consumer = s.fq.ring (slot 11 k.fc) := by
    rw [XskRing.entry, h.consumer, h.fqMask, slot]
  rw [h.offered_eq, h'.offered_eq, hentry, window_cons _ _ (by omega)]
  rfl

/-- The kernel puts its descriptor behind the unread ones. -/
lemma Frames.unread_kernelDeliver (h : Frames k s) {chunk : ℕ} {desc : XdpDesc}
    (hheld : chunk ∈ s.held) (haddr : chunkOf desc.addr = some chunk)
    (hroom : s.rx.producer - s.rx.consumer < s.rx.size) :
    (Umem.kernelDeliver chunk desc s).unread = s.unread ++ [desc] := by
  obtain ⟨hr1, hr2, hr3, hr4, hr5⟩ := h.rxOrder
  have h' := h.kernelDeliver hheld haddr hroom
  obtain ⟨-, -, -, -, hlt⟩ := h'.rxOrder
  simp only at hlt
  have hring : (Umem.kernelDeliver chunk desc s).rx.ring
      = Function.update s.rx.ring (slot 11 k.rp) desc := by
    show (s.rx.write s.rx.producer desc).ring = _
    rw [XskRing.write, h.rxProducer, h.rxMask, slot]
  have hnew := h'.unread_eq
  simp only at hnew
  rw [hnew, h.unread_eq, hring, window_concat _ _ (by omega),
    window_update _ (by omega) desc le_rfl (by omega), Function.update_self]

end Windows

/-! ## The sections of the process -/

section Sections

variable {s s' : XskState}

lemma handed_append {e : XskEvent} (ht : s'.trace = s.trace ++ [e])
    (he : ∀ desc, e ≠ .delivered desc) : s'.handed = s.handed := by
  rw [XskState.handed, ht, List.filterMap_append, XskState.handed]
  cases e with
  | delivered desc => exact absurd rfl (he desc)
  | _ => simp

lemma filled_append {e : XskEvent} (ht : s'.trace = s.trace ++ [e])
    (he : ∀ addr, e ≠ .filled addr) : s'.filled = s.filled := by
  rw [XskState.filled, ht, List.filterMap_append, XskState.filled]
  cases e with
  | filled addr => exact absurd rfl (he addr)
  | _ => simp

/-- A section that moves nothing through either ring. -/
lemma InOrder.of_eq (hhanded : s'.handed = s.handed) (hunread : s'.unread = s.unread)
    (hfilled : s'.filled = s.filled) (hoffered : s'.offered = s.offered) : InOrder s s' where
  rx := ⟨[], by rw [hhanded, List.append_nil], hunread.symm⟩
  fill := ⟨[], by rw [hfilled, List.append_nil], by rw [hoffered, List.append_nil]⟩

lemma inOrder_submit (s : XskState) (nb : UInt32) :
    InOrder s { s with fq := xskRingProdSubmit s.fq nb } :=
  .of_eq rfl rfl rfl rfl

lemma inOrder_peekRx (h : Holds Idle s) : InOrder s (peekRx s).1 := by
  obtain ⟨k, hk, -, -, hri, -, -⟩ := h
  obtain ⟨k', hk', hri', -, -, -, -, hrp', -⟩ := hk.peekRx hri
  have hring : (peekRx s).1.rx.ring = s.rx.ring := by
    show (xskRingConsPeek s.rx rxBatchSize s.idxRx).1.ring = s.rx.ring
    have havail : (xskConsNbAvail s.rx rxBatchSize).1.ring = s.rx.ring := by
      simp only [xskConsNbAvail]
      split_ifs <;> rfl
    unfold xskRingConsPeek
    simp only
    split_ifs <;> exact havail
  refine .of_eq rfl ?_ rfl rfl
  rw [hk'.unread_eq, hk.unread_eq, hring, hri', hrp', hri]

lemma inOrder_stockFrames (s : XskState) : InOrder s (stockFrames s).1 := by
  have hoffered : (stockFrames s).1.offered = s.offered := by
    obtain ⟨c, hc⟩ : ∃ c, (xskProdNbFree s.fq (xskUmemFreeFrames s)).1
        = { s.fq with cachedCons := c } := by
      by_cases hle : xskUmemFreeFrames s ≤ s.fq.cachedCons - s.fq.cachedProd
      · exact ⟨s.fq.cachedCons, by rw [xskProdNbFree_of_le hle]⟩
      · exact ⟨s.fq.consumer + s.fq.size, by rw [xskProdNbFree_of_not_le hle]⟩
    have hfq : (stockFrames s).1.fq = { s.fq with cachedCons := c } := hc
    rw [XskState.offered, hfq]
    rfl
  exact .of_eq (handed_append rfl (by simp)) rfl (filled_append rfl (by simp)) hoffered

lemma inOrder_reserveFq {n stock : ℕ} (h : Holds (Stocked n stock) s) {e : XskEvent}
    (he : (∀ desc, e ≠ .delivered desc) ∧ ∀ addr, e ≠ .filled addr) :
    InOrder s { (reserveFq (UInt32.ofNat stock) s).1 with trace := s.trace ++ [e] } := by
  obtain ⟨k, hk, -, -, -, hfe, -, hfcc, -⟩ := h
  have hdiff : k.fcc - k.fcp = stock := by omega
  obtain ⟨hk', -⟩ := hk.reserveFq hfe
  rw [hdiff] at hk'
  have hring : (reserveFq (UInt32.ofNat stock) s).1.fq.ring = s.fq.ring :=
    xskRingProdReserve_ring s.fq (UInt32.ofNat stock) s.idxFq
  have hoffered : (reserveFq (UInt32.ofNat stock) s).1.offered = s.offered := by
    rw [hk'.offered_eq, hk.offered_eq, hring]
  exact .of_eq (handed_append rfl he.1) rfl (filled_append rfl he.2) hoffered

lemma inOrder_fillOne {n stock left : ℕ} (h : Holds (Filling n stock (left + 1)) s) :
    InOrder s (fillOne s) := by
  obtain ⟨k, hk, -, -, -, hfe, -⟩ := h
  obtain ⟨hf1, hf2, hf3, hf4, hf5⟩ := hk.fillOrder
  obtain ⟨hk', -⟩ := hk.fillOne (by omega)
  have hsame : (xskAllocUmemFrame s).1.rx = s.rx ∧ (xskAllocUmemFrame s).1.idxRx = s.idxRx
      ∧ (xskAllocUmemFrame s).1.batchLeft = s.batchLeft := by
    unfold xskAllocUmemFrame
    split <;> exact ⟨rfl, rfl, rfl⟩
  have hring : (fillOne s).fq.ring
      = Function.update s.fq.ring (slot 11 k.fe) (xskAllocUmemFrame s).2 := by
    rw [fillOne_ring, hk.idxFq (by omega), hk.fqMask, slot]
  refine ⟨⟨[], ?_, ?_⟩, [(xskAllocUmemFrame s).2], ?_, ?_⟩
  · rw [handed_append (fillOne_trace s) (by simp), List.append_nil]
  · obtain ⟨hrx, hidx, hleft⟩ := hsame
    show s.unread = (xskAllocUmemFrame s).1.rx.entries (xskAllocUmemFrame s).1.idxRx
        ((xskAllocUmemFrame s).1.idxRx + (xskAllocUmemFrame s).1.batchLeft)
      ++ (xskAllocUmemFrame s).1.rx.entries (xskAllocUmemFrame s).1.rx.cachedCons
        (xskAllocUmemFrame s).1.rx.producer
    rw [hrx, hidx, hleft]
    rfl
  · rw [XskState.filled, fillOne_trace, List.filterMap_append]
    rfl
  · have hnew := hk'.offered_eq
    simp only at hnew
    rw [hnew, hk.offered_eq, hring, window_concat _ _ (by omega),
      window_update _ (by omega) _ le_rfl (by omega), Function.update_self]

/-- Handing one packet over takes its descriptor off the front of the unread ones. -/
lemma handed_nextDesc {body : XdpDesc → XskState → XskState} (hbody : FreesFrame body) {n left : ℕ}
    (h : Holds (Draining n (left + 1)) s) :
    ∃ desc, (body (nextDesc s).2 (nextDesc s).1).handed = s.handed ++ [desc]
      ∧ s.unread = desc :: (body (nextDesc s).2 (nextDesc s).1).unread
      ∧ (body (nextDesc s).2 (nextDesc s).1).filled = s.filled
      ∧ (body (nextDesc s).2 (nextDesc s).1).offered = s.offered := by
  obtain ⟨k, hk, -, -, hri, -, -⟩ := h
  obtain ⟨hr1, hr2, hr3, hr4, hr5⟩ := hk.rxOrder
  obtain ⟨bytes, hb⟩ := hbody (nextDesc s).2 (nextDesc s).1
  obtain ⟨hk', -⟩ := hk.freeNext (by omega) (t := s.trace ++ [.delivered (nextDesc s).2])
  have hst : (nextDesc s).1.trace = s.trace := rfl
  rw [hb, hst]
  set t := xskFreeUmemFrame { (nextDesc s).1 with trace := s.trace ++ [.delivered (nextDesc s).2] }
    (nextDesc s).2.addr with ht
  have hkeep : t.trace = s.trace ++ [.delivered (nextDesc s).2] ∧ t.rx = s.rx ∧ t.fq = s.fq
      ∧ t.fillLeft = s.fillLeft := by
    rw [ht]
    unfold xskFreeUmemFrame
    split_ifs <;> exact ⟨rfl, rfl, rfl, rfl⟩
  obtain ⟨htrace, hrx, hfq, hfill⟩ := hkeep
  have hdesc : (nextDesc s).2 = s.rx.ring (slot 11 k.ri) := by
    rw [nextDesc, XskRing.entry, hk.idxRx (by omega), hk.rxMask, slot]
  refine ⟨(nextDesc s).2, ?_, ?_, ?_, ?_⟩
  · show t.trace.filterMap _ = _
    rw [htrace, List.filterMap_append]
    rfl
  · show s.unread = _ :: t.unread
    rw [hk.unread_eq, hk'.unread_eq, hrx, hdesc, window_cons _ _ (by omega)]
  · exact filled_append htrace (by simp)
  · show t.fq.entries t.fq.consumer (t.fq.cachedProd - t.fillLeft) = _
    rw [hfq, hfill]
    rfl

lemma inOrder_nextDesc {body : XdpDesc → XskState → XskState} (hbody : FreesFrame body) {n left : ℕ}
    (h : Holds (Draining n (left + 1)) s) :
    InOrder s (body (nextDesc s).2 (nextDesc s).1) := by
  obtain ⟨desc, hhanded, hunread, hfilled, hoffered⟩ := handed_nextDesc hbody h
  exact ⟨⟨[desc], hhanded, hunread⟩, [], by rw [hfilled, List.append_nil],
    by rw [hoffered, List.append_nil]⟩

end Sections

/-! ## Whole calls -/

lemma fillLoop_inOrder {n stock : ℕ} (hn : n ≤ 64) : ∀ (left : ℕ) {s : XskState},
    Holds (Filling n stock left) s →
      Guarantees KernelStep (Holds Always) InOrder (fun _ => Holds (Filling n stock 0)) (fillLoop left) s
  | 0, _, h => .done (stable_filling n stock 0) (always_of fun _ _ h => h.1) h
  | left + 1, _, h =>
      .act_bind (stable_filling n stock (left + 1)) (always_of fun _ _ h => h.1)
        (fun _ h => ⟨inOrder_fillOne h, fillLoop_inOrder hn left (Filling.step h hn)⟩) h

lemma stuffFillRing_inOrder {n fuel : ℕ} {rcvd : UInt32} {s : XskState} (hn : n ≤ 64)
    (h : Holds (Fresh n) s) :
    Guarantees KernelStep (Holds Always) InOrder (fun _ => Holds (Draining n n))
      (stuffFillRing fuel rcvd) s := by
  refine .atomic_bind (stable_fresh n) (always_of fun _ _ h => h.1) ?_ h
  intro s hs
  refine ⟨inOrder_stockFrames s, ?_⟩
  rcases Fresh.stock hs with ⟨hz, hd⟩ | ⟨m, hpos, hlt, hm, hst⟩
  · rw [hz, if_neg (UInt32.lt_irrefl 0)]
    exact .done (stable_draining n n) (always_of fun _ _ h => h.1) hd
  · have hval : (UInt32.ofNat m).toNat = m := by
      rw [UInt32.toNat_ofNat', Nat.mod_eq_of_lt hlt]
    rw [hm, if_pos (by rw [UInt32.lt_iff_toNat_lt, hval]; exact hpos), hval]
    refine .atomic_bind (stable_stocked n m) (always_of fun _ _ h => h.1) ?_ hst
    intro t ht
    obtain ⟨hgranted, hfill⟩ := Stocked.reserve ht
    have hretry : retryReserve rcvd (UInt32.ofNat m) fuel (UInt32.ofNat m) = .ret () := by
      cases fuel <;> simp [retryReserve]
    simp only [hgranted]
    refine ⟨inOrder_reserveFq ht ⟨by simp, by simp⟩, ?_⟩
    rw [hretry, Prog.ret_bind]
    refine (fillLoop_inOrder hn m hfill).bind fun _ u hu => ?_
    refine .act_bind (g := fun _ => .ret ()) (stable_filling n m 0) (always_of fun _ _ h => h.1) ?_ hu
    intro v hv
    exact ⟨inOrder_submit v _, .done (stable_draining n n) (always_of fun _ _ h => h.1)
      (Filling.submit hv hpos)⟩

lemma processLoop_inOrder {body : XdpDesc → XskState → XskState} (hbody : FreesFrame body) {n : ℕ} :
    ∀ (left : ℕ) {s : XskState}, Holds (Draining n left) s →
      Guarantees KernelStep (Holds Always) InOrder (fun _ => Holds (Draining n 0))
        (processLoop body left) s
  | 0, _, h => .done (stable_draining n 0) (always_of fun _ _ h => h.1) h
  | left + 1, _, h =>
      .act_bind (stable_draining n (left + 1)) (always_of fun _ _ h => h.1)
        (fun _ h => ⟨inOrder_nextDesc hbody h,
          processLoop_inOrder hbody left (Draining.step hbody h)⟩) h

/-- All descriptors the kernel has delivered. -/
def XskState.received (s : XskState) : List XdpDesc :=
  s.handed ++ s.unread

section Waiting

variable {s s' : XskState}

lemma InOrder.received (h : InOrder s s') : s'.received = s.received := by
  obtain ⟨⟨ds, hhanded, hunread⟩, -⟩ := h
  rw [XskState.received, XskState.received, hhanded, hunread, List.append_assoc]

lemma InOrder.handed_le (h : InOrder s s') : s.handed.length ≤ s'.handed.length := by
  obtain ⟨⟨ds, hhanded, -⟩, -⟩ := h
  rw [hhanded, List.length_append]
  exact Nat.le_add_right _ _

lemma handed_kernel (h : KernelStep s s') : s'.handed = s.handed := by
  cases h with
  | consume _ => rfl
  | deliver _ _ _ => rfl

lemma received_kernel (hal : Holds Always s) (h : KernelStep s s') : s.received <+: s'.received := by
  obtain ⟨k, hk, -⟩ := hal
  rw [XskState.received, XskState.received, handed_kernel h, List.prefix_append_right_inj]
  cases h with
  | consume _ => exact List.prefix_refl _
  | deliver hheld haddr hroom =>
      rw [hk.unread_kernelDeliver hheld haddr hroom]
      exact List.prefix_append _ _

/-- The process hands over at least `m` descriptors. -/
def HandedAtLeast (m : ℕ) (s : XskState) : Prop :=
  m ≤ s.handed.length

lemma stable_handedAtLeast (m : ℕ) : Stable KernelStep (HandedAtLeast m) := by
  intro s s' h hs
  rw [HandedAtLeast, handed_kernel hs]
  exact h

lemma HandedAtLeast.keep {α : Type} {m : ℕ} {Q : α → XskState → Prop} {p : Prog XskState α}
    (hp : Guarantees KernelStep (Holds Always) InOrder Q p s) (h : HandedAtLeast m s) :
    Guarantees KernelStep (Holds Always) InOrder (fun a t => Q a t ∧ HandedAtLeast m t) p s :=
  hp.keeps (fun _ _ _ _ h hstep => le_trans h hstep.handed_le)
    (fun _ _ _ _ h hstep => stable_handedAtLeast m h hstep) h

lemma stable_and {P R : XskState → Prop} (hP : Stable KernelStep P) (hR : Stable KernelStep R) :
    Stable KernelStep fun s => P s ∧ R s :=
  fun _ _ h hs => ⟨hP h.1 hs, hR h.2 hs⟩

/-- A batch that is not empty hands over at least one descriptor. -/
lemma processLoop_hands {body : XdpDesc → XskState → XskState} (hbody : FreesFrame body) {n left m : ℕ}
    (h : Holds (Draining n (left + 1)) s) (hm : HandedAtLeast m s) :
    Guarantees KernelStep (Holds Always) InOrder
      (fun _ t => Holds (Draining n 0) t ∧ HandedAtLeast (m + 1) t) (processLoop body (left + 1)) s := by
  refine .act_bind (stable_and (stable_draining n (left + 1)) (stable_handedAtLeast m))
    (fun s h => always_of (fun _ _ h => h.1) s h.1) ?_ ⟨h, hm⟩
  intro t ht
  refine ⟨inOrder_nextDesc hbody ht.1, ?_⟩
  refine HandedAtLeast.keep (processLoop_inOrder hbody left (Draining.step hbody ht.1)) ?_
  obtain ⟨desc, hhanded, -⟩ := handed_nextDesc hbody ht.1
  show m + 1 ≤ List.length _
  rw [hhanded, List.length_append]
  exact Nat.succ_le_succ ht.2

/-- A peek that finds nothing has found nothing unread. -/
lemma unread_of_peekRx_zero (h : Holds Idle s) (h0 : (peekRx s).2 = 0) : s.unread = [] := by
  obtain ⟨k, hk, -, -, hri, -, -⟩ := h
  obtain ⟨k', -, -, -, -, hpos, -⟩ := hk.peekRx hri
  rw [h0] at hpos
  have hz : (0 : UInt32).toNat = 0 := rfl
  have hnone : ¬ k.rcc < k.rp := fun hlt => by
    have := hpos hlt
    omega
  rw [hk.unread_eq, window, show k.rp - k.ri = 0 by omega]
  rfl

/-- What a receive function has to guarantee for one call: every section keeps the order, and something
is handed over if anything was unread when the call was made. -/
def KeepsPace {α : Type} (call : ℕ → Prog XskState α) : Prop :=
  ∀ fuel s, Holds Idle s →
    Guarantees KernelStep (Holds Always) InOrder
      (fun _ t => Holds Idle t ∧ HandedAtLeast (min s.received.length (s.handed.length + 1)) t)
      (call fuel) s

/-- The state of a call before its peek. -/
def Unpeeked (s t : XskState) : Prop :=
  Holds Idle t ∧ t.handed = s.handed ∧ s.received.length ≤ t.received.length

lemma stable_unpeeked (s : XskState) : Stable KernelStep (Unpeeked s) := by
  rintro t t' ⟨hidle, hhanded, hlen⟩ hs
  refine ⟨stable_idle hidle hs, (handed_kernel hs).trans hhanded, le_trans hlen ?_⟩
  exact (received_kernel (always_of (fun _ _ h => h.1) t hidle) hs).length_le

/-- Nothing was unread at the peek: all that had been received has been handed over. -/
lemma Unpeeked.nothing {t : XskState} (h : Unpeeked s t) (h0 : (peekRx t).2 = 0) :
    Holds Idle (peekRx t).1
      ∧ HandedAtLeast (min s.received.length (s.handed.length + 1)) (peekRx t).1 := by
  obtain ⟨hidle, hhanded, hlen⟩ := h
  refine ⟨(Idle.peek hidle).1 h0, ?_⟩
  have hnone := unread_of_peekRx_zero hidle h0
  change s.received.length ≤ (t.handed ++ t.unread).length at hlen
  rw [hnone, List.append_nil] at hlen
  exact le_trans (Nat.min_le_left _ _) hlen

/-- The peek of a call that finds something, and the refill after it, lose nothing of the pace. -/
lemma Unpeeked.batch {t : XskState} (h : Unpeeked s t) {fuel : ℕ} (h0 : (peekRx t).2 ≠ 0) :
    ∃ m, (peekRx t).2.toNat = m + 1
      ∧ Guarantees KernelStep (Holds Always) InOrder
        (fun _ u => Holds (Draining (m + 1) (m + 1)) u ∧ HandedAtLeast s.handed.length u)
        (stuffFillRing fuel (peekRx t).2) (peekRx t).1 := by
  obtain ⟨hidle, hhanded, -⟩ := h
  obtain ⟨-, hn, hfresh⟩ := Idle.peek hidle
  have hpos : (peekRx t).2.toNat ≠ 0 := fun hz => h0 (UInt32.toNat.inj hz)
  obtain ⟨m, hm⟩ := Nat.exists_eq_succ_of_ne_zero hpos
  rw [hm] at hn hfresh
  refine ⟨m, hm, HandedAtLeast.keep (stuffFillRing_inOrder hn hfresh) ?_⟩
  have hsame : (peekRx t).1.handed = t.handed := rfl
  rw [HandedAtLeast, hsame, hhanded]

end Waiting

/-- What follows the loop ends the call. -/
def EndsBatch {α : Type} (last : UInt32 → Prog XskState α) : Prop :=
  ∀ rcvd s, Holds (Draining rcvd.toNat 0) s →
    Guarantees KernelStep (Holds Always) InOrder (fun _ => Holds Idle) (last rcvd) s

lemma receiveCall_pace {α : Type} {body : XdpDesc → XskState → XskState} (hbody : FreesFrame body)
    (none : α) {last : UInt32 → Prog XskState α} (hlast : EndsBatch last) :
    KeepsPace (receiveCall body none last) := by
  intro fuel s h
  refine .atomic_bind (stable_unpeeked s) (fun t ht => always_of (fun _ _ h => h.1) t ht.1) ?_
    ⟨h, rfl, le_rfl⟩
  intro t ht
  refine ⟨inOrder_peekRx ht.1, ?_⟩
  by_cases h0 : (peekRx t).2 = 0
  · rw [if_pos h0]
    exact .done (stable_and stable_idle (stable_handedAtLeast _))
      (fun u hu => always_of (fun _ _ h => h.1) u hu.1) (ht.nothing h0)
  · rw [if_neg h0]
    obtain ⟨m, hm, hstuff⟩ := ht.batch h0
    refine hstuff.bind fun _ u hu => ?_
    rw [hm]
    refine (processLoop_hands hbody hu.1 hu.2).bind fun _ v hv => ?_
    rw [← hm] at hv
    refine HandedAtLeast.keep (hlast _ v hv.1) ?_
    exact le_trans (Nat.min_le_right _ _) hv.2

lemma handleReceivePackets_pace : KeepsPace handleReceivePackets := by
  refine receiveCall_pace freesFrame_processAndFree 0 ?_
  intro rcvd s h
  refine .act_bind (g := fun _ => .ret 1) (stable_draining _ 0) (always_of fun _ _ h => h.1) ?_ h
  intro t ht
  refine ⟨.of_eq rfl rfl rfl rfl, .done stable_idle (always_of fun _ _ h => h.1) ?_⟩
  have hrel := Draining.release ht t.statsRxPackets
  rwa [UInt32.ofNat_toNat] at hrel

/-- `complete_tx` finds nothing outstanding. -/
lemma escenarios_handleReceivePackets_pace : KeepsPace Escenarios.handleReceivePackets := by
  refine receiveCall_pace freesFrame_processOrFree () ?_
  intro rcvd s h
  refine .act_bind (stable_draining _ 0) (always_of fun _ _ h => h.1) ?_ h
  intro t ht
  have hrel := Draining.release ht (t.statsRxPackets + rcvd.toUInt64)
  rw [UInt32.ofNat_toNat] at hrel
  refine ⟨.of_eq rfl rfl rfl rfl, ?_⟩
  refine .atomic_bind stable_idle (always_of fun _ _ h => h.1) ?_ hrel
  rintro u ⟨k, hk, hal, hrest⟩
  simp only [hal.noTx, if_true]
  exact ⟨.of_eq rfl rfl rfl rfl, .done stable_idle (always_of fun _ _ h => h.1) ⟨k, hk, hal, hrest⟩⟩

/-! ## Runs -/

section Logs

variable {α : Type} {call : ℕ → Prog XskState α} {s : XskState} {p : Option (Prog XskState α)}
  {given : List XdpDesc} {taken : List UInt64}

/-- The logs agree with what the process has seen and with what is in the rings. -/
def LogsAgree (s : XskState) (given : List XdpDesc) (taken : List UInt64) : Prop :=
  given = s.handed ++ s.unread ∧ s.filled = taken ++ s.offered

lemma LogsAgree.step {s' : XskState} (h : LogsAgree s given taken) (hs : InOrder s s') :
    LogsAgree s' given taken := by
  obtain ⟨⟨ds, hhanded, hunread⟩, addrs, hfilled, hoffered⟩ := hs
  obtain ⟨hgiven, htaken⟩ := h
  constructor
  · rw [hgiven, hhanded, hunread, List.append_assoc]
  · rw [hfilled, htaken, hoffered, List.append_assoc]

/-- The state of a watched run. -/
def WatchedOk (s : XskState) : Option (Prog XskState α) → Prop
  | none => Holds Idle s
  | some p => Guarantees KernelStep (Holds Always) InOrder (fun _ => Holds Idle) p s

lemma WatchedOk.always (h : WatchedOk s p) : Holds Always s := by
  cases p with
  | none => exact always_of (fun _ _ h => h.1) s h
  | some p => exact Guarantees.now h

lemma WatchedOk.kernel {s' : XskState} (h : WatchedOk s p) (hs : KernelStep s s') :
    WatchedOk s' p := by
  cases p with
  | none => exact stable_idle h hs
  | some p => exact Guarantees.env_step h hs

/-- `xsk_configure_socket` has offered what it has filled in, and nothing has been received. -/
lemma logsAgree_configuredSocket : LogsAgree configuredSocket [] [] := by
  obtain ⟨-, hfill⟩ := filling_freshSocket
  have hstart : LogsAgree (reserveFq ringSize freshSocket).1 [] [] := by
    constructor <;> rfl
  have hfilled := ((fillLoop_inOrder (Nat.zero_le 64) 2048 hfill).alone
    (I := fun s => LogsAgree s [] []) (fun _ _ hagree hstep => hagree.step hstep) hstart).1
  -- named, so that the loop is not unfolded
  obtain ⟨u, hu⟩ : ∃ u, u = ((fillLoop ringSize.toNat).run (reserveFq ringSize freshSocket).1).1 :=
    ⟨_, rfl⟩
  have h2048 : ringSize.toNat = 2048 := rfl
  rw [← h2048, ← hu] at hfilled
  rw [configuredSocket, ← hu]
  exact hfilled.step (inOrder_submit u ringSize)

lemma XskLogged.agree (hcall : KeepsPace call) (h : XskLogged call s p given taken) :
    WatchedOk s p ∧ LogsAgree s given taken := by
  induction h with
  | start h =>
      rw [xskConfigureSocket_eq, Option.some.injEq] at h
      exact h ▸ ⟨idle_configuredSocket, logsAgree_configuredSocket⟩
  | call fuel _ ih =>
      exact ⟨(hcall fuel _ ih.1).imp (fun _ _ h => h) fun _ _ h => h.1, ih.2⟩
  | user _ ih =>
      obtain ⟨hstep, hrest⟩ := Guarantees.sec_step ih.1
      exact ⟨hrest, ih.2.step hstep⟩
  | @back s _ _ a _ ih =>
      have hret : Guarantees KernelStep (Holds Always) InOrder (fun _ => Holds Idle) (.ret a) s := ih.1
      exact ⟨hret.result, ih.2⟩
  | consume _ hentry ih =>
      obtain ⟨hok, hgiven, htaken⟩ := ih
      obtain ⟨k, hk, -⟩ := hok.always
      refine ⟨hok.kernel (.consume hentry), hgiven, ?_⟩
      rw [List.append_assoc, List.singleton_append, ← hk.offered_kernelConsume hentry]
      exact htaken
  | deliver _ hheld haddr hroom ih =>
      obtain ⟨hok, hgiven, htaken⟩ := ih
      obtain ⟨k, hk, -⟩ := hok.always
      refine ⟨hok.kernel (.deliver hheld haddr hroom), ?_, htaken⟩
      rw [hk.unread_kernelDeliver hheld haddr hroom, ← List.append_assoc, hgiven]
      rfl

end Logs

/-- **Every packet is handed over once, in the order of the descriptors.**  At every moment of every
run of either receive function, what the kernel has put into the rx ring is what has been handed to
the packet processor followed by what is still unread, and what has been written into the fill ring is
what the kernel has taken out of it followed by what it is offered. -/
theorem packets_in_descriptor_order :
    (∀ s p given taken, XskLogged handleReceivePackets s p given taken →
      given = s.handed ++ s.unread ∧ s.filled = taken ++ s.offered)
    ∧ ∀ s p given taken, XskLogged Escenarios.handleReceivePackets s p given taken →
      given = s.handed ++ s.unread ∧ s.filled = taken ++ s.offered :=
  ⟨fun _ _ _ _ h => (h.agree handleReceivePackets_pace).2,
    fun _ _ _ _ h => (h.agree escenarios_handleReceivePackets_pace).2⟩

/-- The kernel takes the first frame it is offered and delivers it. -/
lemma exists_unread : ∃ s, XskRun handleReceivePackets s none ∧ s.unread ≠ [] := by
  obtain ⟨-, hrx, hheld, -⟩ := configuredSocket_fields
  have hstart : XskRun handleReceivePackets configuredSocket none := .start xskConfigureSocket_eq
  have hsub := Idle.submittedChunks_ne_nil idle_configuredSocket (by rw [hrx]; rfl) hheld
  obtain ⟨hentry, c, hc⟩ := Idle.offers idle_configuredSocket hsub onlyFrames_configuredSocket
  have hrun := hstart.kernel (.consume hentry)
  -- named, so that the socket is not unfolded
  obtain ⟨u, hu⟩ : ∃ u, u = configuredSocket := ⟨_, rfl⟩
  rw [← hu] at hrx hentry hc hrun
  obtain ⟨k, hk, -⟩ := hrun.idle keepsIdle_handleReceivePackets
  have hmem : c ∈ (kernelConsume u).held := by
    show c ∈ (chunkOf (u.fq.entry u.fq.consumer)).toList ++ u.held
    rw [hc]
    exact List.mem_append_left _ (List.mem_singleton_self c)
  have haddr := chunkOf_mul (hk.held_lt hmem)
  have hroom : u.rx.producer - u.rx.consumer < u.rx.size := by
    rw [hrx]
    decide
  refine ⟨kernelDeliver c ⟨UInt64.ofNat (c * frameSize), 0⟩ (kernelConsume u),
    hrun.kernel (.deliver hmem haddr hroom), ?_⟩
  rw [hk.unread_kernelDeliver hmem haddr hroom]
  exact List.append_ne_nil_of_right_ne_nil _ (List.cons_ne_nil _ _)

/-- One packet is waiting in the rx ring. -/
theorem packets_in_descriptor_order_unread :
    ∃ s given taken, XskLogged handleReceivePackets s none given taken ∧ s.unread ≠ []
      ∧ given = s.handed ++ s.unread ∧ s.filled = taken ++ s.offered := by
  obtain ⟨s, hrun, hunread⟩ := exists_unread
  obtain ⟨given, taken, h⟩ := hrun.logged
  exact ⟨s, given, taken, h, hunread, packets_in_descriptor_order.1 s none given taken h⟩

/-! ## No packet waits for more calls than there are packets before it -/

/-- A run goes on from an idle state, through `n` completed calls, to another one. -/
inductive XskCalls {α : Type} (call : ℕ → Prog XskState α) : ℕ → XskState → XskState → Prop where
  | refl (s : XskState) : XskCalls call 0 s s
  | kernel {n : ℕ} {s t u : XskState} (h : XskCalls call n s t) (hk : KernelStep t u) :
      XskCalls call n s u
  | call {n : ℕ} {s t u : XskState} (fuel : ℕ) {a : α} (h : XskCalls call n s t)
      (hcall : Ends KernelStep (call fuel) t a u) : XskCalls call (n + 1) s u

section Waiting

variable {α : Type} {call : ℕ → Prog XskState α} {n : ℕ} {s t : XskState}

/-- Whatever happens, what has been received stays received. -/
lemma KeepsPace.ends (hcall : KeepsPace call) {fuel : ℕ} {a : α} (h : Holds Idle s)
    (hend : Ends KernelStep (call fuel) s a t) :
    Holds Idle t ∧ s.received <+: t.received
      ∧ min s.received.length (s.handed.length + 1) ≤ t.handed.length := by
  have hkeep := (hcall fuel s h).keeps (I := fun t => s.received <+: t.received)
    (fun _ _ _ _ hpre hstep => by rw [hstep.received]; exact hpre)
    (fun _ _ hal _ hpre hstep => hpre.trans (received_kernel hal hstep)) (List.prefix_refl _)
  obtain ⟨⟨hidle, hhanded⟩, hpre⟩ := hkeep.safe.ends hend
  exact ⟨hidle, hpre, hhanded⟩

lemma XskCalls.pace (hcall : KeepsPace call) (hidle : Holds Idle s) (h : XskCalls call n s t) :
    Holds Idle t ∧ s.received <+: t.received
      ∧ min s.received.length (s.handed.length + n) ≤ t.handed.length := by
  induction h with
  | refl s => exact ⟨hidle, List.prefix_refl _, Nat.min_le_right _ _⟩
  | kernel _ hk ih =>
      obtain ⟨hi, hpre, hlen⟩ := ih hidle
      refine ⟨stable_idle hi hk, hpre.trans (received_kernel (always_of (fun _ _ h => h.1) _ hi) hk), ?_⟩
      rw [handed_kernel hk]
      exact hlen
  | call fuel _ hend ih =>
      obtain ⟨hi, hpre, hlen⟩ := ih hidle
      obtain ⟨hi', hpre', hlen'⟩ := hcall.ends hi hend
      have := hpre.length_le
      exact ⟨hi', hpre.trans hpre', by omega⟩

/-- The first unread packets are the ones that have been handed over. -/
lemma XskCalls.handed (hcall : KeepsPace call) (hidle : Holds Idle s) (h : XskCalls call n s t) :
    s.handed ++ s.unread.take n <+: t.handed := by
  obtain ⟨-, hpre, hlen⟩ := h.pace hcall hidle
  have hleft : s.handed ++ s.unread.take n <+: t.received :=
    (List.prefix_append_right_inj _ |>.mpr (List.take_prefix n s.unread)).trans hpre
  refine List.prefix_of_prefix_length_le hleft (List.prefix_append _ _) ?_
  rw [List.length_append, List.length_take]
  rw [XskState.received, List.length_append] at hlen
  omega

end Waiting

/-- **No packet waits for more calls than there are packets before it.**  From an idle state, `n`
further calls of either receive function hand over at least the first `n` unread packets, in their
order, whatever the kernel takes and delivers during and between the calls. -/
theorem unread_packets_are_handed_over :
    (∀ s t n, XskRun handleReceivePackets s none → XskCalls handleReceivePackets n s t →
      s.handed ++ s.unread.take n <+: t.handed)
    ∧ ∀ s t n, XskRun Escenarios.handleReceivePackets s none →
      XskCalls Escenarios.handleReceivePackets n s t → s.handed ++ s.unread.take n <+: t.handed :=
  ⟨fun _ _ _ hrun h => h.handed handleReceivePackets_pace (hrun.idle keepsIdle_handleReceivePackets),
    fun _ _ _ hrun h => h.handed escenarios_handleReceivePackets_pace (hrun.idle keepsIdle_escenarios)⟩

/-- A packet has been delivered, and one call hands it over. -/
theorem unread_packets_are_handed_over_one :
    ∃ s t, XskRun handleReceivePackets s none ∧ s.unread ≠ [] ∧ XskCalls handleReceivePackets 1 s t
      ∧ s.handed ++ s.unread.take 1 <+: t.handed := by
  obtain ⟨s, hrun, hunread⟩ := exists_unread
  have hcalls : XskCalls handleReceivePackets 1 s ((handleReceivePackets 0).run s).1 :=
    .call 0 (.refl s) (.run KernelStep (handleReceivePackets 0) s)
  exact ⟨s, _, hrun, hunread, hcalls, unread_packets_are_handed_over.1 s _ 1 hrun hcalls⟩

end Umem
