import XdpFlows.Umem.Receive

/-!
# Runs of the receive path

What the stages of a call give for whole runs: from `xsk_configure_socket`, through any number of
calls of either copy of `handle_receive_packets`, with the kernel stepping in between.

* `frames_partitioned`: every chunk is in exactly one place at every moment.
* `onlyFrames_iff_enoughFrames`: exactly when the fill ring is only ever given real frames.
* `reception_never_stalls`: an idle socket with nothing in flight still offers the kernel a frame.
-/

namespace Umem

open Sections RingWindow Relation

/-! ## The configured socket -/

/-- The counters of the fresh rings. -/
def freshCounters : Counters where
  fp := 0
  fc := 0
  fcp := 0
  fcc := 2048
  fe := 0
  rp := 0
  rc := 0
  rcp := 0
  rcc := 0
  ri := 0

lemma freshSocket_chunks : freshSocket.stack.filterMap chunkOf = List.range numFrames := by
  have hmap : ∀ l : List ℕ, (∀ i ∈ l, i < numFrames) →
      (l.map freshSocket.umemFrameAddr).filterMap chunkOf = l := by
    intro l hl
    induction l with
    | nil => rfl
    | cons i l ih =>
        have hi := hl i (List.mem_cons_self ..)
        have haddr : freshSocket.umemFrameAddr i = UInt64.ofNat (i * frameSize) := if_pos hi
        rw [List.map_cons, List.filterMap_cons_some (b := i), ih]
        · exact fun j hj => hl j (List.mem_cons_of_mem _ hj)
        · rw [haddr, chunkOf_mul hi]
  exact hmap _ fun i hi => List.mem_range.mp hi

lemma frames_freshSocket : Frames freshCounters freshSocket where
  fqMask := rfl
  fqSize := rfl
  rxMask := rfl
  rxSize := rfl
  producer := rfl
  consumer := rfl
  cachedProd := rfl
  cachedCons := rfl
  fillLeft := rfl
  idxFq := fun h => absurd h (Nat.lt_irrefl 0)
  rxProducer := rfl
  rxConsumer := rfl
  rxCachedProd := rfl
  rxCachedCons := rfl
  batchLeft := rfl
  idxRx := fun h => absurd h (Nat.lt_irrefl 0)
  fillOrder := ⟨le_rfl, le_rfl, le_rfl, Nat.zero_le _, le_rfl⟩
  rxOrder := ⟨le_rfl, le_rfl, le_rfl, le_rfl, Nat.zero_le _⟩
  stackValid := by
    intro a ha
    obtain ⟨i, hi, rfl⟩ := List.mem_map.mp ha
    have haddr : freshSocket.umemFrameAddr i = UInt64.ofNat (i * frameSize) :=
      if_pos (List.mem_range.mp hi)
    rw [haddr, chunkOf_mul (List.mem_range.mp hi)]
    rfl
  rxValid := by
    intro d hd
    rw [freshCounters, window_self] at hd
    exact absurd hd List.not_mem_nil
  parts := by
    rw [Counters.places, freshSocket_chunks]
    simp [freshCounters, window_self, freshSocket, descChunks]
  assertOk := rfl

/-- The reservation of `xsk_configure_socket` opens a fill loop over the whole ring. -/
lemma filling_freshSocket :
    (reserveFq ringSize freshSocket).2 = ringSize
      ∧ Holds (Filling 0 2048 2048) (reserveFq ringSize freshSocket).1 := by
  obtain ⟨hk, hgranted⟩ := frames_freshSocket.reserveFq rfl
  refine ⟨hgranted, _, hk, ⟨rfl, ⟨?_, ?_⟩, ?_, ?_⟩, rfl, rfl, rfl, rfl, rfl, ?_, Or.inl ⟨rfl, ?_⟩⟩
  · intro asked granted hmem
    exact absurd hmem List.not_mem_nil
  · exact List.not_mem_nil
  · intro _ a ha
    rw [freshCounters, window_self] at ha
    exact absurd ha List.not_mem_nil
  · intro _ addr hmem
    exact absurd hmem List.not_mem_nil
  · constructor
    · intro _
      refine ⟨fun addr hmem => absurd hmem List.not_mem_nil, ?_⟩
      show 2048 ≤ numFrames
      decide
    · intro _ free away hmem
      exact absurd hmem List.not_mem_nil
  · show 0 < numFrames
    decide

/-- What `xsk_configure_socket` returns. -/
def configuredSocket : XskState :=
  let s := ((fillLoop ringSize.toNat).run (reserveFq ringSize freshSocket).1).1
  { s with fq := xskRingProdSubmit s.fq ringSize }

lemma xskConfigureSocket_eq : xskConfigureSocket = some configuredSocket := by
  have hgranted := filling_freshSocket.1
  rw [xskConfigureSocket]
  simp only [hgranted, ne_eq, not_true_eq_false, if_false, configuredSocket]

lemma Draining.idle {s : XskState} (h : Holds (Draining 0 0) s) : Holds Idle s := by
  obtain ⟨k, hk, hal, hclosed, hri, hrcc, hlt⟩ := h
  exact ⟨k, hk, hal, hclosed, hri, hrcc.symm, hlt⟩

/-- `xsk_configure_socket` leaves an idle socket. -/
lemma idle_configuredSocket : Holds Idle configuredSocket := by
  obtain ⟨-, hfill⟩ := filling_freshSocket
  have hsub := Filling.submit (fillLoop_safe (Nat.zero_le 64) 2048 hfill).run (by decide)
  have h2048 : ringSize.toNat = 2048 := rfl
  have hsize : UInt32.ofNat 2048 = ringSize := rfl
  rw [hsize, ← h2048] at hsub
  exact Draining.idle hsub

/-- The fill loop run alone. -/
lemma fillLoop_run (n : ℕ) (s : XskState) :
    ((fillLoop n).run s).1.umemFrameFree = s.umemFrameFree - n
      ∧ ((fillLoop n).run s).1.rx = s.rx ∧ ((fillLoop n).run s).1.held = s.held
      ∧ ((fillLoop n).run s).1.outstandingTx = s.outstandingTx
      ∧ ∃ addrs : List UInt64, addrs.length = n
          ∧ ((fillLoop n).run s).1.trace = s.trace ++ addrs.map .filled := by
  induction n generalizing s with
  | zero => exact ⟨rfl, rfl, rfl, rfl, [], rfl, (List.append_nil _).symm⟩
  | succ n ih =>
      have hrun : (fillLoop (n + 1)).run s = (fillLoop n).run (fillOne s) := rfl
      have hone : (fillOne s).umemFrameFree = s.umemFrameFree - 1 ∧ (fillOne s).rx = s.rx
          ∧ (fillOne s).held = s.held ∧ (fillOne s).outstandingTx = s.outstandingTx := by
        show (xskAllocUmemFrame s).1.umemFrameFree = _ ∧ (xskAllocUmemFrame s).1.rx = _
          ∧ (xskAllocUmemFrame s).1.held = _ ∧ (xskAllocUmemFrame s).1.outstandingTx = _
        unfold xskAllocUmemFrame
        split <;> simp_all
      obtain ⟨hfree, hrx, hheld, htx, addrs, hlen, htrace⟩ := ih (fillOne s)
      rw [hrun, hfree, hrx, hheld, htx, hone.1, hone.2.1, hone.2.2.1, hone.2.2.2]
      refine ⟨by omega, rfl, rfl, rfl, (xskAllocUmemFrame s).2 :: addrs, ?_, ?_⟩
      · rw [List.length_cons, hlen]
      · rw [htrace, fillOne_trace, List.append_assoc]
        rfl

lemma configuredSocket_fields :
    configuredSocket.umemFrameFree = 2048 ∧ configuredSocket.rx = freshRing 0 ⟨0, 0⟩
      ∧ configuredSocket.held = [] ∧ ∃ addrs : List UInt64, configuredSocket.trace = addrs.map .filled := by
  obtain ⟨hfree, hrx, hheld, -, addrs, -, htrace⟩ :=
    fillLoop_run ringSize.toNat (reserveFq ringSize freshSocket).1
  have hstart : (reserveFq ringSize freshSocket).1.umemFrameFree - ringSize.toNat = 2048 := rfl
  rw [hstart] at hfree
  -- named, so that the loop is not unfolded
  obtain ⟨u, hu⟩ : ∃ u, u = ((fillLoop ringSize.toNat).run (reserveFq ringSize freshSocket).1).1 :=
    ⟨_, rfl⟩
  rw [configuredSocket, ← hu]
  rw [← hu] at hfree hrx hheld htrace
  exact ⟨hfree, hrx, hheld, addrs, htrace⟩

/-! ## The run invariant -/

/-- What a receive function has to guarantee for one call. -/
def KeepsIdle {α : Type} (call : ℕ → Prog XskState α) : Prop :=
  ∀ fuel s, Holds Idle s → Safe KernelStep (Holds Always) (fun _ => Holds Idle) (call fuel) s

lemma keepsIdle_handleReceivePackets : KeepsIdle handleReceivePackets :=
  fun fuel _ h => handleReceivePackets_safe fuel h

lemma keepsIdle_escenarios : KeepsIdle Escenarios.handleReceivePackets :=
  fun fuel _ h => escenarios_handleReceivePackets_safe fuel h

/-- The state of a run: idle between calls, in the middle of a safe call otherwise. -/
def RunOk {α : Type} (s : XskState) : Option (Prog XskState α) → Prop
  | none => Holds Idle s
  | some p => Safe KernelStep (Holds Always) (fun _ => Holds Idle) p s

lemma XskRun.ok {α : Type} {call : ℕ → Prog XskState α} (hcall : KeepsIdle call) {s : XskState}
    {p : Option (Prog XskState α)} (h : XskRun call s p) : RunOk s p := by
  induction h with
  | start h =>
      rw [xskConfigureSocket_eq, Option.some.injEq] at h
      exact h ▸ idle_configuredSocket
  | call fuel _ ih => exact hcall fuel _ ih
  | user _ ih => exact Safe.sec_step ih
  | @back s a _ ih =>
      have hret : Safe KernelStep (Holds Always) (fun _ => Holds Idle) (.ret a) s := ih
      exact hret.result
  | @kernel s s' p _ hk ih =>
      cases p with
      | none => exact stable_idle ih hk
      | some p => exact Safe.env_step ih hk

lemma XskRun.always {α : Type} {call : ℕ → Prog XskState α} (hcall : KeepsIdle call) {s : XskState}
    {p : Option (Prog XskState α)} (h : XskRun call s p) : Holds Always s := by
  have hok := h.ok hcall
  cases p with
  | none => exact always_of (fun _ _ h => h.1) s hok
  | some p => exact Safe.now hok

lemma XskRun.idle {α : Type} {call : ℕ → Prog XskState α} (hcall : KeepsIdle call) {s : XskState}
    (h : XskRun call s none) : Holds Idle s :=
  h.ok hcall

/-! ## Calls run alone -/

section Alone

variable {α : Type} {call : ℕ → Prog XskState α} {s : XskState}

/-- A call that is not interrupted. -/
lemma XskRun.alone {p : Prog XskState α} (h : XskRun call s (some p)) : XskRun call (p.run s).1 none := by
  induction p generalizing s with
  | ret a => exact h.back
  | sec u k ih => exact ih s h.user

/-- The processing loop run alone, with room on the stack for the whole batch. -/
lemma processLoop_run {body : XdpDesc → XskState → XskState} (hbody : FreesFrame body) (n : ℕ)
    (s : XskState) (hroom : s.umemFrameFree + n ≤ numFrames) :
    ((processLoop body n).run s).1.umemFrameFree = s.umemFrameFree + n
      ∧ ((processLoop body n).run s).1.rx = s.rx ∧ ((processLoop body n).run s).1.held = s.held
      ∧ ((processLoop body n).run s).1.outstandingTx = s.outstandingTx
      ∧ ∃ descs : List XdpDesc, descs.length = n
          ∧ ((processLoop body n).run s).1.trace = s.trace ++ descs.map .delivered := by
  induction n generalizing s with
  | zero => exact ⟨rfl, rfl, rfl, rfl, [], rfl, (List.append_nil _).symm⟩
  | succ n ih =>
      set t := body (nextDesc s).2 (nextDesc s).1 with ht
      have hrun : (processLoop body (n + 1)).run s = (processLoop body n).run t := rfl
      have hone : t.umemFrameFree = s.umemFrameFree + 1 ∧ t.rx = s.rx ∧ t.held = s.held
          ∧ t.outstandingTx = s.outstandingTx ∧ t.trace = s.trace ++ [.delivered (nextDesc s).2] := by
        have hlt : s.umemFrameFree < numFrames := by omega
        obtain ⟨bytes, hbytes⟩ := hbody (nextDesc s).2 (nextDesc s).1
        rw [ht, hbytes, xskFreeUmemFrame]
        simp only [nextDesc, hlt, if_true, and_self]
      obtain ⟨hfree, hrx, hheld, htx, descs, hlen, htrace⟩ := ih t (by omega)
      rw [hrun, hfree, hrx, hheld, htx, hone.1, hone.2.1, hone.2.2.1, hone.2.2.2.1]
      refine ⟨by omega, rfl, rfl, rfl, (nextDesc s).2 :: descs, ?_, ?_⟩
      · rw [List.length_cons, hlen]
      · rw [htrace, hone.2.2.2.2, List.append_assoc]
        rfl

/-- `xsk_ring_prod__reserve` after `xsk_prod_nb_free`, whatever the counters are and whatever the
kernel does in between. -/
lemma reserveFq_stockFrames (s t : XskState)
    (hkernel : ReflTransGen KernelStep (stockFrames s).1 t) :
    (reserveFq (stockFrames s).2 t).2 = (stockFrames s).2 := by
  have hcached : t.fq.cachedCons - t.fq.cachedProd = (stockFrames s).2 := by
    induction hkernel with
    | refl => exact (xskProdNbFree_cached s.fq (xskUmemFreeFrames s)).symm
    | tail _ hstep ih =>
        cases hstep with
        | consume _ => exact ih
        | deliver _ _ _ => exact ih
  rw [reserveFq, ← hcached, xskRingProdReserve_cached]

/-- What follows the loop releases the batch, as long as nothing has been sent. -/
def Releases (last : UInt32 → Prog XskState α) : Prop :=
  ∀ rcvd s, s.outstandingTx = 0 → ∃ packets,
    ((last rcvd).run s).1 = { s with
      rx := xskRingConsRelease s.rx rcvd
      statsRxPackets := packets }

/-- What both copies of the function have in common. -/
def IsReceiveCall (call : ℕ → Prog XskState α) : Prop :=
  ∃ body none last, FreesFrame body ∧ Releases last ∧ call = receiveCall body none last

lemma isReceiveCall_handleReceivePackets : IsReceiveCall handleReceivePackets :=
  ⟨processAndFree, 0, _, freesFrame_processAndFree, fun _ s _ => ⟨s.statsRxPackets, rfl⟩, rfl⟩

/-- `complete_tx` returns at once. -/
lemma isReceiveCall_escenarios : IsReceiveCall Escenarios.handleReceivePackets := by
  refine ⟨Escenarios.processOrFree, (), _, freesFrame_processOrFree, ?_, rfl⟩
  intro rcvd s htx
  refine ⟨s.statsRxPackets + rcvd.toUInt64, ?_⟩
  simp only [Prog.act, Prog.sec_bind, Prog.ret_bind, Prog.run, Escenarios.completeTx, Prog.atomic, htx,
    if_true]

/-- What a call run alone does that receives `rcvd` packets and has `stock` entries to refill. -/
structure ServedAlone (rcvd stock : UInt32) (s t : XskState) : Prop where
  free : t.umemFrameFree = s.umemFrameFree - stock.toNat + rcvd.toNat
  rxProducer : t.rx.producer = s.rx.producer
  rxConsumer : t.rx.consumer = s.rx.consumer + rcvd
  held : t.held = s.held
  trace : ∃ (addrs : List UInt64) (descs : List XdpDesc),
    addrs.length = stock.toNat ∧ descs.length = rcvd.toNat ∧ t.trace = s.trace
      ++ .stock s.umemFrameFree (s.held.length + (s.rx.producer - s.rx.consumer).toNat)
        :: .reserved stock stock :: (addrs.map .filled ++ descs.map .delivered)

/-- Peeking, asking for free entries and reserving them touch the rings and the trace only. -/
lemma peekRx_frame (s : XskState) :
    (peekRx s).1.umemFrameFree = s.umemFrameFree ∧ (peekRx s).1.held = s.held
      ∧ (peekRx s).1.outstandingTx = s.outstandingTx ∧ (peekRx s).1.trace = s.trace
      ∧ (peekRx s).1.rx.producer = s.rx.producer ∧ (peekRx s).1.rx.consumer = s.rx.consumer := by
  obtain ⟨hprod, hcons⟩ := xskRingConsPeek_shared s.rx rxBatchSize s.idxRx
  unfold peekRx
  -- named, so that the peek is not unfolded
  obtain ⟨r, hr⟩ : ∃ r, r = xskRingConsPeek s.rx rxBatchSize s.idxRx := ⟨_, rfl⟩
  rw [← hr] at hprod hcons ⊢
  exact ⟨rfl, rfl, rfl, rfl, hprod, hcons⟩

lemma stockFrames_frame (s : XskState) :
    (stockFrames s).1.umemFrameFree = s.umemFrameFree ∧ (stockFrames s).1.rx = s.rx
      ∧ (stockFrames s).1.held = s.held ∧ (stockFrames s).1.outstandingTx = s.outstandingTx
      ∧ (stockFrames s).1.trace = s.trace
        ++ [.stock s.umemFrameFree (s.held.length + (s.rx.producer - s.rx.consumer).toNat)] :=
  ⟨rfl, rfl, rfl, rfl, rfl⟩

lemma reserveFq_frame (nb : UInt32) (s : XskState) :
    (reserveFq nb s).1.umemFrameFree = s.umemFrameFree ∧ (reserveFq nb s).1.rx = s.rx
      ∧ (reserveFq nb s).1.held = s.held ∧ (reserveFq nb s).1.outstandingTx = s.outstandingTx
      ∧ (reserveFq nb s).1.trace = s.trace :=
  ⟨rfl, rfl, rfl, rfl, rfl⟩

/-- The refill run alone: what is announced is reserved at once, written and submitted. -/
lemma stuffFillRing_run (rcvd : UInt32) {s t : XskState} {stock : UInt32}
    (hstock : stockFrames s = (t, stock)) (hpos : 0 < stock) :
    ((stuffFillRing 0 rcvd).run s).1.umemFrameFree = s.umemFrameFree - stock.toNat
      ∧ ((stuffFillRing 0 rcvd).run s).1.rx = s.rx ∧ ((stuffFillRing 0 rcvd).run s).1.held = s.held
      ∧ ((stuffFillRing 0 rcvd).run s).1.outstandingTx = s.outstandingTx
      ∧ ∃ addrs : List UInt64, addrs.length = stock.toNat
          ∧ ((stuffFillRing 0 rcvd).run s).1.trace = s.trace
            ++ .stock s.umemFrameFree (s.held.length + (s.rx.producer - s.rx.consumer).toNat)
              :: .reserved stock stock :: addrs.map .filled := by
  have ht : t = (stockFrames s).1 := by rw [hstock]
  have hgrant : (reserveFq stock t).2 = stock := by
    have hres := reserveFq_stockFrames s t (by rw [ht])
    rwa [hstock] at hres
  have hretry : retryReserve rcvd stock 0 stock = .ret () := by simp [retryReserve]
  set u : XskState := { (reserveFq stock t).1 with
    trace := (reserveFq stock t).1.trace ++ [.reserved stock stock] } with hu
  have hrun : ((stuffFillRing 0 rcvd).run s).1 = { ((fillLoop stock.toNat).run u).1 with
      fq := xskRingProdSubmit ((fillLoop stock.toNat).run u).1.fq stock } := by
    simp only [stuffFillRing, Prog.atomic, Prog.sec_bind, Prog.ret_bind, Prog.run, hstock, hgrant,
      if_pos hpos, hretry, Prog.run_bind, Prog.act]
    rfl
  -- named, so that the loop is not unfolded
  obtain ⟨v, hv⟩ : ∃ v, v = ((fillLoop stock.toNat).run u).1 := ⟨_, rfl⟩
  obtain ⟨hfree, hrx, hheld, htx, addrs, haddrs, htrace⟩ := fillLoop_run stock.toNat u
  obtain ⟨hsfree, hsrx, hsheld, hstx, hstrace⟩ := stockFrames_frame s
  obtain ⟨hrfree, hrrx, hrheld, hrtx, hrtrace⟩ := reserveFq_frame stock t
  rw [← ht] at hsfree hsrx hsheld hstx hstrace
  rw [← hv] at hrun hfree hrx hheld htx htrace
  rw [hrun]
  refine ⟨?_, hrx.trans (hrrx.trans hsrx), hheld.trans (hrheld.trans hsheld),
    htx.trans (hrtx.trans hstx), addrs, haddrs, ?_⟩
  · rw [← hsfree, ← hrfree]
    exact hfree
  · show v.trace = _
    have hutrace : u.trace = (reserveFq stock t).1.trace ++ [.reserved stock stock] := rfl
    rw [htrace, hutrace, hrtrace, hstrace]
    simp only [List.append_assoc, List.cons_append, List.nil_append]

lemma IsReceiveCall.served (hcall : IsReceiveCall call) {s₁ s₂ : XskState} {rcvd stock : UInt32}
    (htx : s.outstandingTx = 0) (hpeek : peekRx s = (s₁, rcvd)) (hrcvd : rcvd ≠ 0)
    (hstock : stockFrames s₁ = (s₂, stock)) (hpos : 0 < stock)
    (hroom : s.umemFrameFree - stock.toNat + rcvd.toNat ≤ numFrames) :
    ServedAlone rcvd stock s ((call 0).run s).1 := by
  obtain ⟨body, none, last, hbody, hlast, rfl⟩ := hcall
  -- the states after the refill and after the batch
  obtain ⟨t, ht⟩ : ∃ t, t = ((stuffFillRing 0 rcvd).run s₁).1 := ⟨_, rfl⟩
  obtain ⟨u, hu⟩ : ∃ u, u = ((processLoop body rcvd.toNat).run t).1 := ⟨_, rfl⟩
  have hrun : ((receiveCall body none last 0).run s).1 = ((last rcvd).run u).1 := by
    simp only [receiveCall, Prog.atomic, Prog.sec_bind, Prog.ret_bind, Prog.run, hpeek,
      if_neg hrcvd, Prog.run_bind]
    rw [hu, ht]
  obtain ⟨hpfree, hpheld, hptx, hptrace, hprod, hcons⟩ := peekRx_frame s
  rw [hpeek] at hpfree hpheld hptx hptrace hprod hcons
  obtain ⟨htfree, htrx, htheld, httx, addrs, haddrs, httrace⟩ := stuffFillRing_run rcvd hstock hpos
  rw [← ht, hpfree] at htfree
  rw [← ht] at htrx
  rw [← ht, hpheld] at htheld
  rw [← ht, hptx, htx] at httx
  rw [← ht, hptrace, hpfree, hpheld, hprod, hcons] at httrace
  obtain ⟨hufree, hurx, huheld, hutx, descs, hdescs, hutrace⟩ :=
    processLoop_run hbody rcvd.toNat t (by rw [htfree]; exact hroom)
  rw [← hu] at hufree hurx huheld hutx hutrace
  obtain ⟨packets, hend⟩ := hlast rcvd u (hutx.trans httx)
  rw [hrun, hend]
  refine ⟨by rw [← htfree]; exact hufree, ?_, ?_, huheld.trans htheld, addrs, descs, haddrs, hdescs, ?_⟩
  · show u.rx.producer = _
    rw [hurx, htrx, hprod]
  · show u.rx.consumer + rcvd = _
    rw [hurx, htrx, hcons]
  · show u.trace = _
    rw [hutrace, httrace]
    simp only [List.append_assoc, List.cons_append]

/-- The kernel takes everything the fill ring offers. -/
lemma XskRun.consumeAll {k : Counters} (h : XskRun call s none) (hk : Frames k s) :
    ∃ s' k', XskRun call s' none ∧ Frames k' s' ∧ s'.fq.consumer = s'.fq.producer
      ∧ s'.umemFrameFree = s.umemFrameFree ∧ s'.rx = s.rx := by
  obtain ⟨n, hn⟩ : ∃ n, n = k.fp - k.fc := ⟨_, rfl⟩
  induction n generalizing s k with
  | zero =>
      refine ⟨s, k, h, hk, ?_, rfl, rfl⟩
      rw [hk.consumer, hk.producer, Nat.le_antisymm hk.fillOrder.1 (by omega)]
  | succ n ih =>
      obtain ⟨hf1, hf2, hf3, hf4, hf5⟩ := hk.fillOrder
      have hne : s.fq.consumer ≠ s.fq.producer := by
        intro heq
        have hfp := hk.fp_eq heq
        omega
      obtain ⟨-, hk'⟩ := hk.kernelConsume hne
      obtain ⟨s', k', hrun, hframes, hend, hfree, hrx⟩ :=
        ih (h.kernel (.consume hne)) hk' (by simp only; omega)
      exact ⟨s', k', hrun, hframes, hend, hfree, hrx⟩

/-- Peeking the only packet of the rx ring, and asking for free entries of the fill ring. -/
lemma peekRx_one {k : Counters} (hk : Frames k s) (hleft : k.ri = k.rcc) (hone : k.rp = k.rcc + 1)
    (hcached : k.fcc = k.fcp) (hfree : 0 < s.umemFrameFree) {stock : ℕ}
    (hstock : k.fc + 2048 = k.fcp + stock) :
    (peekRx s).2 = 1 ∧ (stockFrames (peekRx s).1).2 = UInt32.ofNat stock := by
  obtain ⟨k', hk', -, hrcc, -, hpos, -, hrp, -, hfc, hfcp, hfcc, -⟩ := hk.peekRx hleft
  obtain ⟨-, -, hr3, hr4, -⟩ := hk'.rxOrder
  have hsome := hpos (by omega)
  have hnat : (peekRx s).2.toNat = 1 := by omega
  have hfree' : (peekRx s).1.umemFrameFree ≠ 0 := hfree.ne'
  have hst := (hk'.stockFrames (by omega)).2
  rw [if_neg hfree', show k'.fc + 2048 - k'.fcp = stock by omega] at hst
  exact ⟨UInt32.toNat.inj hnat, hst⟩

/-- From an idle state with an empty rx ring the kernel returns one of the frames it holds; the call
that receives it fills the free entries of the fill ring. -/
lemma XskRun.returnOne (h : XskRun call s none) (hcall : IsReceiveCall call) {k : Counters}
    (hk : Frames k s) (hidle : Idle k s) (hrx : s.rx.producer = s.rx.consumer)
    (hfree : 0 < s.umemFrameFree) {c : ℕ} (hc : c ∈ s.held) {stock : ℕ}
    (hstock : k.fc + 2048 = k.fcp + stock) (hpos : 0 < stock) :
    ∃ t, XskRun call t none ∧ t.rx.producer = t.rx.consumer ∧ t.held = s.held.erase c
      ∧ t.umemFrameFree = s.umemFrameFree - stock + 1
      ∧ ∃ (addrs : List UInt64) (descs : List XdpDesc),
        addrs.length = stock ∧ descs.length = 1 ∧ t.trace = s.trace ++ .stock s.umemFrameFree s.held.length
          :: .reserved (UInt32.ofNat stock) (UInt32.ofNat stock)
          :: (addrs.map .filled ++ descs.map .delivered) := by
  obtain ⟨hal, ⟨hfe, hfp, hfcc, -, -⟩, hri, hrc, hlt⟩ := hidle
  have hrp := hk.rp_eq hrx
  set desc : XdpDesc := ⟨UInt64.ofNat (c * frameSize), 0⟩ with hdesc
  have haddr : chunkOf desc.addr = some c := chunkOf_mul (hk.held_lt hc)
  have hroom : s.rx.producer - s.rx.consumer < s.rx.size := by
    rw [hrx, UInt32.sub_self, hk.rxSize]
    decide
  have h₂ := h.kernel (.deliver hc haddr hroom)
  have hk₂ := hk.kernelDeliver hc haddr hroom
  obtain ⟨s₂, hs₂⟩ : ∃ s₂, s₂ = kernelDeliver c desc s := ⟨_, rfl⟩
  have hlen : s₂.held.length + 1 = s.held.length := by
    rw [hs₂]
    exact List.length_erase_add_one hc
  have hsame : s₂.rx.producer = s.rx.producer + 1 ∧ s₂.rx.consumer = s.rx.consumer
      ∧ s₂.umemFrameFree = s.umemFrameFree ∧ s₂.held = s.held.erase c ∧ s₂.trace = s.trace
      ∧ s₂.outstandingTx = s.outstandingTx := by
    rw [hs₂]
    exact ⟨rfl, rfl, rfl, rfl, rfl, rfl⟩
  obtain ⟨hprod, hcons, hfree₂, hheld₂, htrace₂, htx₂⟩ := hsame
  rw [← hs₂] at h₂ hk₂
  -- the call receives it
  obtain ⟨hrcvd, hstock₃⟩ := peekRx_one hk₂ hri (show k.rp + 1 = k.rcc + 1 by omega) hfcc
    (hfree₂ ▸ hfree) hstock
  have hnat : (UInt32.ofNat stock).toNat = stock := by
    obtain ⟨hf1, hf2, hf3, hf4, hf5⟩ := hk.fillOrder
    rw [UInt32.toNat_ofNat', Nat.mod_eq_of_lt (by omega)]
  have hone' : (1 : UInt32).toNat = 1 := rfl
  have hcount := hk.count
  have hpeek : peekRx s₂ = ((peekRx s₂).1, 1) := by rw [← hrcvd]
  have hst : stockFrames (peekRx s₂).1 = ((stockFrames (peekRx s₂).1).1, UInt32.ofNat stock) := by
    rw [← hstock₃]
  have hserved := hcall.served (htx₂.trans hal.noTx) hpeek (by decide) hst
    (by rw [UInt32.lt_iff_toNat_lt, hnat]; exact hpos) (by rw [hnat, hone', hfree₂]; omega)
  obtain ⟨addrs, descs, haddrs, hdescs, htrace⟩ := hserved.trace
  refine ⟨_, (h₂.call 0).alone, ?_, hserved.held.trans hheld₂, ?_, addrs, descs, ?_, ?_, ?_⟩
  · rw [hserved.rxProducer, hserved.rxConsumer, hprod, hcons, hrx]
  · rw [hserved.free, hnat, hone', hfree₂]
  · rw [haddrs, hnat]
  · rw [hdescs, hone']
  · have haway : s₂.held.length + (s₂.rx.producer - s₂.rx.consumer).toNat = s.held.length := by
      rw [hprod, hcons, hrx, UInt32.add_comm, UInt32.add_sub_cancel]
      omega
    rw [htrace, haway, hfree₂, htrace₂]

end Alone

/-- An idle socket has a frame off the stack; if it is neither in the rx ring nor with the kernel,
it is in an entry of the fill ring that the kernel can see. -/
lemma Idle.submittedChunks_ne_nil {s : XskState} (h : Holds Idle s)
    (hrx : s.rx.producer = s.rx.consumer) (hheld : s.held = []) : s.submittedChunks ≠ [] := by
  obtain ⟨k, hk, -, ⟨hfe, hfp, hfcc, -, -⟩, hri, hrc, hlt⟩ := h
  have hempty := hk.rp_eq hrx
  have hcount := hk.count
  rw [hheld, List.length_nil] at hcount
  intro hnil
  rw [hk.submitted_eq, show k.fp = k.fe by omega] at hnil
  rw [hnil, List.length_nil] at hcount
  omega

/-- If only frames have been written into the fill ring, the entry the kernel can see first names a
chunk. -/
lemma Idle.offers {s : XskState} (h : Holds Idle s) (hsub : s.submittedChunks ≠ [])
    (honly : OnlyFrames s) :
    s.fq.consumer ≠ s.fq.producer ∧ ∃ chunk, chunkOf (s.fq.entry s.fq.consumer) = some chunk := by
  obtain ⟨k, hk, hal, ⟨hfe, hfp, -⟩, -⟩ := h
  obtain ⟨hf1, hf2, hf3, hf4, hf5⟩ := hk.fillOrder
  have hlt : k.fc < k.fp := by
    refine lt_of_le_of_ne hf1 fun heq => hsub ?_
    rw [hk.submitted_eq, heq, window_self, List.filterMap_nil]
  refine ⟨fun heq => ?_, Option.isSome_iff_exists.mp (hal.fillValid honly _ ?_)⟩
  · have hfp := hk.fp_eq heq
    omega
  · rw [window_cons _ _ (by omega), XskRing.entry, hk.consumer, hk.fqMask, slot]
    exact List.mem_cons_self ..

lemma enoughFrames_configuredSocket : EnoughFrames configuredSocket := by
  obtain ⟨-, -, -, addrs, htrace⟩ := configuredSocket_fields
  intro free away hmem
  rw [htrace, List.mem_map] at hmem
  obtain ⟨a, -, ha⟩ := hmem
  exact absurd ha (by simp)

lemma onlyFrames_configuredSocket : OnlyFrames configuredSocket := by
  obtain ⟨k, -, hal, -⟩ := idle_configuredSocket
  exact hal.sound enoughFrames_configuredSocket

/-- With nothing away and half of the frames on the stack, the kernel takes the first entry and returns
its frame with a packet; the call that receives it writes another frame into that entry. -/
lemma XskRun.refillOne {α : Type} {call : ℕ → Prog XskState α} {u : XskState}
    (h : XskRun call u none) (hcall : IsReceiveCall call) (hkeep : KeepsIdle call)
    (hfree : u.umemFrameFree = 2048)
    (hrx : u.rx.producer = u.rx.consumer) (hheld : u.held = []) (honly : OnlyFrames u) :
    ∃ s addr desc, XskRun call s none ∧ s.rx.producer = s.rx.consumer ∧ s.held = []
      ∧ s.trace = u.trace ++ [.stock 2048 1, .reserved 1 1, .filled addr, .delivered desc] := by
  have hsub := Idle.submittedChunks_ne_nil (h.idle hkeep) hrx hheld
  obtain ⟨hentry, c, hc⟩ := Idle.offers (h.idle hkeep) hsub honly
  have hrun := h.kernel (.consume hentry)
  obtain ⟨k, hk, hidle⟩ := hrun.idle hkeep
  have hheld' : (kernelConsume u).held = [c] := by
    show (chunkOf (u.fq.entry u.fq.consumer)).toList ++ u.held = [c]
    rw [hc, hheld]
    rfl
  have hstock : k.fc + 2048 = k.fcp + 1 := by
    obtain ⟨hal, ⟨hfe, -⟩, hri, hrc, -⟩ := hidle
    obtain ⟨hf1, hf2, hf3, hf4, hf5⟩ := hk.fillOrder
    have hempty := hk.rp_eq hrx
    have hcount := hk.count
    have hfree' : (kernelConsume u).umemFrameFree = 2048 := hfree
    rw [length_filterMap_chunkOf (hal.fillValid honly), length_window, hfree', hheld',
      List.length_singleton] at hcount
    simp only [numFrames] at hcount
    omega
  obtain ⟨t, ht, hrxt, hheldt, -, addrs, descs, haddrs, hdescs, htrace⟩ :=
    hrun.returnOne hcall hk hidle hrx (lt_of_lt_of_eq (by decide : 0 < 2048) hfree.symm) (c := c)
      (by rw [hheld']; exact List.mem_singleton_self c) hstock Nat.one_pos
  obtain ⟨addr, rfl⟩ := List.length_eq_one_iff.mp haddrs
  obtain ⟨desc, rfl⟩ := List.length_eq_one_iff.mp hdescs
  refine ⟨t, addr, desc, ht, hrxt, ?_, ?_⟩
  · rw [hheldt, hheld', List.erase_cons_head]
  · have hfree' : (kernelConsume u).umemFrameFree = 2048 := hfree
    rw [htrace, hheld', hfree']
    rfl

lemma exists_refilled {α : Type} {call : ℕ → Prog XskState α} (hcall : IsReceiveCall call)
    (hkeep : KeepsIdle call) :
    ∃ s addr desc, XskRun call s none ∧ s.rx.producer = s.rx.consumer ∧ s.held = []
      ∧ s.trace = configuredSocket.trace
        ++ [.stock 2048 1, .reserved 1 1, .filled addr, .delivered desc] := by
  obtain ⟨hfree, hrx, hheld, -⟩ := configuredSocket_fields
  have hrun : XskRun call configuredSocket none := .start xskConfigureSocket_eq
  exact hrun.refillOne hcall hkeep hfree (by rw [hrx]; rfl) hheld onlyFrames_configuredSocket

/-! ## No frame is lost -/

lemma Holds.partitioned {C : Counters → XskState → Prop} {s : XskState} (h : Holds C s) :
    s.places.Perm (List.range numFrames) ∧ s.assertFailed = false := by
  obtain ⟨k, hk, -⟩ := h
  exact ⟨hk.places_eq ▸ hk.parts, hk.assertOk⟩

/-- **No frame is lost and none is duplicated.**  At every moment of every run of either receive
function the stack of free frames, the fill ring, the kernel, the rest of the rx ring and the rest
of the batch together hold each of the `NUM_FRAMES` chunks exactly once, the assertion of
`xsk_free_umem_frame` has not failed, and `af_xdp_user.c` has nothing outstanding. -/
theorem frames_partitioned :
    (∀ s p, XskRun handleReceivePackets s p →
      s.places.Perm (List.range numFrames) ∧ s.assertFailed = false)
    ∧ ∀ s p, XskRun Escenarios.handleReceivePackets s p →
      s.places.Perm (List.range numFrames) ∧ s.assertFailed = false ∧ s.outstandingTx = 0 := by
  constructor
  · intro s p h
    exact (h.always keepsIdle_handleReceivePackets).partitioned
  · intro s p h
    have hal := h.always keepsIdle_escenarios
    obtain ⟨hparts, hok⟩ := hal.partitioned
    obtain ⟨k, -, htx⟩ := hal
    exact ⟨hparts, hok, htx.noTx⟩

/-- A packet has been delivered and its entry refilled, in either copy. -/
theorem frames_partitioned_refilled :
    (∃ s addr desc, XskRun handleReceivePackets s none
      ∧ XskEvent.filled addr ∈ s.trace ∧ XskEvent.delivered desc ∈ s.trace
      ∧ s.places.Perm (List.range numFrames) ∧ s.assertFailed = false)
    ∧ ∃ s addr desc, XskRun Escenarios.handleReceivePackets s none
      ∧ XskEvent.filled addr ∈ s.trace ∧ XskEvent.delivered desc ∈ s.trace
      ∧ s.places.Perm (List.range numFrames) ∧ s.assertFailed = false ∧ s.outstandingTx = 0 := by
  constructor
  · obtain ⟨s, addr, desc, hrun, -, -, htrace⟩ :=
      exists_refilled isReceiveCall_handleReceivePackets keepsIdle_handleReceivePackets
    exact ⟨s, addr, desc, hrun, by simp [htrace], by simp [htrace], frames_partitioned.1 _ _ hrun⟩
  · obtain ⟨s, addr, desc, hrun, -, -, htrace⟩ :=
      exists_refilled isReceiveCall_escenarios keepsIdle_escenarios
    exact ⟨s, addr, desc, hrun, by simp [htrace], by simp [htrace], frames_partitioned.2 _ _ hrun⟩

/-! ## Reception goes on -/

/-- **Reception cannot stall.**  Between calls, with the rx ring empty and nothing held by the
kernel, an entry of the fill ring that has been submitted to the kernel names a chunk.  For all values
of the ring counters the reservation that follows `xsk_prod_nb_free` grants what was announced, so no
run enters the retry loop. -/
theorem reception_never_stalls :
    (∀ s, XskRun handleReceivePackets s none → s.rx.producer = s.rx.consumer → s.held = [] →
      s.submittedChunks ≠ [])
    ∧ (∀ s t, ReflTransGen KernelStep (stockFrames s).1 t →
      (reserveFq (stockFrames s).2 t).2 = (stockFrames s).2)
    ∧ ∀ s p, XskRun handleReceivePackets s p → Granted s := by
  refine ⟨?_, reserveFq_stockFrames, ?_⟩
  · intro s h hrx hheld
    exact Idle.submittedChunks_ne_nil (h.idle keepsIdle_handleReceivePackets) hrx hheld
  · intro s p h
    obtain ⟨k, -, hal⟩ := h.always keepsIdle_handleReceivePackets
    exact hal.granted

/-- After a call that has handed its only packet over and refilled one entry. -/
theorem reception_never_stalls_refilled :
    ∃ s addr desc, XskRun handleReceivePackets s none
      ∧ XskEvent.filled addr ∈ s.trace ∧ XskEvent.delivered desc ∈ s.trace
      ∧ s.rx.producer = s.rx.consumer ∧ s.held = [] ∧ s.submittedChunks ≠ []
      ∧ (reserveFq (stockFrames s).2 (stockFrames s).1).2 = (stockFrames s).2
      ∧ Granted s := by
  obtain ⟨s, addr, desc, hrun, hrx, hheld, htrace⟩ :=
    exists_refilled isReceiveCall_handleReceivePackets keepsIdle_handleReceivePackets
  obtain ⟨hsub, hreserve, hgranted⟩ := reception_never_stalls
  exact ⟨s, addr, desc, hrun, by simp [htrace], by simp [htrace], hrx, hheld, hsub s hrun hrx hheld,
    hreserve s _ .refl, hgranted s _ hrun⟩

/-! ## When the refill runs out of frames -/

lemma XskRun.sound {α : Type} {call : ℕ → Prog XskState α} (hcall : KeepsIdle call) {s : XskState}
    {p : Option (Prog XskState α)} (h : XskRun call s p) :
    (EnoughFrames s → OnlyFrames s) ∧ (p = none → OnlyFrames s → EnoughFrames s) := by
  constructor
  · obtain ⟨k, -, hal⟩ := h.always hcall
    exact hal.sound
  · rintro rfl ho
    obtain ⟨k, -, -, ⟨-, -, -, -, hiff⟩, -⟩ := h.idle hcall
    exact hiff.mpr ho

/-- **Only real frames are written into the fill ring, exactly when enough of them are at home.**  In
every run of either receive function in which each refill finds no free frame at all, or at most
`NUM_FRAMES - 2048` frames with the kernel and in the rx ring, every entry written so far names a
chunk; and a run whose completed calls wrote only such entries has met this condition. -/
theorem onlyFrames_iff_enoughFrames (s : XskState) :
    (∀ p, XskRun handleReceivePackets s p →
      (EnoughFrames s → OnlyFrames s) ∧ (p = none → OnlyFrames s → EnoughFrames s))
    ∧ ∀ p, XskRun Escenarios.handleReceivePackets s p →
      (EnoughFrames s → OnlyFrames s) ∧ (p = none → OnlyFrames s → EnoughFrames s) :=
  ⟨fun _ h => h.sound keepsIdle_handleReceivePackets,
    fun _ h => h.sound keepsIdle_escenarios⟩

/-- One refill, with one frame away and 2048 at home. -/
theorem onlyFrames_iff_enoughFrames_refilled :
    (∃ s desc, XskRun handleReceivePackets s none ∧ XskEvent.stock 2048 1 ∈ s.trace
      ∧ XskEvent.delivered desc ∈ s.trace ∧ EnoughFrames s ∧ OnlyFrames s)
    ∧ ∃ s desc, XskRun Escenarios.handleReceivePackets s none ∧ XskEvent.stock 2048 1 ∈ s.trace
      ∧ XskEvent.delivered desc ∈ s.trace ∧ EnoughFrames s ∧ OnlyFrames s := by
  have henough : ∀ {s : XskState} {addr : UInt64} {desc : XdpDesc}, s.trace = configuredSocket.trace
      ++ [.stock 2048 1, .reserved 1 1, .filled addr, .delivered desc] → EnoughFrames s := by
    intro s addr desc htrace free away hmem
    rw [htrace, List.mem_append] at hmem
    rcases hmem with hold | hnew
    · exact enoughFrames_configuredSocket free away hold
    · simp only [List.mem_cons, XskEvent.stock.injEq, reduceCtorEq, List.not_mem_nil, or_false] at hnew
      rw [hnew.2]
      exact Or.inr (by decide)
  constructor
  · obtain ⟨s, addr, desc, hrun, -, -, htrace⟩ :=
      exists_refilled isReceiveCall_handleReceivePackets keepsIdle_handleReceivePackets
    exact ⟨s, desc, hrun, by simp [htrace], by simp [htrace], henough htrace,
      ((onlyFrames_iff_enoughFrames s).1 _ hrun).1 (henough htrace)⟩
  · obtain ⟨s, addr, desc, hrun, -, -, htrace⟩ :=
      exists_refilled isReceiveCall_escenarios keepsIdle_escenarios
    exact ⟨s, desc, hrun, by simp [htrace], by simp [htrace], henough htrace,
      ((onlyFrames_iff_enoughFrames s).2 _ hrun).1 (henough htrace)⟩

/-- **Starving the stack.**  From an idle state with an empty rx ring the kernel takes all entries of
the fill ring and returns one frame; the call that receives it empties the stack into the fill ring,
up to 2048 frames, and gets one frame back. -/
lemma XskRun.starve {s : XskState} (h : XskRun handleReceivePackets s none)
    (hrx : s.rx.producer = s.rx.consumer) (hfree : 0 < s.umemFrameFree) :
    ∃ s', XskRun handleReceivePackets s' none ∧ s'.rx.producer = s'.rx.consumer
      ∧ s'.umemFrameFree = s.umemFrameFree - 2048 + 1
      ∧ XskEvent.stock s.umemFrameFree (numFrames - s.umemFrameFree) ∈ s'.trace := by
  obtain ⟨k₀, hk₀, -⟩ := h.idle keepsIdle_handleReceivePackets
  obtain ⟨s₁, -, h₁, -, hcons, hfree₁, hrx₁⟩ := h.consumeAll hk₀
  obtain ⟨k, hk, hidle⟩ := h₁.idle keepsIdle_handleReceivePackets
  obtain ⟨hal, ⟨hfe, hfp, hfcc, -, -⟩, hri, hrc, hlt⟩ := id hidle
  rw [← hrx₁] at hrx
  have hfc := hk.fp_eq hcons
  have hrp := hk.rp_eq hrx
  have hcount := hk.count
  rw [show k.fe = k.fc by omega, window_self, List.filterMap_nil, List.length_nil] at hcount
  obtain ⟨c, hc⟩ : ∃ c, c ∈ s₁.held := List.exists_mem_of_length_pos (by omega)
  obtain ⟨t, ht, hrxt, -, hfreet, addrs, descs, -, -, htrace⟩ :=
    h₁.returnOne isReceiveCall_handleReceivePackets hk hidle hrx (by omega) hc
      (show k.fc + 2048 = k.fcp + 2048 by omega) (by decide)
  refine ⟨t, ht, hrxt, by rw [hfreet, hfree₁], ?_⟩
  rw [htrace, hfree₁, show s₁.held.length = numFrames - s.umemFrameFree by omega]
  simp

/-- The kernel takes 2048 frames and returns one, twice: the second call has one free frame and 2048
entries to fill. -/
theorem refill_writes_no_frame :
    ¬ ∀ s p, XskRun handleReceivePackets s p →
      ∀ addr, XskEvent.filled addr ∈ s.trace → (chunkOf addr).isSome := by
  intro hall
  obtain ⟨hfree, hrx, -⟩ := configuredSocket_fields
  obtain ⟨s₁, h₁, hrx₁, hfree₁, -⟩ := XskRun.starve (.start xskConfigureSocket_eq)
    (by rw [hrx]; rfl) (by rw [hfree]; decide)
  rw [hfree] at hfree₁
  obtain ⟨s₂, h₂, -, -, htrace⟩ := h₁.starve hrx₁ (by rw [hfree₁]; decide)
  have hen := (h₂.sound keepsIdle_handleReceivePackets).2 rfl (hall s₂ none h₂)
  rcases hen _ _ htrace with h0 | hle
  · rw [hfree₁] at h0
    exact absurd h0 (by decide)
  · rw [hfree₁] at hle
    exact absurd hle (by decide)

end Umem
