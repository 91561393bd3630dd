import XdpFlows.Umem.Order

/-!
# What the packet processor is given to read

`rx_and_process` of `lxdpFlow.c` with the bytes: the kernel writes packets into the chunks it holds, and a
packet processor reads them where they lie, while the kernel goes on.  The processor is not written down
here; it is called with a packet (`Notice.packet`) and returns some time later (`Notice.done`).

`packets_arrive_intact` says that it finds each packet as the kernel has left it, each one once and in the
order of their arrival, and that nobody touches a packet while the processor is at work on it.
-/

namespace Umem

open Sections RingWindow Relation

/-! ## Bytes -/

/-- The packet under a descriptor: `len` bytes from `xsk_umem__get_data(buffer, addr)` on. -/
def packetAt (umem : ℕ → UInt8) (desc : XdpDesc) : List UInt8 :=
  (List.range desc.len.toNat).map fun i => umem (desc.addr.toNat + i)

/-- The packet does not leave its chunk. -/
def XdpDesc.Fits (desc : XdpDesc) : Prop :=
  desc.addr.toNat % frameSize + desc.len.toNat ≤ frameSize

lemma chunkOf_eq_some {addr : UInt64} {c : ℕ} (h : chunkOf addr = some c) :
    addr.toNat / frameSize = c := by
  unfold chunkOf at h
  split_ifs at h
  exact Option.some.inj h

/-- A packet is its own chunk's business. -/
lemma packetAt_congr {umem umem' : ℕ → UInt8} {desc : XdpDesc} {c chunk : ℕ} (hfits : desc.Fits)
    (hc : chunkOf desc.addr = some c) (hne : c ≠ chunk)
    (hother : ∀ a, a / frameSize ≠ chunk → umem' a = umem a) :
    packetAt umem' desc = packetAt umem desc := by
  refine List.map_congr_left fun i hi => hother _ ?_
  have hi' := List.mem_range.mp hi
  have hchunk := chunkOf_eq_some hc
  rw [XdpDesc.Fits] at hfits
  simp only [frameSize] at hfits hchunk ⊢
  omega

/-! ## The receive loop -/

/-- The receive loop, the memory it shares with the kernel, and two logs: the packets the kernel has
delivered and those the processor has been called with.

The frame of a packet is on the stack when the processor starts on it (`processAndFree`), where the
source frees it after the processor has returned.  The kernel gets frames only from the fill ring, and
the thread does not fill it while `reading` is set, so the chunk is the processor's until then either
way. -/
structure Capture where
  socket : XskState
  umem : ℕ → UInt8
  /-- What is left of `handle_receive_packets`. -/
  call : Option (Prog XskState ℤ)
  /-- The packet the processor is at work on. -/
  reading : Option XdpDesc
  /-- `i`, the polls in a row that have come back without a packet. -/
  timeouts : ℕ
  stopCapture : Bool
  sent : List (List UInt8)
  seen : List (List UInt8)

/-- `rx_and_process` when it enters its loop. -/
def Capture.start (socket : XskState) (umem : ℕ → UInt8) : Capture where
  socket := socket
  umem := umem
  call := none
  reading := none
  timeouts := 0
  stopCapture := true
  sent := []
  seen := []

/-- The condition of `while ((i < ntimeouts) && (stop_capture == 1))`. -/
def Capture.goesOn (ntimeouts : ℕ) (c : Capture) : Bool :=
  c.timeouts < ntimeouts && c.stopCapture

/-- The packet a section has handed over. -/
def handover (s s' : XskState) : Option XdpDesc :=
  (s'.handed.drop s.handed.length).head?

/-- What a step means for the packet processor. -/
inductive Notice where
  | quiet
  /-- `fn(pkt, &h, aux_data)`. -/
  | packet (desc : XdpDesc)
  /-- The processor has returned. -/
  | done

/-- What the packet processor hears of a section. -/
def Notice.ofHandover : Option XdpDesc → Notice
  | none => .quiet
  | some desc => .packet desc

/-- The steps of the kernel, of `rx_and_process(true, xsk, ntimeouts, …)` and of whoever calls
`stop_rx_and_process`.  The thread stands still while the processor is at work. -/
inductive CaptureStep (ntimeouts : ℕ) : Capture → Notice → Capture → Prop where
  | consume {c : Capture} (hentry : c.socket.fq.consumer ≠ c.socket.fq.producer) :
      CaptureStep ntimeouts c .quiet { c with socket := kernelConsume c.socket }
  /-- The kernel writes into a chunk it holds. -/
  | store {c : Capture} {chunk : ℕ} {umem : ℕ → UInt8} (hheld : chunk ∈ c.socket.held)
      (hother : ∀ a, a / frameSize ≠ chunk → umem a = c.umem a) :
      CaptureStep ntimeouts c .quiet { c with umem := umem }
  | deliver {c : Capture} {chunk : ℕ} {desc : XdpDesc} (hheld : chunk ∈ c.socket.held)
      (haddr : chunkOf desc.addr = some chunk) (hfits : desc.Fits)
      (hroom : c.socket.rx.producer - c.socket.rx.consumer < c.socket.rx.size) :
      CaptureStep ntimeouts c .quiet
        { c with
          socket := kernelDeliver chunk desc c.socket
          sent := c.sent ++ [packetAt c.umem desc] }
  /-- `stop_rx_and_process`. -/
  | stop {c : Capture} : CaptureStep ntimeouts c .quiet { c with stopCapture := false }
  /-- `poll` comes back without a packet, or with an error. -/
  | timeout {c : Capture} (hcall : c.call = none) (hgo : c.goesOn ntimeouts) :
      CaptureStep ntimeouts c .quiet { c with timeouts := c.timeouts + 1 }
  | ready {c : Capture} (fuel : ℕ) (hcall : c.call = none) (hgo : c.goesOn ntimeouts) :
      CaptureStep ntimeouts c .quiet
        { c with timeouts := 0, call := some (handleReceivePackets fuel) }
  | sec {c : Capture} {u : XskState → XskState} {k : XskState → Prog XskState ℤ}
      (hcall : c.call = some (.sec u k)) (hreading : c.reading = none) :
      CaptureStep ntimeouts c (.ofHandover (handover c.socket (u c.socket)))
        { c with
          socket := u c.socket
          call := some (k c.socket)
          reading := handover c.socket (u c.socket)
          seen := c.seen ++ (handover c.socket (u c.socket)).toList.map (packetAt c.umem) }
  | done {c : Capture} {desc : XdpDesc} (hreading : c.reading = some desc) :
      CaptureStep ntimeouts c .done { c with reading := none }
  | back {c : Capture} {a : ℤ} (hcall : c.call = some (.ret a)) (hreading : c.reading = none) :
      CaptureStep ntimeouts c .quiet { c with call := none }

/-- The runs of the receive loop. -/
inductive CaptureRun (ntimeouts : ℕ) : Capture → Prop where
  | start {s : XskState} (umem : ℕ → UInt8) (h : xskConfigureSocket = some s) :
      CaptureRun ntimeouts (.start s umem)
  | step {c c' : Capture} {n : Notice} (h : CaptureRun ntimeouts c)
      (hstep : CaptureStep ntimeouts c n c') : CaptureRun ntimeouts c'

/-! ## One packet at a time -/

/-- A section hands over at most one packet, whose frame is on the stack afterwards. -/
structure HandsOne (s s' : XskState) : Prop where
  handed : s'.handed = s.handed ++ (handover s s').toList
  freed : ∀ desc ∈ handover s s', desc.addr ∈ s'.stack ∨ s'.assertFailed = true

section HandsOne

variable {s s' : XskState}

lemma HandsOne.of_eq (h : s'.handed = s.handed) : HandsOne s s' := by
  have hnone : handover s s' = none := by
    rw [handover, h, List.drop_length]
    rfl
  refine ⟨?_, fun desc hdesc => ?_⟩
  · rw [hnone, h]
    exact (List.append_nil _).symm
  · rw [hnone] at hdesc
    exact absurd hdesc (by simp)

lemma handed_of_trace (h : s'.trace = s.trace) : s'.handed = s.handed := by
  rw [XskState.handed, h]
  rfl

/-- Freeing a frame puts it on the stack. -/
lemma mem_stack_xskFreeUmemFrame (s : XskState) (frame : UInt64) :
    frame ∈ (xskFreeUmemFrame s frame).stack ∨ (xskFreeUmemFrame s frame).assertFailed = true := by
  by_cases hlt : s.umemFrameFree < numFrames
  · left
    rw [xskFreeUmemFrame, if_pos hlt, XskState.stack]
    refine List.mem_map.mpr ⟨s.umemFrameFree, List.mem_range.mpr (Nat.lt_succ_self _), ?_⟩
    exact Function.update_self ..
  · right
    rw [xskFreeUmemFrame, if_neg hlt]

lemma handsOne_nextDesc (s : XskState) : HandsOne s (processAndFree (nextDesc s).2 (nextDesc s).1) := by
  have hhanded : (processAndFree (nextDesc s).2 (nextDesc s).1).handed
      = s.handed ++ [(nextDesc s).2] := by
    obtain ⟨htrace, -⟩ := xskFreeUmemFrame_frame
      { (nextDesc s).1 with trace := (nextDesc s).1.trace ++ [.delivered (nextDesc s).2] }
      (nextDesc s).2.addr
    rw [XskState.handed, processAndFree, htrace, List.filterMap_append]
    rfl
  have hone : handover s (processAndFree (nextDesc s).2 (nextDesc s).1) = some (nextDesc s).2 := by
    rw [handover, hhanded, List.drop_left]
    rfl
  refine ⟨?_, fun desc hdesc => ?_⟩
  · rw [hone, hhanded]
    rfl
  · rw [hone, Option.mem_some_iff] at hdesc
    rw [← hdesc]
    exact mem_stack_xskFreeUmemFrame _ _

lemma fillLoop_handsOne (n : ℕ) : (fillLoop n).Each HandsOne := by
  induction n with
  | zero => exact trivial
  | succ n ih =>
      refine .bind (.act fun s => .of_eq ?_) fun _ => ih
      exact handed_append (fillOne_trace s) (by simp)

lemma retryReserve_handsOne (rcvd stock : UInt32) (fuel : ℕ) (ret : UInt32) :
    (retryReserve rcvd stock fuel ret).Each HandsOne := by
  induction fuel generalizing ret with
  | zero =>
      unfold retryReserve
      split_ifs
      · exact trivial
      · exact .act fun s => .of_eq (handed_append rfl (by simp))
  | succ fuel ih =>
      unfold retryReserve
      split_ifs
      · exact trivial
      · refine .bind (.atomic fun s => .of_eq ?_) fun ret' => ih ret'
        exact handed_append rfl (by simp)

lemma stuffFillRing_handsOne (fuel : ℕ) (rcvd : UInt32) : (stuffFillRing fuel rcvd).Each HandsOne := by
  refine .bind (.atomic fun s => .of_eq (handed_append rfl (by simp))) fun stock => ?_
  split_ifs
  · refine .bind (.atomic fun s => .of_eq (handed_append rfl (by simp))) fun granted => ?_
    refine .bind (retryReserve_handsOne ..) fun _ => ?_
    exact .bind (fillLoop_handsOne _) fun _ => .act fun s => .of_eq (handed_of_trace rfl)
  · exact trivial

lemma processLoop_handsOne (n : ℕ) : (processLoop processAndFree n).Each HandsOne := by
  induction n with
  | zero => exact trivial
  | succ n ih => exact .bind (.act handsOne_nextDesc) fun _ => ih

lemma handleReceivePackets_handsOne (fuel : ℕ) : (handleReceivePackets fuel).Each HandsOne := by
  refine .bind (.atomic fun s => .of_eq (handed_of_trace rfl)) fun rcvd => ?_
  split_ifs
  · exact trivial
  · refine .bind (stuffFillRing_handsOne ..) fun _ => ?_
    refine .bind (processLoop_handsOne _) fun _ => ?_
    exact .bind (.act fun s => .of_eq (handed_of_trace rfl)) fun _ => trivial

end HandsOne

/-! ## The bytes stay -/

section Apart

variable {k : Counters} {s : XskState}

/-- A chunk is not in two places. -/
lemma Frames.not_held (h : Frames k s) {c : ℕ}
    (hc : c ∈ s.stack.filterMap chunkOf ∨ c ∈ descChunks s.unread) : c ∉ s.held := by
  obtain ⟨hr1, hr2, hr3, hr4, hr5⟩ := h.rxOrder
  have hone : (k.places s).count c ≤ 1 :=
    List.nodup_iff_count.mp (h.parts.nodup_iff.mpr List.nodup_range) c
  have hunread : s.unread = window s.rx.ring 11 k.ri k.rcc ++ window s.rx.ring 11 k.rcc k.rp := by
    rw [h.unread_eq, window_append _ _ hr2 (by omega)]
  rw [hunread, descChunks_append] at hc
  intro hheld
  simp only [Counters.places, List.count_append] at hone
  have hpos := List.count_pos_iff.mpr hheld
  rcases hc with hc | hc
  · have := List.count_pos_iff.mpr hc
    omega
  · have := List.count_pos_iff.mpr hc
    rw [List.count_append] at this
    omega

lemma Frames.stack_apart (h : Frames k s) {a : UInt64} (ha : a ∈ s.stack) :
    ∃ c, chunkOf a = some c ∧ c ∉ s.held := by
  obtain ⟨c, hc⟩ := Option.isSome_iff_exists.mp (h.stackValid a ha)
  exact ⟨c, hc, h.not_held (Or.inl (List.mem_filterMap.mpr ⟨a, ha, hc⟩))⟩

lemma Frames.unread_apart (h : Frames k s) {desc : XdpDesc} (hdesc : desc ∈ s.unread) :
    ∃ c, chunkOf desc.addr = some c ∧ c ∉ s.held := by
  have hvalid := h.rxValid desc (h.unread_eq ▸ hdesc)
  obtain ⟨c, hc⟩ := Option.isSome_iff_exists.mp hvalid
  exact ⟨c, hc, h.not_held (Or.inr (List.mem_filterMap.mpr ⟨desc, hdesc, hc⟩))⟩

end Apart

/-- The packets still unread are as they were sent, and so is the one the processor is at work on: its
frame is on the stack of free frames, of which the kernel knows nothing. -/
structure Intact (c : Capture) : Prop where
  watched : WatchedOk c.socket c.call
  hands : ∀ p, c.call = some p → p.Each HandsOne
  fits : ∀ desc ∈ c.socket.unread, desc.Fits
  reading : ∀ desc, c.reading = some desc → desc.addr ∈ c.socket.stack ∧ desc.Fits
    ∧ c.seen.getLast? = some (packetAt c.umem desc)
  sent : c.sent = c.seen ++ c.socket.unread.map (packetAt c.umem)

section Steps

variable {ntimeouts : ℕ} {c c' : Capture} {n : Notice}

lemma Intact.store (h : Intact c) {chunk : ℕ} {umem : ℕ → UInt8} (hheld : chunk ∈ c.socket.held)
    (hother : ∀ a, a / frameSize ≠ chunk → umem a = c.umem a) : Intact { c with umem := umem } := by
  obtain ⟨k, hk, -⟩ := h.watched.always
  refine ⟨h.watched, h.hands, h.fits, fun desc hdesc => ?_, ?_⟩
  · obtain ⟨hstack, hfits, hlast⟩ := h.reading desc hdesc
    obtain ⟨a, ha, hnot⟩ := hk.stack_apart hstack
    refine ⟨hstack, hfits, ?_⟩
    rw [packetAt_congr hfits ha (fun heq => hnot (heq ▸ hheld)) hother]
    exact hlast
  · show c.sent = c.seen ++ c.socket.unread.map (packetAt umem)
    rw [h.sent]
    congr 1
    refine List.map_congr_left fun desc hdesc => ?_
    obtain ⟨a, ha, hnot⟩ := hk.unread_apart hdesc
    exact (packetAt_congr (h.fits desc hdesc) ha (fun heq => hnot (heq ▸ hheld)) hother).symm

lemma Intact.deliver (h : Intact c) {chunk : ℕ} {desc : XdpDesc} (hheld : chunk ∈ c.socket.held)
    (haddr : chunkOf desc.addr = some chunk) (hfits : desc.Fits)
    (hroom : c.socket.rx.producer - c.socket.rx.consumer < c.socket.rx.size) :
    Intact { c with
      socket := kernelDeliver chunk desc c.socket
      sent := c.sent ++ [packetAt c.umem desc] } := by
  obtain ⟨k, hk, -⟩ := h.watched.always
  have hunread := hk.unread_kernelDeliver hheld haddr hroom
  refine ⟨h.watched.kernel (.deliver hheld haddr hroom), h.hands, fun d hd => ?_, h.reading, ?_⟩
  · change d ∈ (kernelDeliver chunk desc c.socket).unread at hd
    rw [hunread, List.mem_append, List.mem_singleton] at hd
    rcases hd with hd | rfl
    · exact h.fits d hd
    · exact hfits
  · show c.sent ++ _ = c.seen ++ (kernelDeliver chunk desc c.socket).unread.map (packetAt c.umem)
    rw [hunread, h.sent, List.map_append, List.append_assoc]
    rfl

lemma Intact.sec (h : Intact c) {u : XskState → XskState} {k : XskState → Prog XskState ℤ}
    (hcall : c.call = some (.sec u k)) :
    Intact { c with
      socket := u c.socket
      call := some (k c.socket)
      reading := handover c.socket (u c.socket)
      seen := c.seen ++ (handover c.socket (u c.socket)).toList.map (packetAt c.umem) } := by
  have hwatched := h.watched
  rw [hcall] at hwatched
  obtain ⟨⟨⟨ds, hhanded, hunread⟩, -⟩, hrest⟩ := Guarantees.sec_step hwatched
  obtain ⟨hone, hfree⟩ := (h.hands _ hcall).1 c.socket
  obtain rfl : ds = (handover c.socket (u c.socket)).toList :=
    List.append_cancel_left (hhanded.symm.trans hone)
  have hfits := h.fits
  rw [hunread] at hfits
  refine ⟨hrest, ?_, fun d hd => hfits d (List.mem_append_right _ hd), fun desc hdesc => ?_, ?_⟩
  · intro p hp
    rw [← Option.some.inj hp]
    exact (h.hands _ hcall).2 c.socket
  · simp only at hdesc ⊢
    obtain ⟨j, hj, -⟩ := hrest.now
    rw [hdesc] at hfits ⊢
    refine ⟨(hfree desc hdesc).resolve_right (by rw [hj.assertOk]; simp), ?_, ?_⟩
    · exact hfits desc (List.mem_append_left _ (List.mem_singleton_self desc))
    · exact List.getLast?_concat ..
  · show c.sent = (c.seen ++ _) ++ (u c.socket).unread.map (packetAt c.umem)
    rw [h.sent, hunread, List.map_append, List.append_assoc]

/-- **Every step leaves the packets as they are.** -/
lemma Intact.step (h : Intact c) (hstep : CaptureStep ntimeouts c n c') : Intact c' := by
  cases hstep with
  | consume hentry =>
      exact ⟨h.watched.kernel (.consume hentry), h.hands, h.fits, h.reading, h.sent⟩
  | store hheld hother => exact h.store hheld hother
  | deliver hheld haddr hfits hroom => exact h.deliver hheld haddr hfits hroom
  | stop => exact ⟨h.watched, h.hands, h.fits, h.reading, h.sent⟩
  | timeout hcall hgo => exact ⟨h.watched, h.hands, h.fits, h.reading, h.sent⟩
  | ready fuel hcall hgo =>
      have hidle := h.watched
      rw [hcall] at hidle
      refine ⟨?_, ?_, h.fits, h.reading, h.sent⟩
      · exact (handleReceivePackets_pace fuel _ hidle).imp (fun _ _ h => h) fun _ _ h => h.1
      · rintro p ⟨⟩
        exact handleReceivePackets_handsOne fuel
  | sec hcall hreading => exact h.sec hcall
  | done hreading => exact ⟨h.watched, h.hands, h.fits, fun _ hnone => absurd hnone (by simp), h.sent⟩
  | @back a hcall hreading =>
      have hret : Guarantees KernelStep (Holds Always) InOrder (fun _ => Holds Idle)
          (.ret a) c.socket := by
        have hwatched := h.watched
        rwa [hcall] at hwatched
      exact ⟨hret.result, fun _ hnone => absurd hnone (by simp), h.fits, h.reading, h.sent⟩

lemma CaptureRun.intact (h : CaptureRun ntimeouts c) : Intact c := by
  induction h with
  | start umem h =>
      rw [xskConfigureSocket_eq, Option.some.injEq] at h
      subst h
      obtain ⟨-, hrx, -⟩ := configuredSocket_fields
      have hunread : configuredSocket.unread = [] := by
        have hagree := logsAgree_configuredSocket.1
        exact (List.append_eq_nil_iff.mp hagree.symm).2
      refine ⟨idle_configuredSocket, fun _ hnone => absurd hnone (by simp [Capture.start]), ?_,
        fun _ hnone => absurd hnone (by simp [Capture.start]), ?_⟩
      · intro desc hdesc
        change desc ∈ configuredSocket.unread at hdesc
        rw [hunread] at hdesc
        exact absurd hdesc List.not_mem_nil
      · show [] = [] ++ configuredSocket.unread.map (packetAt umem)
        rw [hunread]
        rfl
  | step _ hstep ih => exact ih.step hstep

end Steps

/-- **Packets arrive intact.**  At every moment of every run of the receive loop, whatever the kernel
takes, writes and delivers in between, the packets the kernel has delivered are those the processor has
been called with, as it found them, followed by those still unread, as they lie in the UMEM; and the
packet the processor is at work on lies there as it found it. -/
theorem packets_arrive_intact {ntimeouts : ℕ} {c : Capture} (h : CaptureRun ntimeouts c) :
    c.sent = c.seen ++ c.socket.unread.map (packetAt c.umem)
      ∧ ∀ desc, c.reading = some desc → c.seen.getLast? = some (packetAt c.umem desc) :=
  ⟨h.intact.sent, fun desc hdesc => (h.intact.reading desc hdesc).2.2⟩

/-! ### One packet, from the kernel to the processor -/

section OnePacket

variable {ntimeouts : ℕ} {c : Capture}

/-- What is left of the call runs to its end, the processor returning at once. -/
lemma CaptureRun.alone (h : CaptureRun ntimeouts c) {p : Prog XskState ℤ} (hcall : c.call = some p)
    (hreading : c.reading = none) :
    ∃ c', CaptureRun ntimeouts c' ∧ c'.call = none ∧ c'.reading = none
      ∧ c'.socket = (p.run c.socket).1 ∧ c'.umem = c.umem ∧ c'.sent = c.sent
      ∧ c'.timeouts = c.timeouts ∧ c'.stopCapture = c.stopCapture := by
  induction p generalizing c with
  | ret a => exact ⟨_, h.step (.back hcall hreading), rfl, hreading, rfl, rfl, rfl, rfl, rfl⟩
  | sec u k ih =>
      have hsec := h.step (.sec hcall hreading)
      cases hone : handover c.socket (u c.socket) with
      | none => exact ih c.socket hsec rfl hone
      | some desc =>
          have hdone := hsec.step (.done (show _ = some desc from hone))
          exact ih c.socket hdone rfl rfl

/-- The steps the packet processor hears nothing of. -/
def Quietly (ntimeouts : ℕ) : Capture → Capture → Prop :=
  ReflTransGen fun c c' => CaptureStep ntimeouts c .quiet c'

lemma CaptureRun.quietly (h : CaptureRun ntimeouts c) {c' : Capture} (hsteps : Quietly ntimeouts c c') :
    CaptureRun ntimeouts c' := by
  induction hsteps with
  | refl => exact h
  | tail _ hstep ih => exact ih.step hstep

/-- The kernel takes the first entry a socket without packets offers, and has a frame. -/
lemma exists_held (umem : ℕ → UInt8) {s : XskState} (hidle : Holds Idle s)
    (hrx : s.rx = freshRing 0 ⟨0, 0⟩) (hheld : s.held = []) (honly : OnlyFrames s) :
    ∃ t chunk, Quietly ntimeouts (.start s umem) (.start t umem) ∧ chunk ∈ t.held
      ∧ t.rx.producer - t.rx.consumer < t.rx.size := by
  have hsub := Idle.submittedChunks_ne_nil hidle (by rw [hrx]; rfl) hheld
  obtain ⟨hentry, chunk, hchunk⟩ := Idle.offers hidle hsub honly
  refine ⟨kernelConsume s, chunk, .single (.consume (c := .start s umem) hentry), ?_, ?_⟩
  · show chunk ∈ (chunkOf (s.fq.entry s.fq.consumer)).toList ++ s.held
    rw [hchunk]
    exact List.mem_append_left _ (List.mem_singleton_self chunk)
  · show s.rx.producer - s.rx.consumer < s.rx.size
    rw [hrx]
    decide

/-- A packet in the first bytes of a chunk. -/
lemma packet_in_chunk {bytes : List UInt8} (hlen : bytes.length ≤ frameSize) (chunk i : ℕ) :
    (if (chunk * frameSize + i) / frameSize = chunk
      then bytes.getD ((chunk * frameSize + i) % frameSize) 0 else 0) = bytes.getD i 0 := by
  have hsize : frameSize = 4096 := rfl
  rw [hsize] at hlen ⊢
  by_cases hi : i < 4096
  · rw [if_pos (by omega), show (chunk * 4096 + i) % 4096 = i by omega]
  · rw [if_neg (by omega), List.getD_eq_default _ _ (by omega)]

/-- The kernel writes a packet into a chunk it holds and delivers it. -/
lemma exists_delivered {bytes : List UInt8} (hlen : bytes.length ≤ frameSize) : ∃ c desc,
    Quietly ntimeouts (.start configuredSocket fun _ => 0) c ∧ c.sent = [bytes] ∧ c.seen = []
      ∧ c.call = none ∧ c.reading = none ∧ c.timeouts = 0 ∧ c.stopCapture = true
      ∧ c.socket.unread = [desc] ∧ desc.len.toNat = bytes.length
      ∧ ∀ i, c.umem (desc.addr.toNat + i) = bytes.getD i 0 := by
  obtain ⟨-, hrx, hnone, -⟩ := configuredSocket_fields
  have hstart : CaptureRun ntimeouts (.start configuredSocket fun _ => 0) :=
    .start _ xskConfigureSocket_eq
  obtain ⟨s, chunk, hsteps, hheld, hroom⟩ := @exists_held ntimeouts
    (fun _ => 0) _ idle_configuredSocket hrx hnone onlyFrames_configuredSocket
  have hrun := hstart.quietly hsteps
  have hstored := hsteps.tail (@CaptureStep.store ntimeouts (.start s fun _ => 0) chunk
    (fun a => if a / frameSize = chunk then bytes.getD (a % frameSize) 0 else 0) hheld
    fun a ha => if_neg ha)
  obtain ⟨k, hk, -⟩ := hrun.intact.watched.always
  change Frames k s at hk
  have hlt := hk.held_lt hheld
  have haddr := chunkOf_mul hlt
  simp only [numFrames] at hlt
  have hnat : (UInt64.ofNat (chunk * frameSize)).toNat = chunk * frameSize := by
    rw [UInt64.toNat_ofNat', Nat.mod_eq_of_lt (by simp only [frameSize]; omega)]
  have hlength : (UInt32.ofNat bytes.length).toNat = bytes.length := by
    simp only [frameSize] at hlen
    rw [UInt32.toNat_ofNat', Nat.mod_eq_of_lt (by omega)]
  have hfits : XdpDesc.Fits ⟨UInt64.ofNat (chunk * frameSize), UInt32.ofNat bytes.length⟩ := by
    rw [XdpDesc.Fits, hnat, hlength, Nat.mul_mod_left, Nat.zero_add]
    exact hlen
  have hbytes : packetAt (fun a => if a / frameSize = chunk then bytes.getD (a % frameSize) 0 else 0)
      ⟨UInt64.ofNat (chunk * frameSize), UInt32.ofNat bytes.length⟩ = bytes := by
    rw [packetAt, hnat, hlength]
    simp only [packet_in_chunk hlen]
    refine List.ext_getElem (by simp) fun i hi hi' => ?_
    rw [List.getElem_map, List.getElem_range, List.getD_eq_getElem _ _ hi']
  have hunread : (kernelDeliver chunk ⟨UInt64.ofNat (chunk * frameSize), UInt32.ofNat bytes.length⟩
      s).unread = [⟨UInt64.ofNat (chunk * frameSize), UInt32.ofNat bytes.length⟩] := by
    have hempty : s.unread = [] := by
      have hsent := hrun.intact.sent
      exact List.map_eq_nil_iff.mp (List.append_eq_nil_iff.mp hsent.symm).2
    rw [hk.unread_kernelDeliver hheld haddr hroom]
    exact congrArg (· ++ _) hempty
  refine ⟨_, _, hstored.tail (.deliver hheld haddr hfits hroom), congrArg (fun l => [l]) hbytes, rfl, rfl,
    rfl, rfl, rfl, hunread, hlength, fun i => ?_⟩
  rw [hnat]
  exact packet_in_chunk hlen chunk i

/-- A call run alone hands the only packet over. -/
lemma handed_alone {s : XskState} {desc : XdpDesc} (hidle : Holds Idle s) (hunread : s.unread = [desc]) :
    ((handleReceivePackets 0).run s).1.unread = []
      ∧ ((handleReceivePackets 0).run s).1.handed = s.handed ++ [desc] := by
  obtain ⟨hreceived, -, hhanded⟩ := (handleReceivePackets_pace 0 s hidle).alone
    (I := fun t => t.received = s.received) (fun _ _ h hs => hs.received.trans h) rfl
  rw [HandedAtLeast, XskState.received, List.length_append, hunread, List.length_singleton] at hhanded
  rw [XskState.received, XskState.received, hunread] at hreceived
  have hlength := congrArg List.length hreceived
  rw [List.length_append, List.length_append, List.length_singleton] at hlength
  have hnil : ((handleReceivePackets 0).run s).1.unread = [] := List.length_eq_zero_iff.mp (by omega)
  rw [hnil, List.append_nil] at hreceived
  exact ⟨hnil, hreceived⟩

end OnePacket

/-- Two bytes, as the kernel has delivered them and as the processor has found them. -/
theorem packets_arrive_intact_one : ∃ c, CaptureRun 5 c ∧ c.sent = [[7, 8]] ∧ c.seen = [[7, 8]]
    ∧ c.sent = c.seen ++ c.socket.unread.map (packetAt c.umem)
    ∧ ∀ desc, c.reading = some desc → c.seen.getLast? = some (packetAt c.umem desc) := by
  obtain ⟨c, desc, hsteps, hsent, -, hcall, hreading, htimeouts, hstop, hunread, -⟩ :=
    @exists_delivered 5 [7, 8] (by decide)
  have hrun := CaptureRun.quietly (.start _ xskConfigureSocket_eq) hsteps
  have hgo : c.goesOn 5 := by
    rw [Capture.goesOn, htimeouts, hstop]
    rfl
  have hidle := hrun.intact.watched
  rw [hcall] at hidle
  obtain ⟨c', hrun', -, -, hsocket, -, hsent', -⟩ := (hrun.step (.ready 0 hcall hgo)).alone rfl hreading
  obtain ⟨hpackets, hlast⟩ := packets_arrive_intact hrun'
  refine ⟨c', hrun', hsent'.trans hsent, ?_, hpackets, hlast⟩
  change c'.socket = ((handleReceivePackets 0).run c.socket).1 at hsocket
  rw [hsent', hsocket, (handed_alone hidle hunread).1, List.map_nil, List.append_nil] at hpackets
  exact hpackets.symm.trans hsent

end Umem
