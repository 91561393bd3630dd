import XdpFlows.Umem.Socket

/-!
# Every frame is in exactly one place

The invariant behind the receive path.  `Frames k s` ties the 32-bit counters of `s` to unbounded
ones (`Counters`), says that they are in the order the protocol keeps them in, that every address on
the stack and in the rx ring names a chunk, and that the five places together hold every chunk once.

One lemma per step of the two parties: `Frames.kernelConsume`, `Frames.kernelDeliver` for the kernel
and `Frames.peekRx`, `Frames.stockFrames`, `Frames.reserveFq`, `Frames.fillOne`, `Frames.submit`,
`Frames.freeNext`, `Frames.release` for the process.
-/

namespace Umem

open RingWindow

/-! ## Chunks -/

lemma chunkOf_invalid : chunkOf invalidUmemFrame = none := by
  decide

lemma chunkOf_mul {i : ℕ} (h : i < numFrames) :
    chunkOf (UInt64.ofNat (i * frameSize)) = some i := by
  simp only [numFrames] at h
  have hlt : i * 4096 < 2 ^ 64 := by omega
  have hnat : (UInt64.ofNat (i * frameSize)).toNat = i * frameSize := by
    rw [UInt64.toNat_ofNat', frameSize, Nat.mod_eq_of_lt hlt]
  rw [chunkOf, hnat, if_pos (by simp only [frameSize, numFrames]; omega)]
  simp [frameSize]

/-! ## The invariant -/

/-- Unbounded versions of the ring counters.  `fe` is the end of the fill-ring entries written so
far, `ri` the next descriptor of the batch. -/
structure Counters where
  fp : ℕ
  fc : ℕ
  fcp : ℕ
  fcc : ℕ
  fe : ℕ
  rp : ℕ
  rc : ℕ
  rcp : ℕ
  rcc : ℕ
  ri : ℕ

/-- The stack of free frames as a list. -/
def XskState.stack (s : XskState) : List UInt64 :=
  (List.range s.umemFrameFree).map s.umemFrameAddr

/-- The chunks named by a list of descriptors. -/
def descChunks (ds : List XdpDesc) : List ℕ :=
  ds.filterMap fun d => chunkOf d.addr

lemma descChunks_append (ds es : List XdpDesc) :
    descChunks (ds ++ es) = descChunks ds ++ descChunks es :=
  List.filterMap_append

lemma descChunks_cons {d : XdpDesc} {c : ℕ} (h : chunkOf d.addr = some c) (ds : List XdpDesc) :
    descChunks (d :: ds) = c :: descChunks ds :=
  List.filterMap_cons_some (f := fun d : XdpDesc => chunkOf d.addr) h

/-- The five places, read with unbounded counters. -/
def Counters.places (k : Counters) (s : XskState) : List ℕ :=
  s.stack.filterMap chunkOf ++ (window s.fq.ring 11 k.fc k.fe).filterMap chunkOf ++ s.held
    ++ descChunks (window s.rx.ring 11 k.rcc k.rp) ++ descChunks (window s.rx.ring 11 k.ri k.rcc)

/-- The counters of `s` are the residues of `k`, in protocol order. -/
structure Counters.Track (k : Counters) (s : XskState) : Prop where
  fqMask : s.fq.mask = UInt32.ofNat (2 ^ 11 - 1)
  fqSize : s.fq.size = UInt32.ofNat (2 ^ 11)
  rxMask : s.rx.mask = UInt32.ofNat (2 ^ 11 - 1)
  rxSize : s.rx.size = UInt32.ofNat (2 ^ 11)
  producer : s.fq.producer = UInt32.ofNat k.fp
  consumer : s.fq.consumer = UInt32.ofNat k.fc
  cachedProd : s.fq.cachedProd = UInt32.ofNat k.fcp
  cachedCons : s.fq.cachedCons = UInt32.ofNat k.fcc
  fillLeft : s.fillLeft = UInt32.ofNat (k.fcp - k.fe)
  idxFq : k.fe < k.fcp → s.idxFq = UInt32.ofNat k.fe
  rxProducer : s.rx.producer = UInt32.ofNat k.rp
  rxConsumer : s.rx.consumer = UInt32.ofNat k.rc
  rxCachedProd : s.rx.cachedProd = UInt32.ofNat k.rcp
  rxCachedCons : s.rx.cachedCons = UInt32.ofNat k.rcc
  batchLeft : s.batchLeft = UInt32.ofNat (k.rcc - k.ri)
  idxRx : k.ri < k.rcc → s.idxRx = UInt32.ofNat k.ri
  fillOrder : k.fc ≤ k.fp ∧ k.fp ≤ k.fe ∧ k.fe ≤ k.fcp ∧ k.fcp ≤ k.fcc ∧ k.fcc ≤ k.fc + 2048
  rxOrder : k.rc ≤ k.ri ∧ k.ri ≤ k.rcc ∧ k.rcc ≤ k.rcp ∧ k.rcp ≤ k.rp ∧ k.rp ≤ k.rc + 2048

/-- The frame invariant. -/
structure Frames (k : Counters) (s : XskState) : Prop extends k.Track s where
  stackValid : ∀ a ∈ s.stack, (chunkOf a).isSome
  rxValid : ∀ d ∈ window s.rx.ring 11 k.ri k.rp, (chunkOf d.addr).isSome
  parts : (k.places s).Perm (List.range numFrames)
  assertOk : s.assertFailed = false

lemma length_filterMap_chunkOf {l : List UInt64} (h : ∀ a ∈ l, (chunkOf a).isSome) :
    (l.filterMap chunkOf).length = l.length := by
  induction l with
  | nil => rfl
  | cons a l ih =>
      obtain ⟨c, hc⟩ := Option.isSome_iff_exists.mp (h a (List.mem_cons_self ..))
      rw [List.filterMap_cons_some hc, List.length_cons, List.length_cons,
        ih fun b hb => h b (List.mem_cons_of_mem a hb)]

lemma length_descChunks {l : List XdpDesc} (h : ∀ d ∈ l, (chunkOf d.addr).isSome) :
    (descChunks l).length = l.length := by
  induction l with
  | nil => rfl
  | cons d l ih =>
      obtain ⟨c, hc⟩ := Option.isSome_iff_exists.mp (h d (List.mem_cons_self ..))
      rw [descChunks_cons hc, List.length_cons, List.length_cons,
        ih fun b hb => h b (List.mem_cons_of_mem d hb)]

section Invariant

variable {k : Counters} {s : XskState}

/-- The places read off the 32-bit counters are the ones the invariant speaks of. -/
lemma Frames.places_eq (h : Frames k s) : s.places = k.places s := by
  obtain ⟨hf1, hf2, hf3, hf4, hf5⟩ := h.fillOrder
  obtain ⟨hr1, hr2, hr3, hr4, hr5⟩ := h.rxOrder
  have hfill : s.fq.cachedProd - s.fillLeft = UInt32.ofNat k.fe := by
    rw [h.cachedProd, h.fillLeft, ofNat_sub_ofNat (Nat.sub_le _ _), Nat.sub_sub_self hf3]
  have hbatch : s.batchChunks = descChunks (window s.rx.ring 11 k.ri k.rcc) := by
    rcases Nat.lt_or_eq_of_le hr2 with hlt | heq
    · rw [XskState.batchChunks, XskRing.entries, h.rxMask, h.idxRx hlt, h.batchLeft,
        ← UInt32.ofNat_add, Nat.add_sub_cancel' hr2, slice_eq_window _ _ hr2 (by omega)]
      rfl
    · -- an empty batch: `idx_rx` is whatever the last call left in it
      rw [XskState.batchChunks, XskRing.entries, h.batchLeft, heq, slice]
      simp [descChunks]
  rw [XskState.places, Counters.places, hbatch, XskState.stackChunks, XskState.stack,
    XskState.fillChunks, XskRing.entries, hfill, h.fqMask, h.consumer,
    slice_eq_window _ _ (by omega) (by omega), XskState.pendingChunks, XskRing.entries, h.rxMask,
    h.rxCachedCons, h.rxProducer, slice_eq_window _ _ (by omega) (by omega)]
  rfl

lemma Frames.submitted_eq (h : Frames k s) :
    s.submittedChunks = (window s.fq.ring 11 k.fc k.fp).filterMap chunkOf := by
  obtain ⟨hf1, hf2, hf3, hf4, hf5⟩ := h.fillOrder
  rw [XskState.submittedChunks, XskRing.entries, h.fqMask, h.consumer, h.producer,
    slice_eq_window _ _ hf1 (by omega)]

/-- A frame the kernel holds is one of the frames. -/
lemma Frames.held_lt (h : Frames k s) {c : ℕ} (hc : c ∈ s.held) : c < numFrames := by
  refine List.mem_range.mp (h.parts.mem_iff.mp ?_)
  simp only [Counters.places, List.mem_append]
  exact Or.inl (Or.inl (Or.inr hc))

/-- The kernel has taken all that was submitted. -/
lemma Frames.fp_eq (h : Frames k s) (heq : s.fq.consumer = s.fq.producer) : k.fp = k.fc := by
  obtain ⟨hf1, hf2, hf3, hf4, hf5⟩ := h.fillOrder
  exact eq_of_ofNat_eq hf1 (by omega) (h.producer.symm.trans (heq.symm.trans h.consumer))

/-- Everything in the rx ring has been released. -/
lemma Frames.rp_eq (h : Frames k s) (heq : s.rx.producer = s.rx.consumer) : k.rp = k.rc := by
  obtain ⟨hr1, hr2, hr3, hr4, hr5⟩ := h.rxOrder
  exact eq_of_ofNat_eq (by omega) (by omega) (h.rxProducer.symm.trans (heq.trans h.rxConsumer))

/-- How many frames are where. -/
lemma Frames.count (h : Frames k s) :
    s.umemFrameFree + ((window s.fq.ring 11 k.fc k.fe).filterMap chunkOf).length + s.held.length
      + (k.rp - k.ri) = numFrames := by
  obtain ⟨hr1, hr2, hr3, hr4, hr5⟩ := h.rxOrder
  have hlen := h.parts.length_eq
  have hpend : (descChunks (window s.rx.ring 11 k.rcc k.rp)).length = k.rp - k.rcc := by
    rw [length_descChunks, length_window]
    intro d hd
    refine h.rxValid d ?_
    rw [window_append _ _ hr2 (by omega : k.rcc ≤ k.rp)]
    exact List.mem_append_right _ hd
  have hbatch : (descChunks (window s.rx.ring 11 k.ri k.rcc)).length = k.rcc - k.ri := by
    rw [length_descChunks, length_window]
    intro d hd
    refine h.rxValid d ?_
    rw [window_append _ _ hr2 (by omega : k.rcc ≤ k.rp)]
    exact List.mem_append_left _ hd
  have hstack : (s.stack.filterMap chunkOf).length = s.umemFrameFree := by
    rw [length_filterMap_chunkOf h.stackValid, XskState.stack, List.length_map, List.length_range]
  simp only [Counters.places, List.length_append, List.length_range, hpend, hbatch, hstack] at hlen
  omega

lemma Frames.free_le (h : Frames k s) : s.umemFrameFree ≤ numFrames := by
  have := h.count
  omega

/-! ## The kernel's steps -/

lemma Frames.kernelConsume (h : Frames k s) (hne : s.fq.consumer ≠ s.fq.producer) :
    k.fc < k.fp ∧ Frames { k with fc := k.fc + 1 } (kernelConsume s) := by
  obtain ⟨hf1, hf2, hf3, hf4, hf5⟩ := h.fillOrder
  have hlt : k.fc < k.fp := by
    refine lt_of_le_of_ne hf1 fun heq => hne ?_
    rw [h.consumer, h.producer, heq]
  have hentry : s.fq.entry s.fq.consumer = s.fq.ring (slot 11 k.fc) := by
    rw [XskRing.entry, h.consumer, h.fqMask, slot]
  refine ⟨hlt, { h with
    consumer := ?_, fillOrder := ⟨hlt, hf2, hf3, hf4, by simp only; omega⟩, parts := ?_ }⟩
  · show s.fq.consumer + 1 = _
    rw [h.consumer, ofNat_succ]
  · refine List.Perm.trans ?_ h.parts
    rw [List.perm_iff_count]
    intro c
    have hcons : window s.fq.ring 11 k.fc k.fe
        = s.fq.ring (slot 11 k.fc) :: window s.fq.ring 11 (k.fc + 1) k.fe :=
      window_cons _ _ (by omega)
    simp only [Counters.places, Umem.kernelConsume, XskState.stack, hentry, hcons,
      List.count_append]
    cases hch : chunkOf (s.fq.ring (slot 11 k.fc)) with
    | none => simp [List.filterMap_cons_none hch]
    | some x =>
        simp only [List.filterMap_cons_some hch, Option.toList_some, List.count_cons,
          List.count_nil]
        omega

lemma Frames.kernelDeliver (h : Frames k s) {chunk : ℕ} {desc : XdpDesc} (hheld : chunk ∈ s.held)
    (haddr : chunkOf desc.addr = some chunk) (hroom : s.rx.producer - s.rx.consumer < s.rx.size) :
    Frames { k with rp := k.rp + 1 } (kernelDeliver chunk desc s) := by
  obtain ⟨hr1, hr2, hr3, hr4, hr5⟩ := h.rxOrder
  have hlt : k.rp < k.rc + 2048 := by
    rw [h.rxProducer, h.rxConsumer, h.rxSize, UInt32.lt_iff_toNat_lt,
      toNat_distance (by omega) (by omega)] at hroom
    have hsize : (UInt32.ofNat (2 ^ 11)).toNat = 2048 := rfl
    omega
  have hring : (s.rx.write s.rx.producer desc).ring
      = Function.update s.rx.ring (slot 11 k.rp) desc := by
    rw [XskRing.write, h.rxProducer, h.rxMask, slot]
  have hkeep : ∀ a b, k.rc ≤ a → b ≤ k.rp →
      window (Function.update s.rx.ring (slot 11 k.rp) desc) 11 a b = window s.rx.ring 11 a b :=
    fun a b ha hb => window_update _ (by omega) desc hb (by omega)
  have hnew : ∀ a, k.rc ≤ a → a ≤ k.rp →
      window (Function.update s.rx.ring (slot 11 k.rp) desc) 11 a (k.rp + 1)
        = window s.rx.ring 11 a k.rp ++ [desc] := by
    intro a ha hap
    rw [window_concat _ _ hap, hkeep a k.rp ha le_rfl, Function.update_self]
  refine { h with
    rxProducer := ?_, rxOrder := ⟨hr1, hr2, hr3, by simp only; omega, by simp only; omega⟩,
    rxValid := ?_, parts := ?_ }
  · show s.rx.producer + 1 = _
    rw [h.rxProducer, ofNat_succ]
  · intro d hd
    simp only [Umem.kernelDeliver, hring] at hd
    rw [hnew k.ri hr1 (by omega), List.mem_append, List.mem_singleton] at hd
    rcases hd with hd | rfl
    · exact h.rxValid d hd
    · rw [haddr]
      rfl
  · refine List.Perm.trans ?_ h.parts
    rw [List.perm_iff_count]
    intro c
    simp only [Counters.places, Umem.kernelDeliver, XskState.stack, hring]
    rw [hnew k.rcc (by omega) (by omega), hkeep k.ri k.rcc hr1 (by omega)]
    have herase : (s.held.erase chunk).count c + [chunk].count c = s.held.count c := by
      have hperm := List.perm_cons_erase hheld
      rw [hperm.count_eq, List.count_cons, List.count_cons, List.count_nil, Nat.zero_add]
    have hone : descChunks [desc] = [chunk] := descChunks_cons haddr []
    simp only [descChunks_append, hone, List.count_append]
    omega

/-! ## The steps of the process -/

lemma Frames.peekRx (h : Frames k s) (hleft : k.ri = k.rcc) :
    ∃ k', Frames k' (peekRx s).1 ∧ k'.ri = k.rcc ∧ k'.rcc = k.rcc + (peekRx s).2.toNat
      ∧ (peekRx s).2.toNat ≤ 64 ∧ (k.rcc < k.rp → 0 < (peekRx s).2.toNat)
      ∧ k'.rc = k.rc ∧ k'.rp = k.rp ∧ k'.fp = k.fp ∧ k'.fc = k.fc
      ∧ k'.fcp = k.fcp ∧ k'.fcc = k.fcc ∧ k'.fe = k.fe := by
  obtain ⟨hr1, hr2, hr3, hr4, hr5⟩ := h.rxOrder
  -- `xsk_cons_nb_avail` first brings the cached producer up to date if it shows nothing new
  obtain ⟨q, hq1, hq2, hqpos, hq⟩ : ∃ q, k.rcc ≤ q ∧ q ≤ k.rp ∧ (k.rcc < k.rp → k.rcc < q) ∧
      xskConsNbAvail s.rx rxBatchSize
        = ({ s.rx with cachedProd := UInt32.ofNat q }, UInt32.ofNat (min 64 (q - k.rcc))) := by
    have hmin : ∀ n, n ≤ 2048 → (if rxBatchSize < UInt32.ofNat n then rxBatchSize
        else UInt32.ofNat n) = UInt32.ofNat (min 64 n) := by
      intro n hn
      have hn' : (UInt32.ofNat n).toNat = n := by
        rw [UInt32.toNat_ofNat', Nat.mod_eq_of_lt (by omega)]
      have h64 : rxBatchSize.toNat = 64 := rfl
      split_ifs with hlt <;> rw [UInt32.lt_iff_toNat_lt, hn', h64] at hlt
      · rw [Nat.min_eq_left (by omega)]
        rfl
      · rw [Nat.min_eq_right (by omega)]
    by_cases hz : s.rx.cachedProd - s.rx.cachedCons = 0
    · refine ⟨k.rp, by omega, le_rfl, fun h => h, ?_⟩
      simp only [xskConsNbAvail, hz, if_true]
      rw [h.rxProducer, h.rxCachedCons, ofNat_sub_ofNat (by omega), hmin _ (by omega)]
    · have hne : k.rcc ≠ k.rcp := by
        rintro heq
        rw [h.rxCachedProd, h.rxCachedCons, heq, UInt32.sub_self] at hz
        exact hz rfl
      refine ⟨k.rcp, hr3, hr4, fun _ => by omega, ?_⟩
      simp only [xskConsNbAvail, hz, if_false]
      rw [h.rxCachedProd, h.rxCachedCons, ofNat_sub_ofNat hr3, hmin _ (by omega),
        ← h.rxCachedProd, ← h.rxCachedCons]
  have hn : (UInt32.ofNat (min 64 (q - k.rcc))).toNat = min 64 (q - k.rcc) := by
    rw [UInt32.toNat_ofNat', Nat.mod_eq_of_lt (by omega)]
  have hpeek : Umem.peekRx s
      = ({ s with
            rx := { s.rx with
              cachedProd := UInt32.ofNat q
              cachedCons := UInt32.ofNat (k.rcc + min 64 (q - k.rcc)) }
            idxRx := if 0 < min 64 (q - k.rcc) then UInt32.ofNat k.rcc else s.idxRx
            batchLeft := UInt32.ofNat (min 64 (q - k.rcc)) },
          UInt32.ofNat (min 64 (q - k.rcc))) := by
    simp only [Umem.peekRx, xskRingConsPeek, hq]
    have hpos : (0 : UInt32) < UInt32.ofNat (min 64 (q - k.rcc)) ↔ 0 < min 64 (q - k.rcc) := by
      rw [UInt32.lt_iff_toNat_lt, hn]
      rfl
    by_cases h0 : 0 < min 64 (q - k.rcc)
    · rw [if_pos (hpos.mpr h0), if_pos h0, h.rxCachedCons, UInt32.ofNat_add]
    · have hz : min 64 (q - k.rcc) = 0 := by omega
      rw [if_neg (fun hc => h0 (hpos.mp hc)), if_neg h0, hz, Nat.add_zero, ← h.rxCachedCons]
  refine ⟨{ k with rcp := q, rcc := k.rcc + min 64 (q - k.rcc), ri := k.rcc }, ?_, rfl, ?_, ?_, ?_,
    rfl, rfl, rfl, rfl, rfl, rfl, rfl⟩
  · rw [hpeek]
    refine { h with
      rxCachedProd := rfl, rxCachedCons := rfl, batchLeft := ?_, idxRx := ?_,
      rxOrder := ?_, rxValid := ?_, parts := ?_ }
    · simp only [Nat.add_sub_cancel_left]
    · simp only
      intro hlt
      rw [if_pos (by omega)]
    · simp only
      omega
    · intro d hd
      refine h.rxValid d ?_
      rw [hleft]
      exact hd
    · refine List.Perm.trans ?_ h.parts
      rw [List.perm_iff_count]
      intro c
      have hsplit : window s.rx.ring 11 k.rcc k.rp
          = window s.rx.ring 11 k.rcc (k.rcc + min 64 (q - k.rcc))
            ++ window s.rx.ring 11 (k.rcc + min 64 (q - k.rcc)) k.rp :=
        window_append _ _ (by omega) (by omega)
      have hnone : window s.rx.ring 11 k.ri k.rcc = [] := by rw [hleft, window_self]
      simp only [Counters.places, XskState.stack, hnone, hsplit, descChunks_append,
        List.count_append]
      simp only [descChunks, List.filterMap_nil, List.count_nil]
      omega
  · rw [hpeek, hn]
  · rw [hpeek, hn]
    omega
  · intro hlt
    have := hqpos hlt
    rw [hpeek, hn]
    omega

/-- The free entries the process learns of: none if no frame is free (the consumer counter is then
not looked at), else all of them. -/
lemma Frames.stockFrames (h : Frames k s) (hcached : k.fcc = k.fcp) :
    Frames { k with fcc := if s.umemFrameFree = 0 then k.fcc else k.fc + 2048 } (stockFrames s).1
      ∧ (stockFrames s).2
          = UInt32.ofNat (if s.umemFrameFree = 0 then 0 else k.fc + 2048 - k.fcp) := by
  obtain ⟨hf1, hf2, hf3, hf4, hf5⟩ := h.fillOrder
  have hfree := h.free_le
  simp only [numFrames] at hfree
  have hnb : (xskUmemFreeFrames s).toNat = s.umemFrameFree := by
    rw [xskUmemFreeFrames, UInt32.toNat_ofNat', Nat.mod_eq_of_lt (by omega)]
  have hzero : s.fq.cachedCons - s.fq.cachedProd = 0 := by
    rw [h.cachedCons, h.cachedProd, hcached, UInt32.sub_self]
  have hz : (0 : UInt32).toNat = 0 := rfl
  by_cases h0 : s.umemFrameFree = 0
  · have hle : xskUmemFreeFrames s ≤ s.fq.cachedCons - s.fq.cachedProd := by
      rw [hzero, UInt32.le_iff_toNat_le, hnb]
      omega
    rw [Umem.stockFrames, xskProdNbFree_of_le hle, hzero, if_pos h0, if_pos h0]
    exact ⟨{ h with parts := h.parts }, rfl⟩
  · have hle : ¬ xskUmemFreeFrames s ≤ s.fq.cachedCons - s.fq.cachedProd := by
      rw [hzero, UInt32.le_iff_toNat_le, hnb]
      omega
    have hcons : s.fq.consumer + s.fq.size = UInt32.ofNat (k.fc + 2048) := by
      rw [h.consumer, h.fqSize, ← UInt32.ofNat_add]
      rfl
    rw [Umem.stockFrames, xskProdNbFree_of_not_le hle, hcons, if_neg h0, if_neg h0]
    -- named, so that unification does not unfold the addition
    obtain ⟨q, hq⟩ : ∃ q, q = k.fc + 2048 := ⟨_, rfl⟩
    rw [← hq]
    refine ⟨{ h with
      cachedCons := rfl, fillOrder := ⟨hf1, hf2, hf3, by simp only; omega, hq.le⟩,
      parts := h.parts }, ?_⟩
    simp only
    rw [h.cachedProd, ofNat_sub_ofNat (by omega)]

/-- Reserving all that `xsk_prod_nb_free` has announced. -/
lemma Frames.reserveFq (h : Frames k s) (hfe : k.fe = k.fcp) :
    Frames { k with fcp := k.fcc } (reserveFq (UInt32.ofNat (k.fcc - k.fcp)) s).1
      ∧ (reserveFq (UInt32.ofNat (k.fcc - k.fcp)) s).2 = UInt32.ofNat (k.fcc - k.fcp) := by
  obtain ⟨hf1, hf2, hf3, hf4, hf5⟩ := h.fillOrder
  have hfree : s.fq.cachedCons - s.fq.cachedProd = UInt32.ofNat (k.fcc - k.fcp) := by
    rw [h.cachedCons, h.cachedProd, ofNat_sub_ofNat hf4]
  have hnew : UInt32.ofNat k.fcp + UInt32.ofNat (k.fcc - k.fcp) = UInt32.ofNat k.fcc := by
    rw [← UInt32.ofNat_add, Nat.add_sub_cancel' hf4]
  have hres : Umem.reserveFq (UInt32.ofNat (k.fcc - k.fcp)) s
      = ({ s with
            fq := { s.fq with cachedProd := UInt32.ofNat k.fcc }
            idxFq := UInt32.ofNat k.fcp
            fillLeft := UInt32.ofNat (k.fcc - k.fcp) },
          UInt32.ofNat (k.fcc - k.fcp)) := by
    rw [Umem.reserveFq, ← hfree, xskRingProdReserve_cached, hfree, h.cachedProd, hnew]
  rw [hres]
  refine ⟨{ h with
    cachedProd := rfl, fillLeft := by simp only [hfe], idxFq := fun _ => by simp only [hfe],
    fillOrder := ⟨hf1, hf2, by simp only; omega, Nat.le_refl _, hf5⟩, parts := h.parts }, rfl⟩

/-- Taking a frame off the stack. -/
lemma stack_alloc {n : ℕ} (hn : s.umemFrameFree = n + 1) :
    s.stack = (xskAllocUmemFrame s).1.stack ++ [(xskAllocUmemFrame s).2]
      ∧ (xskAllocUmemFrame s).1.umemFrameFree = n := by
  have halloc : xskAllocUmemFrame s
      = ({ s with
            umemFrameFree := n
            umemFrameAddr := Function.update s.umemFrameAddr n invalidUmemFrame },
          s.umemFrameAddr n) := by
    unfold xskAllocUmemFrame
    rw [hn]
  have hkeep : (List.range n).map (Function.update s.umemFrameAddr n invalidUmemFrame)
      = (List.range n).map s.umemFrameAddr := by
    refine List.map_congr_left fun i hi => ?_
    exact Function.update_of_ne (Nat.ne_of_lt (List.mem_range.mp hi)) _ _
  rw [halloc, XskState.stack, XskState.stack]
  simp only [hkeep, hn, List.range_succ, List.map_append, List.map_cons, List.map_nil, and_self]

/-- One turn of the fill loop.  A frame leaves the stack for the ring if there is one, else the ring
gets an entry that names no chunk. -/
lemma Frames.fillOne (h : Frames k s) (hlt : k.fe < k.fcp) :
    Frames { k with fe := k.fe + 1 } (fillOne s)
      ∧ (fillOne s).umemFrameFree = s.umemFrameFree - 1
      ∧ ∃ a, (fillOne s).trace = s.trace ++ [.filled a]
          ∧ ((chunkOf a).isSome ↔ 0 < s.umemFrameFree) := by
  obtain ⟨hf1, hf2, hf3, hf4, hf5⟩ := h.fillOrder
  have hidx := h.idxFq hlt
  have hleft : s.fillLeft - 1 = UInt32.ofNat (k.fcp - (k.fe + 1)) := by
    have hsub := ofNat_sub_ofNat (a := k.fcp - k.fe) (b := 1) (by omega)
    rw [h.fillLeft, ← Nat.sub_sub, ← hsub]
    rfl
  have hslot : s.idxFq &&& s.fq.mask = slot 11 k.fe := by rw [hidx, h.fqMask, slot]
  have hwin : ∀ a, window (Function.update s.fq.ring (slot 11 k.fe) a) 11 k.fc (k.fe + 1)
      = window s.fq.ring 11 k.fc k.fe ++ [a] := by
    intro a
    rw [window_concat _ _ (by omega), window_update _ (by omega) a le_rfl (by omega),
      Function.update_self]
  cases hn : s.umemFrameFree with
  | zero =>
      have halloc : xskAllocUmemFrame s = (s, invalidUmemFrame) := by
        unfold xskAllocUmemFrame
        rw [hn]
      have hone : Umem.fillOne s
          = { s with
              fq := { s.fq with
                ring := Function.update s.fq.ring (slot 11 k.fe) invalidUmemFrame }
              idxFq := UInt32.ofNat (k.fe + 1)
              fillLeft := UInt32.ofNat (k.fcp - (k.fe + 1))
              trace := s.trace ++ [.filled invalidUmemFrame] } := by
        simp only [Umem.fillOne, halloc, XskRing.write, hslot, hleft]
        rw [hidx, ofNat_succ]
      rw [hone]
      refine ⟨{ h with
        fillLeft := rfl, idxFq := fun _ => rfl,
        fillOrder := ⟨hf1, by simp only; omega, by simp only; omega, hf4, hf5⟩, parts := ?_ },
        by simp [hn], invalidUmemFrame, rfl, by simp [chunkOf_invalid]⟩
      refine List.Perm.trans ?_ h.parts
      rw [List.perm_iff_count]
      intro c
      simp only [Counters.places, XskState.stack, hwin, List.filterMap_append,
        List.filterMap_cons_none chunkOf_invalid, List.filterMap_nil, List.append_nil]
  | succ n =>
      obtain ⟨hstack, hfree⟩ := stack_alloc hn
      have hmem : (xskAllocUmemFrame s).2 ∈ s.stack := by
        rw [hstack]
        exact List.mem_append_right _ (List.mem_singleton.mpr rfl)
      obtain ⟨c, hc⟩ := Option.isSome_iff_exists.mp (h.stackValid _ hmem)
      have hsame : (xskAllocUmemFrame s).1 = { s with
          umemFrameFree := n
          umemFrameAddr := Function.update s.umemFrameAddr n invalidUmemFrame } := by
        unfold xskAllocUmemFrame
        rw [hn]
      have hone : Umem.fillOne s
          = { (xskAllocUmemFrame s).1 with
              fq := { s.fq with
                ring := Function.update s.fq.ring (slot 11 k.fe) (xskAllocUmemFrame s).2 }
              idxFq := UInt32.ofNat (k.fe + 1)
              fillLeft := UInt32.ofNat (k.fcp - (k.fe + 1))
              trace := s.trace ++ [.filled (xskAllocUmemFrame s).2] } := by
        simp only [Umem.fillOne, hsame, XskRing.write, hslot, hleft]
        rw [hidx, ofNat_succ]
      rw [hone]
      refine ⟨{
        fqMask := h.fqMask, fqSize := h.fqSize, rxMask := ?_, rxSize := ?_,
        producer := h.producer, consumer := h.consumer, cachedProd := h.cachedProd,
        cachedCons := h.cachedCons, fillLeft := rfl, idxFq := fun _ => rfl, rxProducer := ?_,
        rxConsumer := ?_, rxCachedProd := ?_, rxCachedCons := ?_, batchLeft := ?_, idxRx := ?_,
        fillOrder := ⟨hf1, by simp only; omega, by simp only; omega, hf4, hf5⟩,
        rxOrder := h.rxOrder, stackValid := ?_, rxValid := ?_, parts := ?_, assertOk := ?_ },
        hfree, _, rfl, by simp [hc]⟩
      · rw [hsame]; exact h.rxMask
      · rw [hsame]; exact h.rxSize
      · rw [hsame]; exact h.rxProducer
      · rw [hsame]; exact h.rxConsumer
      · rw [hsame]; exact h.rxCachedProd
      · rw [hsame]; exact h.rxCachedCons
      · rw [hsame]; exact h.batchLeft
      · rw [hsame]; exact h.idxRx
      · intro a ha
        refine h.stackValid a ?_
        rw [hstack]
        exact List.mem_append_left _ ha
      · rw [hsame]; exact h.rxValid
      · refine List.Perm.trans ?_ h.parts
        rw [List.perm_iff_count]
        intro d
        have hrx : (xskAllocUmemFrame s).1.rx = s.rx := by rw [hsame]
        have hheld : (xskAllocUmemFrame s).1.held = s.held := by rw [hsame]
        have hchunks : s.stack.filterMap chunkOf
            = (xskAllocUmemFrame s).1.stack.filterMap chunkOf ++ [c] := by
          rw [hstack, List.filterMap_append, List.filterMap_cons_some hc, List.filterMap_nil]
        simp only [Counters.places, hwin, hchunks, hrx, hheld, List.filterMap_append,
          List.filterMap_cons_some hc, List.filterMap_nil, List.count_append]
        show (List.filterMap chunkOf (xskAllocUmemFrame s).1.stack).count d + _ + _ + _ + _ = _
        omega
      · rw [hsame]; exact h.assertOk

lemma Frames.submit (h : Frames k s) (hfe : k.fe = k.fcp) {n : ℕ} (hn : k.fp + n = k.fcp) :
    Frames { k with fp := k.fcp } { s with fq := xskRingProdSubmit s.fq (UInt32.ofNat n) } := by
  obtain ⟨hf1, hf2, hf3, hf4, hf5⟩ := h.fillOrder
  refine { h with
    producer := ?_, fillOrder := ⟨by simp only; omega, by simp only; omega, hf3, hf4, hf5⟩,
    parts := h.parts }
  show s.fq.producer + UInt32.ofNat n = _
  rw [h.producer, ← UInt32.ofNat_add, hn]

/-- Processing one packet of the batch puts its frame back on the stack; the assertion of
`xsk_free_umem_frame` cannot fail, because the frame is not on the stack yet. -/
lemma Frames.freeNext (h : Frames k s) (hlt : k.ri < k.rcc) {t : List XskEvent} :
    Frames { k with ri := k.ri + 1 }
        (xskFreeUmemFrame { (nextDesc s).1 with trace := t } (nextDesc s).2.addr)
      ∧ (xskFreeUmemFrame { (nextDesc s).1 with trace := t } (nextDesc s).2.addr).umemFrameFree
          = s.umemFrameFree + 1 := by
  obtain ⟨hr1, hr2, hr3, hr4, hr5⟩ := h.rxOrder
  have hidx := h.idxRx hlt
  have hdesc : (nextDesc s).2 = s.rx.ring (slot 11 k.ri) := by
    rw [nextDesc, XskRing.entry, hidx, h.rxMask, slot]
  have hcount := h.count
  have hroom : s.umemFrameFree < numFrames := by omega
  have hcons : window s.rx.ring 11 k.ri k.rcc
      = s.rx.ring (slot 11 k.ri) :: window s.rx.ring 11 (k.ri + 1) k.rcc := window_cons _ _ hlt
  have hmem : s.rx.ring (slot 11 k.ri) ∈ window s.rx.ring 11 k.ri k.rp := by
    rw [window_cons _ _ (by omega)]
    exact List.mem_cons_self ..
  obtain ⟨c, hc⟩ := Option.isSome_iff_exists.mp (h.rxValid _ hmem)
  set a := (s.rx.ring (slot 11 k.ri)).addr with ha
  have hone : xskFreeUmemFrame { (nextDesc s).1 with trace := t } (nextDesc s).2.addr
      = { s with
          idxRx := UInt32.ofNat (k.ri + 1)
          batchLeft := UInt32.ofNat (k.rcc - (k.ri + 1))
          trace := t
          umemFrameAddr := Function.update s.umemFrameAddr s.umemFrameFree a
          umemFrameFree := s.umemFrameFree + 1 } := by
    have hleft : s.batchLeft - 1 = UInt32.ofNat (k.rcc - (k.ri + 1)) := by
      have hsub := ofNat_sub_ofNat (a := k.rcc - k.ri) (b := 1) (by omega)
      rw [h.batchLeft, ← Nat.sub_sub, ← hsub]
      rfl
    rw [xskFreeUmemFrame, hdesc]
    simp only [nextDesc, hroom, if_true, hleft]
    rw [hidx, ofNat_succ]
  have hstack : (List.range (s.umemFrameFree + 1)).map
      (Function.update s.umemFrameAddr s.umemFrameFree a) = s.stack ++ [a] := by
    rw [List.range_succ, List.map_append, List.map_cons, List.map_nil, Function.update_self,
      XskState.stack]
    congr 1
    refine List.map_congr_left fun i hi => ?_
    exact Function.update_of_ne (Nat.ne_of_lt (List.mem_range.mp hi)) _ _
  rw [hone]
  refine ⟨{ h with
    batchLeft := rfl, idxRx := fun _ => rfl,
    rxOrder := ⟨by simp only; omega, hlt, hr3, hr4, hr5⟩, stackValid := ?_, rxValid := ?_,
    parts := ?_ }, rfl⟩
  · intro b hb
    rw [XskState.stack] at hb
    simp only at hb
    rw [hstack, List.mem_append, List.mem_singleton] at hb
    rcases hb with hb | rfl
    · exact h.stackValid b hb
    · rw [hc]
      rfl
  · intro d hd
    refine h.rxValid d ?_
    rw [window_cons _ _ (by omega : k.ri < k.rp)]
    exact List.mem_cons_of_mem _ hd
  · refine List.Perm.trans ?_ h.parts
    rw [List.perm_iff_count]
    intro d
    simp only [Counters.places, hcons]
    rw [XskState.stack]
    simp only [hstack, descChunks_cons hc, List.filterMap_append, List.filterMap_cons_some hc,
      List.filterMap_nil, List.count_append, List.count_cons, List.count_nil]
    omega

lemma Frames.release (h : Frames k s) (hri : k.ri = k.rcc) {n : ℕ} (hn : k.rc + n = k.rcc) :
    Frames { k with rc := k.rcc } { s with rx := xskRingConsRelease s.rx (UInt32.ofNat n) } := by
  obtain ⟨hr1, hr2, hr3, hr4, hr5⟩ := h.rxOrder
  refine { h with
    rxConsumer := ?_, rxOrder := ⟨by simp only; omega, hr2, hr3, hr4, by simp only; omega⟩,
    parts := h.parts }
  show s.rx.consumer + UInt32.ofNat n = _
  rw [h.rxConsumer, ← UInt32.ofNat_add, hn]

end Invariant

end Umem
