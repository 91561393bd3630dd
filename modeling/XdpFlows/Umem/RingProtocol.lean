import XdpFlows.Core.BoundedQueue
import XdpFlows.Umem.XskRing

/-!
# The ring functions as a queue

Both ends of an AF_XDP ring driven by the functions of `libbpf/src/xsk.h`: one party reserves, writes
and submits, the other peeks, reads and releases, in any interleaving.  Each party has its own two
cached counters; the two counters `*producer` and `*consumer` and the entries are shared.

`SharedRing.perform` runs one function, `Allowed` is what a caller has to respect: it writes only
entries it has reserved and not submitted, reads only entries it was lent and has not released, and
never submits or releases more than it has.  `Represents` connects the 32-bit counters, the slots and
the cached counters to the queue of `BoundedQueue`.
-/

namespace Umem

open RingWindow BoundedQueue

variable {α : Type}

/-! ## Two parties and one ring -/

/-- The shared memory of a ring and the cached counters of the two parties. -/
structure SharedRing (α : Type) where
  producer : UInt32
  consumer : UInt32
  ring : UInt32 → α
  mask : UInt32
  size : UInt32
  prodCachedProd : UInt32
  prodCachedCons : UInt32
  consCachedProd : UInt32
  consCachedCons : UInt32

namespace SharedRing

/-- `struct xsk_ring_prod` of the producing party. -/
def prodSide (s : SharedRing α) : XskRing α where
  cachedProd := s.prodCachedProd
  cachedCons := s.prodCachedCons
  mask := s.mask
  size := s.size
  producer := s.producer
  consumer := s.consumer
  ring := s.ring

/-- `struct xsk_ring_cons` of the consuming party. -/
def consSide (s : SharedRing α) : XskRing α where
  cachedProd := s.consCachedProd
  cachedCons := s.consCachedCons
  mask := s.mask
  size := s.size
  producer := s.producer
  consumer := s.consumer
  ring := s.ring

/-- What the producing party has done to its structure and, through it, to the shared memory. -/
def withProd (s : SharedRing α) (r : XskRing α) : SharedRing α :=
  { s with
    prodCachedProd := r.cachedProd
    prodCachedCons := r.cachedCons
    producer := r.producer
    consumer := r.consumer
    ring := r.ring }

/-- What the consuming party has done. -/
def withCons (s : SharedRing α) (r : XskRing α) : SharedRing α :=
  { s with
    consCachedProd := r.cachedProd
    consCachedCons := r.cachedCons
    producer := r.producer
    consumer := r.consumer
    ring := r.ring }

/-- A ring of `2 ^ k` entries as `xsk_umem__create` and `xsk_socket__create` leave it. -/
def fresh (k : ℕ) (ring : UInt32 → α) : SharedRing α where
  producer := 0
  consumer := 0
  ring := ring
  mask := UInt32.ofNat (2 ^ k - 1)
  size := UInt32.ofNat (2 ^ k)
  prodCachedProd := 0
  prodCachedCons := UInt32.ofNat (2 ^ k)
  consCachedProd := 0
  consCachedCons := 0

end SharedRing

/-- A call by either party.  `idx` is the index as the caller's variable holds it. -/
inductive RingCall (α : Type) where
  | reserve (nb idx : UInt32)
  | write (idx : UInt32) (x : α)
  | submit (nb : UInt32)
  | peek (nb idx : UInt32)
  | read (idx : UInt32)
  | release (nb : UInt32)
deriving DecidableEq, Repr

/-- One call, and what an observer sees of it. -/
def SharedRing.perform (s : SharedRing α) : RingCall α → SharedRing α × Event UInt32 α
  | .reserve nb idx =>
      let (r, granted, idx') := xskRingProdReserve s.prodSide nb idx
      (s.withProd r, if granted = nb then .reserve nb.toNat idx' else .refuse nb.toNat)
  | .write idx x => (s.withProd (s.prodSide.write idx x), .write idx x)
  | .submit nb =>
      (s.withProd (xskRingProdSubmit s.prodSide nb),
        .submit (s.prodSide.entries s.producer (s.producer + nb)))
  | .peek nb idx =>
      let (r, got, idx') := xskRingConsPeek s.consSide nb idx
      (s.withCons r, if got = 0 then .empty nb.toNat else .peek nb.toNat got.toNat idx')
  | .read idx => (s, .read idx (s.consSide.entry idx))
  | .release nb => (s.withCons (xskRingConsRelease s.consSide nb), .release nb.toNat)

/-- What a caller has to respect. -/
def SharedRing.Allowed (s : SharedRing α) : RingCall α → Prop
  | .reserve _ _ => True
  | .write idx _ => idx - s.producer < s.prodCachedProd - s.producer
  | .submit nb => nb ≤ s.prodCachedProd - s.producer
  | .peek _ _ => True
  | .read idx => idx - s.consumer < s.consCachedCons - s.consumer
  | .release nb => nb ≤ s.consCachedCons - s.consumer

instance instDecidableAllowed (s : SharedRing α) (c : RingCall α) : Decidable (s.Allowed c) :=
  match c with
  | .reserve _ _ | .peek _ _ => inferInstanceAs (Decidable True)
  | .write idx _ => inferInstanceAs (Decidable (idx - s.producer < s.prodCachedProd - s.producer))
  | .submit nb => inferInstanceAs (Decidable (nb ≤ s.prodCachedProd - s.producer))
  | .read idx => inferInstanceAs (Decidable (idx - s.consumer < s.consCachedCons - s.consumer))
  | .release nb => inferInstanceAs (Decidable (nb ≤ s.consCachedCons - s.consumer))

/-- The calls of both parties, interleaved, from a fresh ring. -/
inductive RingRun (k : ℕ) (ring : UInt32 → α) : List (Event UInt32 α) → SharedRing α → Prop where
  | start : RingRun k ring [] (.fresh k ring)
  | call {events : List (Event UInt32 α)} {s : SharedRing α} (h : RingRun k ring events s)
      (c : RingCall α) (hc : s.Allowed c) :
      RingRun k ring (events ++ [(s.perform c).2]) (s.perform c).1

/-! ## One function at a time, with unbounded counters -/

section Functions

variable {r : XskRing α} {p limit top c seen tail : ℕ}

/-- `xsk_ring_prod__reserve` grants a request exactly when the ring has room for it at the moment of
the call, whatever the cached consumer counter shows. -/
lemma xskRingProdReserve_exact (hp : r.cachedProd = UInt32.ofNat p)
    (hlimit : r.cachedCons = UInt32.ofNat limit) (htop : r.consumer + r.size = UInt32.ofNat top)
    (hpl : p ≤ limit) (hlt : limit ≤ top) (hspan : top - p < 2 ^ 32) (nb idx : UInt32) :
    (p + nb.toNat ≤ top ∧ ∃ limit', p + nb.toNat ≤ limit' ∧ limit' ≤ top
        ∧ xskRingProdReserve r nb idx
          = ({ r with
              cachedProd := UInt32.ofNat (p + nb.toNat)
              cachedCons := UInt32.ofNat limit' }, nb, UInt32.ofNat p))
      ∨ (top < p + nb.toNat ∧ xskRingProdReserve r nb idx
          = ({ r with cachedCons := UInt32.ofNat top }, 0, idx)) := by
  have hnext : r.cachedProd + nb = UInt32.ofNat (p + nb.toNat) := by
    rw [hp, UInt32.ofNat_add, UInt32.ofNat_toNat]
  by_cases hcached : nb ≤ r.cachedCons - r.cachedProd
  · -- the cached counter shows enough free entries
    have hle : p + nb.toNat ≤ limit := by
      rw [hlimit, hp] at hcached
      exact toNat_le_distance hpl (by omega) hcached
    refine Or.inl ⟨by omega, limit, hle, hlt, ?_⟩
    rw [xskRingProdReserve, xskProdNbFree_of_le hcached]
    simp only
    rw [if_neg (UInt32.not_lt.mpr hcached), hnext, ← hlimit, hp]
  · rw [xskRingProdReserve, xskProdNbFree_of_not_le hcached, htop]
    simp only
    have hfree : (UInt32.ofNat top - r.cachedProd).toNat = top - p := by
      rw [hp, toNat_distance (by omega) hspan]
    by_cases hroom : UInt32.ofNat top - r.cachedProd < nb
    · refine Or.inr ⟨?_, by rw [if_pos hroom]⟩
      rw [UInt32.lt_iff_toNat_lt, hfree] at hroom
      omega
    · rw [if_neg hroom, hnext]
      rw [UInt32.lt_iff_toNat_lt, hfree] at hroom
      exact Or.inl ⟨by omega, top, by omega, le_rfl, by rw [hp]⟩

/-- `xsk_ring_cons__peek` lends entries that have been submitted, no more than were asked for, and
at least one if there is one. -/
lemma xskRingConsPeek_exact (hc : r.cachedCons = UInt32.ofNat c)
    (hseen : r.cachedProd = UInt32.ofNat seen) (htail : r.producer = UInt32.ofNat tail)
    (hcs : c ≤ seen) (hst : seen ≤ tail) (hspan : tail - c < 2 ^ 32) (nb idx : UInt32) :
    ∃ seen' got, c + got ≤ seen' ∧ seen' ≤ tail ∧ got ≤ nb.toNat
      ∧ (0 < nb.toNat → c < tail → 0 < got)
      ∧ xskRingConsPeek r nb idx
        = ({ r with
            cachedProd := UInt32.ofNat seen'
            cachedCons := UInt32.ofNat (c + got) }, UInt32.ofNat got,
          if got = 0 then idx else UInt32.ofNat c) := by
  -- the producer counter is read again only if the cached one shows nothing
  obtain ⟨seen', hcs', hst', hpos, havail⟩ : ∃ seen', c ≤ seen' ∧ seen' ≤ tail
      ∧ (c < tail → c < seen') ∧ xskConsNbAvail r nb
        = ({ r with cachedProd := UInt32.ofNat seen' },
          if nb < UInt32.ofNat (seen' - c) then nb else UInt32.ofNat (seen' - c)) := by
    by_cases hz : r.cachedProd - r.cachedCons = 0
    · refine ⟨tail, by omega, le_rfl, fun h => h, ?_⟩
      simp only [xskConsNbAvail, hz, if_true]
      rw [htail, hc, ofNat_sub_ofNat (by omega)]
    · have hne : c ≠ seen := by
        rintro rfl
        rw [hc, hseen, UInt32.sub_self] at hz
        exact hz rfl
      refine ⟨seen, hcs, hst, fun _ => by omega, ?_⟩
      simp only [xskConsNbAvail, hz, if_false]
      rw [← ofNat_sub_ofNat hcs, ← hseen, ← hc]
  have hdist : (UInt32.ofNat (seen' - c)).toNat = seen' - c := by
    rw [UInt32.toNat_ofNat', Nat.mod_eq_of_lt (by omega)]
  obtain ⟨got, hgot, hentries⟩ : ∃ got, got = min nb.toNat (seen' - c)
      ∧ (if nb < UInt32.ofNat (seen' - c) then nb else UInt32.ofNat (seen' - c))
        = UInt32.ofNat got := by
    refine ⟨_, rfl, ?_⟩
    split_ifs with hlt <;> rw [UInt32.lt_iff_toNat_lt, hdist] at hlt
    · rw [Nat.min_eq_left (by omega), UInt32.ofNat_toNat]
    · rw [Nat.min_eq_right (by omega)]
  have hval : (UInt32.ofNat got).toNat = got := by
    rw [UInt32.toNat_ofNat', Nat.mod_eq_of_lt (by omega)]
  refine ⟨seen', got, by omega, hst', by omega, fun hnb hlt => ?_, ?_⟩
  · have := hpos hlt
    omega
  · rw [xskRingConsPeek, havail, hentries]
    simp only
    have hiff : (0 : UInt32) < UInt32.ofNat got ↔ 0 < got := by
      rw [UInt32.lt_iff_toNat_lt, hval]
      rfl
    by_cases h0 : 0 < got
    · rw [if_pos (hiff.mpr h0), if_neg (by omega), hc, UInt32.ofNat_add]
    · have hz : got = 0 := by omega
      rw [if_neg (fun h => h0 (hiff.mp h)), if_pos hz, hz, Nat.add_zero, ← hc]

end Functions

/-! ## The queue behind the ring -/

/-- The ring `s` is the queue `q`: the four counters are residues of the numbers of entries released,
lent, submitted and reserved, the slots hold the entries from the first one not released to the last
one reserved, and the cached counters of the other party lag behind by no more than they may. -/
structure Represents (k : ℕ) (s : SharedRing α) (q : BoundedQueue α (2 ^ k)) : Prop where
  mask : s.mask = UInt32.ofNat (2 ^ k - 1)
  size : s.size = UInt32.ofNat (2 ^ k)
  producer : s.producer = UInt32.ofNat q.sent.length
  consumer : s.consumer = UInt32.ofNat q.head
  reserved : s.prodCachedProd = UInt32.ofNat (q.sent.length + q.draft.length)
  lent : s.consCachedCons = UInt32.ofNat q.lent
  limit : ∃ n, s.prodCachedCons = UInt32.ofNat n ∧ q.sent.length + q.draft.length ≤ n
    ∧ n ≤ q.head + 2 ^ k
  seen : ∃ n, s.consCachedProd = UInt32.ofNat n ∧ q.lent ≤ n ∧ n ≤ q.sent.length
  entries : window s.ring k q.head (q.sent.length + q.draft.length) = (q.sent ++ q.draft).drop q.head

section Refinement

variable {k : ℕ} {s : SharedRing α} {q : BoundedQueue α (2 ^ k)}

lemma represents_fresh (k : ℕ) (ring : UInt32 → α) :
    Represents k (.fresh k ring) (BoundedQueue.new α (2 ^ k)) where
  mask := rfl
  size := rfl
  producer := rfl
  consumer := rfl
  reserved := rfl
  lent := rfl
  limit := ⟨2 ^ k, rfl, Nat.zero_le _, by simp [BoundedQueue.new]⟩
  seen := ⟨0, rfl, le_rfl, le_rfl⟩
  entries := window_self ring k 0

lemma two_pow_lt (hk : k ≤ 31) : 2 ^ k < 2 ^ 32 :=
  Nat.pow_lt_pow_right (by decide) (by omega)

/-- The distances between the counters, for `omega`. -/
lemma BoundedQueue.bounds (q : BoundedQueue α (2 ^ k)) :
    q.head ≤ q.lent ∧ q.lent ≤ q.sent.length
      ∧ q.sent.length + q.draft.length ≤ q.head + 2 ^ k :=
  ⟨q.head_le_lent, q.lent_le_sent, q.room⟩

lemma Represents.reserve (h : Represents k s q) (hk : k ≤ 31) (nb idx : UInt32) :
    ∃ (e : Event ℕ α) (q' : BoundedQueue α (2 ^ k)), Step q e q'
      ∧ (s.perform (.reserve nb idx)).2 = e.renumber UInt32.ofNat
      ∧ Represents k (s.perform (.reserve nb idx)).1 q' := by
  obtain ⟨hb1, hb2, hb3⟩ := BoundedQueue.bounds q
  have hpow := two_pow_lt hk
  obtain ⟨limit, hlimit, hpl, hlt⟩ := h.limit
  have htop : s.prodSide.consumer + s.prodSide.size = UInt32.ofNat (q.head + 2 ^ k) := by
    rw [UInt32.ofNat_add, ← h.consumer, ← h.size]
    rfl
  rcases xskRingProdReserve_exact h.reserved hlimit htop hpl hlt (by omega) nb idx with
    ⟨hroom, limit', hle, hle', heq⟩ | ⟨hfull, heq⟩
  · -- what the reserved slots hold is whatever was left in them
    set garbage := window s.ring k (q.sent.length + q.draft.length)
      (q.sent.length + q.draft.length + nb.toNat) with hgarbage
    have hlen : garbage.length = nb.toNat := by
      rw [hgarbage, length_window, Nat.add_sub_cancel_left]
    have hall : (q.draft ++ garbage).length = q.draft.length + nb.toNat := by
      rw [List.length_append, hlen]
    refine ⟨.reserve nb.toNat (q.sent.length + q.draft.length),
      { q with draft := q.draft ++ garbage, room := by omega }, ?_, ?_, ?_⟩
    · rw [← hlen]
      exact .reserve rfl rfl rfl rfl
    · simp only [SharedRing.perform, heq, if_true, Event.renumber]
    · simp only [SharedRing.perform, heq]
      refine { h with reserved := ?_, limit := ⟨limit', rfl, by simp only; omega, hle'⟩, entries := ?_ }
      · simp only [SharedRing.withProd, hall, Nat.add_assoc]
      · simp only [SharedRing.withProd, SharedRing.prodSide, hall]
        have hdrop : (q.sent ++ q.draft ++ garbage).drop q.head
            = (q.sent ++ q.draft).drop q.head ++ garbage :=
          List.drop_append_of_le_length (by rw [List.length_append]; omega)
        rw [← Nat.add_assoc, window_append _ _ (by omega : q.head ≤ q.sent.length + q.draft.length)
          (Nat.le_add_right _ _), h.entries, ← List.append_assoc, hdrop]
  · have hne : (0 : UInt32) ≠ nb := by
      rintro rfl
      have hz : (0 : UInt32).toNat = 0 := rfl
      omega
    refine ⟨.refuse nb.toNat, q, .refuse (by omega), ?_, ?_⟩
    · simp only [SharedRing.perform, heq, if_neg hne, Event.renumber]
    · simp only [SharedRing.perform, heq]
      exact { h with limit := ⟨q.head + 2 ^ k, rfl, hb3, le_rfl⟩ }

lemma Represents.write (h : Represents k s q) (hk : k ≤ 31) {idx : UInt32} (x : α)
    (hidx : idx - s.producer < s.prodCachedProd - s.producer) :
    ∃ (e : Event ℕ α) (q' : BoundedQueue α (2 ^ k)), Step q e q'
      ∧ (s.perform (.write idx x)).2 = e.renumber UInt32.ofNat
      ∧ Represents k (s.perform (.write idx x)).1 q' := by
  obtain ⟨hb1, hb2, hb3⟩ := BoundedQueue.bounds q
  have hpow := two_pow_lt hk
  rw [h.producer, h.reserved] at hidx
  obtain ⟨j, hj, rfl⟩ := exists_counter (Nat.le_add_right _ _) (by omega) hidx
  refine ⟨.write (q.sent.length + j) x,
    { q with draft := q.draft.set j x, room := by rw [List.length_set]; exact q.room },
    .write (by omega) rfl rfl rfl rfl, rfl, ?_⟩
  have hring : (s.perform (.write (UInt32.ofNat (q.sent.length + j)) x)).1.ring
      = Function.update s.ring (slot k (q.head + (q.sent.length - q.head + j))) x := by
    have hn : q.head + (q.sent.length - q.head + j) = q.sent.length + j := by omega
    rw [hn, slot, ← h.mask]
    rfl
  refine { h with reserved := ?_, limit := ?_, entries := ?_ }
  · simp only [List.length_set]
    exact h.reserved
  · simp only [List.length_set]
    exact h.limit
  · simp only [hring, List.length_set]
    rw [window_set _ (by omega) x (by omega) (by omega), h.entries, List.set_drop,
      List.set_append_right _ _ (by omega)]
    congr 3
    omega

lemma Represents.submit (h : Represents k s q) (hk : k ≤ 31) {nb : UInt32}
    (hnb : nb ≤ s.prodCachedProd - s.producer) :
    ∃ (e : Event ℕ α) (q' : BoundedQueue α (2 ^ k)), Step q e q'
      ∧ (s.perform (.submit nb)).2 = e.renumber UInt32.ofNat
      ∧ Represents k (s.perform (.submit nb)).1 q' := by
  obtain ⟨hb1, hb2, hb3⟩ := BoundedQueue.bounds q
  have hpow := two_pow_lt hk
  rw [h.producer, h.reserved] at hnb
  have hle := toNat_le_distance (Nat.le_add_right _ _) (by omega) hnb
  have htake : (q.draft.take nb.toNat).length = nb.toNat := by
    rw [List.length_take]
    omega
  have hnext : s.producer + nb = UInt32.ofNat (q.sent.length + nb.toNat) := by
    rw [h.producer, UInt32.ofNat_add, UInt32.ofNat_toNat]
  -- the entries submitted are the first ones of the draft
  have hxs : s.prodSide.entries s.producer (s.producer + nb) = q.draft.take nb.toNat := by
    have hdraft : window s.ring k q.sent.length (q.sent.length + q.draft.length) = q.draft := by
      have hsplit := window_append s.ring k (by omega : q.head ≤ q.sent.length)
        (Nat.le_add_right q.sent.length q.draft.length)
      rw [h.entries, List.drop_append_of_le_length (by omega)] at hsplit
      refine (List.append_inj_right hsplit ?_).symm
      rw [List.length_drop, length_window]
    have hcut := window_append s.ring k (Nat.le_add_right q.sent.length nb.toNat) hle
    rw [hdraft] at hcut
    rw [XskRing.entries, hnext, h.producer]
    have hslice : RingWindow.slice s.ring s.mask (UInt32.ofNat q.sent.length)
        (UInt32.ofNat (q.sent.length + nb.toNat))
          = window s.ring k q.sent.length (q.sent.length + nb.toNat) := by
      rw [h.mask, slice_eq_window _ _ (by omega) (by omega)]
    refine Eq.trans hslice ?_
    rw [hcut, List.take_left']
    rw [length_window, Nat.add_sub_cancel_left]
  refine ⟨.submit (q.draft.take nb.toNat),
    { q with
      sent := q.sent ++ q.draft.take nb.toNat
      draft := q.draft.drop nb.toNat
      lent_le_sent := by rw [List.length_append]; omega
      room := by rw [List.length_append, List.length_drop]; omega },
    .submit rfl (List.take_append_drop _ _).symm rfl rfl, ?_, ?_⟩
  · show Event.submit (s.prodSide.entries s.producer (s.producer + nb)) = _
    rw [hxs]
    rfl
  · have htotal : (q.sent ++ q.draft.take nb.toNat).length + (q.draft.drop nb.toNat).length
        = q.sent.length + q.draft.length := by
      rw [List.length_append, List.length_drop]
      omega
    refine { h with producer := ?_, reserved := ?_, limit := ?_, seen := ?_, entries := ?_ }
    · simp only [List.length_append, htake]
      exact hnext
    · simp only [htotal]
      exact h.reserved
    · simp only [htotal]
      exact h.limit
    · obtain ⟨n, hn, hln, hns⟩ := h.seen
      refine ⟨n, hn, hln, ?_⟩
      rw [List.length_append]
      omega
    · simp only [htotal, List.append_assoc, List.take_append_drop]
      exact h.entries

lemma Represents.peek (h : Represents k s q) (hk : k ≤ 31) (nb idx : UInt32) :
    ∃ (e : Event ℕ α) (q' : BoundedQueue α (2 ^ k)), Step q e q'
      ∧ (s.perform (.peek nb idx)).2 = e.renumber UInt32.ofNat
      ∧ Represents k (s.perform (.peek nb idx)).1 q' := by
  obtain ⟨hb1, hb2, hb3⟩ := BoundedQueue.bounds q
  have hpow := two_pow_lt hk
  obtain ⟨seen, hseen, hls, hst⟩ := h.seen
  obtain ⟨seen', got, hle, hle', hgot, hpos, heq⟩ :=
    xskRingConsPeek_exact (r := s.consSide) h.lent hseen h.producer hls hst (by omega) nb idx
  have hval : (UInt32.ofNat got).toNat = got := by
    rw [UInt32.toNat_ofNat', Nat.mod_eq_of_lt (by omega)]
  have hzero : UInt32.ofNat got = 0 ↔ got = 0 := by
    rw [← UInt32.toNat_inj, hval]
    rfl
  by_cases h0 : got = 0
  · subst h0
    refine ⟨.empty nb.toNat, q, .empty ?_, ?_, ?_⟩
    · rcases Nat.eq_zero_or_pos nb.toNat with hz | hnb
      · exact Or.inl hz
      · exact Or.inr (by have := hpos hnb; omega)
    · simp only [SharedRing.perform, heq, hzero.mpr rfl, if_true, Event.renumber]
    · simp only [SharedRing.perform, heq]
      exact { h with lent := rfl, seen := ⟨seen', rfl, by omega, hle'⟩ }
  · refine ⟨.peek nb.toNat got q.lent,
      { q with lent := q.lent + got, head_le_lent := by omega, lent_le_sent := by omega },
      .peek (by omega) hgot rfl rfl rfl rfl, ?_, ?_⟩
    · simp only [SharedRing.perform, heq, hzero, if_neg h0, hval, Event.renumber]
    · simp only [SharedRing.perform, heq]
      exact { h with lent := rfl, seen := ⟨seen', rfl, hle, hle'⟩ }

lemma Represents.read (h : Represents k s q) (hk : k ≤ 31) {idx : UInt32}
    (hidx : idx - s.consumer < s.consCachedCons - s.consumer) :
    ∃ (e : Event ℕ α) (q' : BoundedQueue α (2 ^ k)), Step q e q'
      ∧ (s.perform (.read idx)).2 = e.renumber UInt32.ofNat
      ∧ Represents k (s.perform (.read idx)).1 q' := by
  obtain ⟨hb1, hb2, hb3⟩ := BoundedQueue.bounds q
  have hpow := two_pow_lt hk
  rw [h.consumer, h.lent] at hidx
  obtain ⟨j, hj, rfl⟩ := exists_counter hb1 (by omega) hidx
  have hentry : s.consSide.entry (UInt32.ofNat (q.head + j)) = s.ring (slot k (q.head + j)) := by
    rw [slot, ← h.mask]
    rfl
  refine ⟨.read (q.head + j) (s.ring (slot k (q.head + j))), q,
    .read (Nat.le_add_right _ _) hj ?_, ?_, h⟩
  · have hget := congrArg (fun l => l[j]?) h.entries
    simp only [getElem?_window, List.getElem?_drop] at hget
    rw [if_pos (by omega), List.getElem?_append_left (by omega)] at hget
    exact hget.symm
  · show Event.read _ _ = _
    rw [hentry]
    rfl

lemma Represents.release (h : Represents k s q) (hk : k ≤ 31) {nb : UInt32}
    (hnb : nb ≤ s.consCachedCons - s.consumer) :
    ∃ (e : Event ℕ α) (q' : BoundedQueue α (2 ^ k)), Step q e q'
      ∧ (s.perform (.release nb)).2 = e.renumber UInt32.ofNat
      ∧ Represents k (s.perform (.release nb)).1 q' := by
  obtain ⟨hb1, hb2, hb3⟩ := BoundedQueue.bounds q
  have hpow := two_pow_lt hk
  rw [h.consumer, h.lent] at hnb
  have hle := toNat_le_distance hb1 (by omega) hnb
  refine ⟨.release nb.toNat,
    { q with head := q.head + nb.toNat, head_le_lent := hle, room := by omega },
    .release rfl rfl rfl rfl, rfl, ?_⟩
  refine { h with consumer := ?_, limit := ?_, entries := ?_ }
  · show s.consumer + nb = _
    rw [h.consumer, UInt32.ofNat_add, UInt32.ofNat_toNat]
  · obtain ⟨n, hn, hln, hns⟩ := h.limit
    exact ⟨n, hn, hln, by simp only; omega⟩
  · have hsplit := window_append s.ring k (Nat.le_add_right q.head nb.toNat)
      (by omega : q.head + nb.toNat ≤ q.sent.length + q.draft.length)
    rw [h.entries] at hsplit
    have hlen : (window s.ring k q.head (q.head + nb.toNat)).length = nb.toNat := by
      rw [length_window, Nat.add_sub_cancel_left]
    show window s.ring k (q.head + nb.toNat) (q.sent.length + q.draft.length)
      = (q.sent ++ q.draft).drop (q.head + nb.toNat)
    rw [← List.drop_drop, hsplit, List.drop_left' hlen]

/-- **One call is one operation of the queue.** -/
lemma Represents.perform (h : Represents k s q) (hk : k ≤ 31) {c : RingCall α} (hc : s.Allowed c) :
    ∃ (e : Event ℕ α) (q' : BoundedQueue α (2 ^ k)), Step q e q'
      ∧ (s.perform c).2 = e.renumber UInt32.ofNat ∧ Represents k (s.perform c).1 q' := by
  cases c with
  | reserve nb idx => exact h.reserve hk nb idx
  | write idx x => exact h.write hk x hc
  | submit nb => exact h.submit hk hc
  | peek nb idx => exact h.peek hk nb idx
  | read idx => exact h.read hk hc
  | release nb => exact h.release hk hc

lemma RingRun.represents (hk : k ≤ 31) {ring : UInt32 → α} {events : List (Event UInt32 α)}
    (h : RingRun k ring events s) :
    ∃ (numbered : List (Event ℕ α)) (q : BoundedQueue α (2 ^ k)), BoundedQueue.Run numbered q
      ∧ events = numbered.map (Event.renumber UInt32.ofNat) ∧ Represents k s q := by
  induction h with
  | start => exact ⟨[], _, .start, rfl, represents_fresh k ring⟩
  | call _ c hc ih =>
      obtain ⟨numbered, q, hrun, hevents, hrep⟩ := ih
      obtain ⟨e, q', hstep, hout, hrep'⟩ := hrep.perform hk hc
      refine ⟨numbered ++ [e], q', hrun.step hstep, ?_, hrep'⟩
      rw [List.map_append, List.map_cons, List.map_nil, ← hevents, hout]

end Refinement

/-- **The ring is a bounded FIFO queue.**  Whatever two well-behaved parties call in whatever order,
what they see is what a run of the queue with `2 ^ k` places shows, its entry numbers taken modulo
`2 ^ 32`: a reservation is granted exactly when there is room, a peek lends the next entries, at least
one if any is submitted and not yet lent and never more than it was asked for (it may be fewer than
there are: `*producer` is read again only when all the entries seen before are lent), and the entry read
under a number is the one submitted under it. -/
theorem ring_refines_queue {k : ℕ} (hk : k ≤ 31) (ring : UInt32 → α)
    {events : List (Event UInt32 α)} {s : SharedRing α} (h : RingRun k ring events s) :
    ∃ (numbered : List (Event ℕ α)) (q : BoundedQueue α (2 ^ k)), BoundedQueue.Run numbered q
      ∧ events = numbered.map (Event.renumber UInt32.ofNat) ∧ Represents k s q
      ∧ ∀ i x, Event.read i x ∈ numbered → (sentBy numbered)[i]? = some x := by
  obtain ⟨numbered, q, hrun, hevents, hrep⟩ := h.represents hk
  exact ⟨numbered, q, hrun, hevents, hrep, fun _ _ hread => hrun.read_sent hread⟩

/-- Two entries through a ring with two places; a third one is refused until one is released. -/
theorem ring_refines_queue_two :
    ∃ (numbered : List (Event ℕ ℕ)) (q : BoundedQueue ℕ (2 ^ 1)), BoundedQueue.Run numbered q
      ∧ [Event.reserve 2 0, .write (1 : UInt32) 8, .write 0 7, .submit [7, 8], .peek 5 2 0,
          .refuse 1, .read 1 8, .release 1, .reserve 1 2]
        = numbered.map (Event.renumber UInt32.ofNat)
      ∧ ∀ i x, Event.read i x ∈ numbered → (sentBy numbered)[i]? = some x := by
  have hrun : RingRun 1 (fun _ => 0) _ _ :=
    .call (.call (.call (.call (.call (.call (.call (.call (.call .start
      (.reserve 2 0) trivial) (.write 1 8) (by decide)) (.write 0 7) (by decide))
      (.submit 2) (by decide)) (.peek 5 0) trivial) (.reserve 1 0) trivial)
      (.read 1) (by decide)) (.release 1) (by decide)) (.reserve 1 0) trivial
  obtain ⟨numbered, q, hq, hevents, -, hread⟩ := ring_refines_queue (by decide) _ hrun
  exact ⟨numbered, q, hq, hevents ▸ by decide, hread⟩

end Umem
