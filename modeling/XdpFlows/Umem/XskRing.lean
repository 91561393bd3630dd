import XdpFlows.Core.RingWindow

/-!
# The AF_XDP rings

The ring functions of `libbpf/src/xsk.h`.  `DEFINE_XSK_RING` declares the same structure twice, for
the producer and for the consumer side, so there is one structure here; `*producer` and `*consumer`
are the two words shared with the kernel, the cached counters are private to the process.

The memory barriers of `submit`, `peek` and `release` have no counterpart: each of these functions
is one uninterrupted section of the thread that calls it.
-/

namespace Umem

/-- `struct xsk_ring_prod` and `struct xsk_ring_cons`. -/
structure XskRing (α : Type) where
  cachedProd : UInt32
  cachedCons : UInt32
  mask : UInt32
  size : UInt32
  producer : UInt32
  consumer : UInt32
  ring : UInt32 → α

variable {α : Type}

/-- The entry a counter points at: `&addrs[idx & fill->mask]`, read. -/
def XskRing.entry (r : XskRing α) (idx : UInt32) : α :=
  r.ring (idx &&& r.mask)

/-- The entry a counter points at, written. -/
def XskRing.write (r : XskRing α) (idx : UInt32) (x : α) : XskRing α :=
  { r with ring := Function.update r.ring (idx &&& r.mask) x }

/-- The entries between two counters. -/
def XskRing.entries (r : XskRing α) (a b : UInt32) : List α :=
  RingWindow.slice r.ring r.mask a b

/-- `xsk_prod_nb_free`.  The second argument is only the threshold below which the cached consumer
counter is refreshed; the result is *all* free entries the process knows of. -/
def xskProdNbFree (r : XskRing α) (nb : UInt32) : XskRing α × UInt32 :=
  let freeEntries := r.cachedCons - r.cachedProd
  if nb ≤ freeEntries then
    (r, freeEntries)
  else
    let r' := { r with cachedCons := r.consumer + r.size }
    (r', r'.cachedCons - r'.cachedProd)

/-- `xsk_cons_nb_avail`. -/
def xskConsNbAvail (r : XskRing α) (nb : UInt32) : XskRing α × UInt32 :=
  let entries := r.cachedProd - r.cachedCons
  let r' := if entries = 0 then { r with cachedProd := r.producer } else r
  let entries' := r'.cachedProd - r'.cachedCons
  (r', if nb < entries' then nb else entries')

/-- `xsk_ring_prod__reserve`.  Returns the ring, the number of entries granted and `*idx`. -/
def xskRingProdReserve (r : XskRing α) (nb idx : UInt32) : XskRing α × UInt32 × UInt32 :=
  let (r', free) := xskProdNbFree r nb
  if free < nb then
    (r', 0, idx)
  else
    ({ r' with cachedProd := r'.cachedProd + nb }, nb, r'.cachedProd)

/-- `xsk_ring_prod__submit`. -/
def xskRingProdSubmit (r : XskRing α) (nb : UInt32) : XskRing α :=
  { r with producer := r.producer + nb }

/-- `xsk_ring_cons__peek`.  Returns the ring, the number of entries and `*idx`. -/
def xskRingConsPeek (r : XskRing α) (nb idx : UInt32) : XskRing α × UInt32 × UInt32 :=
  let (r', entries) := xskConsNbAvail r nb
  if 0 < entries then
    ({ r' with cachedCons := r'.cachedCons + entries }, entries, r'.cachedCons)
  else
    (r', entries, idx)

/-- `xsk_ring_cons__release`. -/
def xskRingConsRelease (r : XskRing α) (nb : UInt32) : XskRing α :=
  { r with consumer := r.consumer + nb }

lemma xskProdNbFree_of_le {r : XskRing α} {nb : UInt32} (h : nb ≤ r.cachedCons - r.cachedProd) :
    xskProdNbFree r nb = (r, r.cachedCons - r.cachedProd) :=
  if_pos h

lemma xskProdNbFree_of_not_le {r : XskRing α} {nb : UInt32}
    (h : ¬ nb ≤ r.cachedCons - r.cachedProd) :
    xskProdNbFree r nb
      = ({ r with cachedCons := r.consumer + r.size }, r.consumer + r.size - r.cachedProd) :=
  if_neg h

lemma xskProdNbFree_ring (r : XskRing α) (nb : UInt32) :
    (xskProdNbFree r nb).1.ring = r.ring := by
  by_cases h : nb ≤ r.cachedCons - r.cachedProd
  · rw [xskProdNbFree_of_le h]
  · rw [xskProdNbFree_of_not_le h]

lemma xskRingProdReserve_ring (r : XskRing α) (nb idx : UInt32) :
    (xskRingProdReserve r nb idx).1.ring = r.ring := by
  unfold xskRingProdReserve
  simp only
  split_ifs <;> exact xskProdNbFree_ring r nb

/-- A peek moves neither of the shared counters. -/
lemma xskRingConsPeek_shared (r : XskRing α) (nb idx : UInt32) :
    (xskRingConsPeek r nb idx).1.producer = r.producer
      ∧ (xskRingConsPeek r nb idx).1.consumer = r.consumer := by
  have havail : (xskConsNbAvail r nb).1.producer = r.producer
      ∧ (xskConsNbAvail r nb).1.consumer = r.consumer := by
    simp only [xskConsNbAvail]
    split_ifs <;> exact ⟨rfl, rfl⟩
  unfold xskRingConsPeek
  simp only
  split_ifs <;> exact havail

/-- **Asking for exactly what is cached as free is granted**, whatever the counters are. -/
lemma xskRingProdReserve_cached (r : XskRing α) (idx : UInt32) :
    xskRingProdReserve r (r.cachedCons - r.cachedProd) idx
      = ({ r with cachedProd := r.cachedProd + (r.cachedCons - r.cachedProd) },
          r.cachedCons - r.cachedProd, r.cachedProd) := by
  rw [xskRingProdReserve, xskProdNbFree_of_le (UInt32.le_refl _)]
  exact if_neg (UInt32.lt_irrefl _)

/-- `xsk_prod_nb_free` leaves `cached_cons - cached_prod` equal to what it returned. -/
lemma xskProdNbFree_cached (r : XskRing α) (nb : UInt32) :
    (xskProdNbFree r nb).2
      = (xskProdNbFree r nb).1.cachedCons - (xskProdNbFree r nb).1.cachedProd := by
  by_cases h : nb ≤ r.cachedCons - r.cachedProd
  · rw [xskProdNbFree_of_le h]
  · rw [xskProdNbFree_of_not_le h]

end Umem
