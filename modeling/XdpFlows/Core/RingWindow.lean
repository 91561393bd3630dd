import Mathlib.Data.List.Basic
import Mathlib.Data.Nat.Bitwise
import Mathlib.Logic.Function.Basic

/-!
# Windows of a ring with wrapping 32-bit counters

A single-producer single-consumer ring of `2 ^ k` slots is driven by free-running 32-bit counters:
an index is used modulo `2 ^ k` to pick a slot, and differences of counters are taken modulo
`2 ^ 32`.  Both reductions agree because `2 ^ k` divides `2 ^ 32`, so the ring can be reasoned about
with *unbounded* counters of which the 32-bit ones are the residues.

* `slice` reads the entries between two 32-bit counters, as code does;
* `window` reads the entries between two natural counters;
* `slice_eq_window` connects them, and the `window_*` lemmas say what producing (`window_concat`,
  `window_update`) and consuming (`window_cons`) do to the represented queue.
-/

namespace RingWindow

variable {α : Type}

/-! ## Counters -/

lemma ofNat_sub_ofNat {a b : ℕ} (h : b ≤ a) :
    UInt32.ofNat a - UInt32.ofNat b = UInt32.ofNat (a - b) := by
  have hsum : UInt32.ofNat a = UInt32.ofNat (a - b) + UInt32.ofNat b := by
    rw [← UInt32.ofNat_add, Nat.sub_add_cancel h]
  rw [hsum, UInt32.add_sub_cancel]

/-- The distance between two counters less than a full turn apart. -/
lemma toNat_distance {a b : ℕ} (h : b ≤ a) (hlt : a - b < 2 ^ 32) :
    (UInt32.ofNat a - UInt32.ofNat b).toNat = a - b := by
  rw [ofNat_sub_ofNat h, UInt32.toNat_ofNat', Nat.mod_eq_of_lt hlt]

/-- Counters less than a full turn apart that have the same residue are the same. -/
lemma eq_of_ofNat_eq {a b : ℕ} (h : b ≤ a) (hlt : a - b < 2 ^ 32)
    (heq : UInt32.ofNat a = UInt32.ofNat b) : a = b := by
  have hdist := toNat_distance h hlt
  rw [heq, UInt32.sub_self] at hdist
  exact Nat.le_antisymm (Nat.sub_eq_zero_iff_le.mp hdist.symm) h

lemma ofNat_succ (a : ℕ) : UInt32.ofNat a + 1 = UInt32.ofNat (a + 1) := by
  rw [UInt32.ofNat_add]
  rfl

/-! ## Slots -/

/-- The slot of a ring with `2 ^ k` slots that the counter `n` falls on. -/
def slot (k n : ℕ) : UInt32 :=
  UInt32.ofNat n &&& UInt32.ofNat (2 ^ k - 1)

lemma slot_toNat {k : ℕ} (hk : k ≤ 32) (n : ℕ) : (slot k n).toNat = n % 2 ^ k := by
  have hdvd : (2 : ℕ) ^ k ∣ 2 ^ 32 := Nat.pow_dvd_pow 2 hk
  have hpos : 0 < (2 : ℕ) ^ k := Nat.two_pow_pos k
  have hle : (2 : ℕ) ^ k ≤ 2 ^ 32 := Nat.le_of_dvd (Nat.two_pow_pos 32) hdvd
  have hmask : (2 ^ k - 1) % 2 ^ 32 = 2 ^ k - 1 := Nat.mod_eq_of_lt (by omega)
  rw [slot, UInt32.toNat_and, UInt32.toNat_ofNat', UInt32.toNat_ofNat', hmask,
    Nat.and_two_pow_sub_one_eq_mod, Nat.mod_mod_of_dvd _ hdvd]

/-- Counters less than one turn of the ring apart fall on different slots. -/
lemma slot_ne {k : ℕ} (hk : k ≤ 32) {m n : ℕ} (hmn : m < n) (hlt : n < m + 2 ^ k) :
    slot k m ≠ slot k n := by
  intro h
  have hmod : m % 2 ^ k = n % 2 ^ k := by rw [← slot_toNat hk m, h, slot_toNat hk n]
  have hzero : (n - m) % 2 ^ k = 0 := Nat.sub_mod_eq_zero_of_mod_eq hmod.symm
  rw [Nat.mod_eq_of_lt (by omega)] at hzero
  omega

/-! ## Windows -/

/-- The entries between two 32-bit counters. -/
def slice (ring : UInt32 → α) (mask a b : UInt32) : List α :=
  (List.range (b - a).toNat).map fun j => ring ((a + UInt32.ofNat j) &&& mask)

/-- The entries between two unbounded counters of a ring with `2 ^ k` slots. -/
def window (ring : UInt32 → α) (k a b : ℕ) : List α :=
  (List.range' a (b - a)).map fun n => ring (slot k n)

lemma slice_eq_window (ring : UInt32 → α) (k : ℕ) {a b : ℕ} (h : a ≤ b) (hlt : b - a < 2 ^ 32) :
    slice ring (UInt32.ofNat (2 ^ k - 1)) (UInt32.ofNat a) (UInt32.ofNat b)
      = window ring k a b := by
  rw [slice, window, toNat_distance h hlt, List.range'_eq_map_range, List.map_map]
  refine List.map_congr_left fun j _ => ?_
  simp only [Function.comp_apply, slot, UInt32.ofNat_add]

@[simp] lemma window_self (ring : UInt32 → α) (k a : ℕ) : window ring k a a = [] := by
  simp [window]

@[simp] lemma length_window (ring : UInt32 → α) (k a b : ℕ) :
    (window ring k a b).length = b - a := by
  simp [window]

lemma window_cons (ring : UInt32 → α) (k : ℕ) {a b : ℕ} (h : a < b) :
    window ring k a b = ring (slot k a) :: window ring k (a + 1) b := by
  have hlen : b - a = (b - (a + 1)) + 1 := by omega
  rw [window, hlen, List.range'_succ, List.map_cons, window]

lemma window_append (ring : UInt32 → α) (k : ℕ) {a b c : ℕ} (hab : a ≤ b) (hbc : b ≤ c) :
    window ring k a c = window ring k a b ++ window ring k b c := by
  have hlen : c - a = (b - a) + (c - b) := by omega
  have hb : b = a + (b - a) := by omega
  rw [window, window, window, ← List.map_append, hlen]
  congr 1
  rw [← List.range'_append_1, ← hb]

lemma window_concat (ring : UInt32 → α) (k : ℕ) {a b : ℕ} (h : a ≤ b) :
    window ring k a (b + 1) = window ring k a b ++ [ring (slot k b)] := by
  rw [window_append ring k h (Nat.le_succ b), window_cons ring k (Nat.lt_succ_self b)]
  simp

/-- Writing the slot of a counter outside the window, but less than one turn ahead of its start,
leaves the window as it was. -/
lemma window_update (ring : UInt32 → α) {k : ℕ} (hk : k ≤ 32) {a b n : ℕ} (x : α) (hbn : b ≤ n)
    (hna : n < a + 2 ^ k) :
    window (Function.update ring (slot k n) x) k a b = window ring k a b := by
  refine List.map_congr_left fun m hm => ?_
  obtain ⟨ham, hmb⟩ := List.mem_range'_1.mp hm
  have hne : slot k m ≠ slot k n := slot_ne hk (by omega) (by omega)
  rw [Function.update_of_ne hne]

lemma getElem?_window (ring : UInt32 → α) (k a b j : ℕ) :
    (window ring k a b)[j]? = if j < b - a then some (ring (slot k (a + j))) else none := by
  by_cases hj : j < b - a
  · rw [if_pos hj, window, List.getElem?_map, List.getElem?_range' hj, Option.map_some, Nat.one_mul]
  · rw [if_neg hj, List.getElem?_eq_none]
    rw [length_window]
    omega

/-- Writing the slot of a counter inside the window changes that entry and no other. -/
lemma window_set (ring : UInt32 → α) {k : ℕ} (hk : k ≤ 32) {a b j : ℕ} (x : α) (hj : a + j < b)
    (hab : b ≤ a + 2 ^ k) :
    window (Function.update ring (slot k (a + j)) x) k a b = (window ring k a b).set j x := by
  refine List.ext_getElem? fun i => ?_
  rw [List.getElem?_set, getElem?_window, getElem?_window, length_window]
  by_cases hji : j = i
  · subst hji
    rw [if_pos rfl, if_pos (by omega), if_pos (by omega), Function.update_self]
  · rw [if_neg hji]
    by_cases hi : i < b - a
    · have hne : slot k (a + i) ≠ slot k (a + j) := by
        rcases Nat.lt_or_gt_of_ne hji with hlt | hlt
        · exact (slot_ne hk (by omega) (by omega)).symm
        · exact slot_ne hk (by omega) (by omega)
      rw [if_pos hi, if_pos hi, Function.update_of_ne hne]
    · rw [if_neg hi, if_neg hi]

/-- A 32-bit counter between two others is the residue of a counter between theirs. -/
lemma exists_counter {idx : UInt32} {a b : ℕ} (hab : a ≤ b) (hlt : b - a < 2 ^ 32)
    (h : idx - UInt32.ofNat a < UInt32.ofNat b - UInt32.ofNat a) :
    ∃ j, a + j < b ∧ idx = UInt32.ofNat (a + j) := by
  rw [UInt32.lt_iff_toNat_lt, toNat_distance hab hlt] at h
  refine ⟨(idx - UInt32.ofNat a).toNat, by omega, ?_⟩
  rw [UInt32.ofNat_add, UInt32.ofNat_toNat, UInt32.add_comm, UInt32.sub_add_cancel]

/-- A 32-bit number that fits between two counters. -/
lemma toNat_le_distance {n : UInt32} {a b : ℕ} (hab : a ≤ b) (hlt : b - a < 2 ^ 32)
    (h : n ≤ UInt32.ofNat b - UInt32.ofNat a) : a + n.toNat ≤ b := by
  rw [UInt32.le_iff_toNat_le, toNat_distance hab hlt] at h
  omega

end RingWindow
