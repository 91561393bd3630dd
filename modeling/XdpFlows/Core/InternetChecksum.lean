import Mathlib.Algebra.BigOperators.Intervals
import Mathlib.Algebra.Order.BigOperators.Group.Finset

/-!
# The Internet checksum

The one's complement sum of 16-bit words that IPv4, UDP and TCP carry.  `wordSum` adds the words of a
list of bytes, in network byte order and with a zero byte behind an odd one, and `fold` brings the
carries back in until 16 bits are left.

The sum does not see where a word stands.  `wordSum_congr` says so byte by byte: any rearrangement
that keeps even places even and odd places odd leaves the sum, and with it the validity of the
checksum, as it is.
-/

namespace InternetChecksum

/-- The sum of the 16-bit words of a list of bytes. -/
def wordSum : List UInt8 → ℕ
  | [] => 0
  | [high] => high.toNat * 256
  | high :: low :: rest => high.toNat * 256 + low.toNat + wordSum rest

/-- The sum with its carries brought back in. -/
def fold (n : ℕ) : ℕ :=
  if n < 2 ^ 16 then n else fold (n % 2 ^ 16 + n / 2 ^ 16)
termination_by n
decreasing_by omega

/-- The checksum in `l` is right: everything together, the checksum included, gives all ones. -/
def Valid (l : List UInt8) : Prop :=
  fold (wordSum l) = 0xFFFF

/-- Behind whole words the sum starts anew. -/
lemma wordSum_append {l : List UInt8} (h : l.length % 2 = 0) (m : List UInt8) :
    wordSum (l ++ m) = wordSum l + wordSum m := by
  induction l using wordSum.induct with
  | case1 => simp [wordSum]
  | case2 high => simp at h
  | case3 high low rest ih =>
      have hrest : rest.length % 2 = 0 := by
        rw [List.length_cons, List.length_cons] at h
        omega
      rw [List.cons_append, List.cons_append, wordSum, wordSum, ih hrest]
      omega

/-- What a byte at place `i` counts. -/
def weight (i : ℕ) : ℕ :=
  if i % 2 = 0 then 256 else 1

lemma weight_add_two (i : ℕ) : weight (i + 2) = weight i := by
  simp [weight]

lemma weight_congr {i j : ℕ} (h : i % 2 = j % 2) : weight i = weight j := by
  rw [weight, weight, h]

/-- The sum, byte by byte. -/
lemma wordSum_eq_sum (l : List UInt8) :
    wordSum l = ∑ i ∈ Finset.range l.length, (l.getD i 0).toNat * weight i := by
  induction l using wordSum.induct with
  | case1 => rfl
  | case2 high => simp [wordSum, weight]
  | case3 high low rest ih =>
      rw [List.length_cons, List.length_cons, Finset.sum_range_succ', Finset.sum_range_succ']
      simp only [List.getD_cons_succ, List.getD_cons_zero, weight_add_two, wordSum, ih]
      simp only [weight, Nat.zero_mod, Nat.reduceMod, Nat.reduceAdd, if_true, one_ne_zero, if_false]
      omega

/-- **The sum does not see where a word stands.**  `σ` is an exchange of places. -/
theorem wordSum_congr {l m : List UInt8} (hlen : m.length = l.length) (σ : ℕ → ℕ)
    (hlt : ∀ i < l.length, σ i < l.length) (hinv : ∀ i < l.length, σ (σ i) = i)
    (hparity : ∀ i < l.length, σ i % 2 = i % 2)
    (h : ∀ i < l.length, m.getD i 0 = l.getD (σ i) 0) : wordSum m = wordSum l := by
  rw [wordSum_eq_sum, wordSum_eq_sum, hlen]
  refine Finset.sum_nbij' σ σ ?_ ?_ ?_ ?_ ?_
  · intro i hi
    exact Finset.mem_range.mpr (hlt i (Finset.mem_range.mp hi))
  · intro i hi
    exact Finset.mem_range.mpr (hlt i (Finset.mem_range.mp hi))
  · intro i hi
    exact hinv i (Finset.mem_range.mp hi)
  · intro i hi
    exact hinv i (Finset.mem_range.mp hi)
  · intro i hi
    have hi := Finset.mem_range.mp hi
    rw [h i hi, weight_congr (hparity i hi)]

end InternetChecksum
