import Mathlib.Data.List.SplitBy
import Mathlib.Algebra.BigOperators.Group.List.Lemmas

/-!
# Grouping and cutting lists

Two ways to take a list apart that the flow store needs and Mathlib states only in part: by the
value of a function (`perm_flatMap_filter`, the groups together are the list again) and at the gaps
between neighbours (`splitBy_concat_of_near`, how `List.splitBy` grows when an element is appended;
the other case is `List.splitBy_append_cons`).
-/

namespace ListGroups

variable {α κ : Type}

/-- The elements of a list, collected by the value of `f`, are the list again. -/
lemma perm_flatMap_filter [DecidableEq κ] (f : α → κ) (l : List α) {ks : List κ}
    (hnodup : ks.Nodup) (hcover : ∀ x ∈ l, f x ∈ ks) :
    (ks.flatMap fun k => l.filter (f · = k)).Perm l := by
  classical
  rw [List.perm_iff_count]
  intro a
  have hgroup : ∀ k, (List.count a ∘ fun k => l.filter (f · = k)) k
      = if f a = k then l.count a else 0 := by
    intro k
    show (l.filter (f · = k)).count a = _
    split_ifs with h
    · exact List.count_filter (by simpa using h)
    · refine List.count_eq_zero.mpr fun hmem => h ?_
      simpa using (List.mem_filter.mp hmem).2
  have hsum : ∀ ks : List κ, ks.Nodup →
      (ks.map fun k => if f a = k then l.count a else 0).sum
        = if f a ∈ ks then l.count a else 0 := by
    intro ks hks
    induction ks with
    | nil => rfl
    | cons k ks ih =>
        obtain ⟨hk, hks⟩ := List.nodup_cons.mp hks
        rw [List.map_cons, List.sum_cons, ih hks]
        by_cases h : f a = k
        · rw [if_pos h, if_neg (h ▸ hk), if_pos (h ▸ List.mem_cons_self ..), Nat.add_zero]
        · have hmem : f a ∈ k :: ks ↔ f a ∈ ks := by simp [h]
          simp only [hmem, if_neg h, Nat.zero_add]
  rw [List.count_flatMap, List.map_congr_left (fun k _ => hgroup k), hsum ks hnodup]
  split_ifs with h
  · rfl
  · exact (List.count_eq_zero.mpr fun hmem => h (hcover a hmem)).symm

/-- Without repetitions every group is a single element. -/
lemma filter_eq_singleton [DecidableEq κ] {f : α → κ} {l : List α} (hnodup : (l.map f).Nodup) {x : α}
    (hx : x ∈ l) : l.filter (f · = f x) = [x] := by
  obtain ⟨A, B, rfl⟩ := List.append_of_mem hx
  rw [List.map_append, List.map_cons, List.nodup_middle, List.nodup_cons, ← List.map_append] at hnodup
  have hother : ∀ y ∈ A ++ B, f y ≠ f x := fun y hy heq =>
    hnodup.1 (heq ▸ List.mem_map_of_mem hy)
  have hA : A.filter (f · = f x) = [] :=
    List.filter_eq_nil_iff.mpr fun y hy => by simpa using hother y (List.mem_append_left _ hy)
  have hB : B.filter (f · = f x) = [] :=
    List.filter_eq_nil_iff.mpr fun y hy => by simpa using hother y (List.mem_append_right _ hy)
  rw [List.filter_append, List.filter_cons_of_pos (by simp), hA, hB, List.nil_append]

/-- An element near the last one of the last piece joins that piece. -/
lemma splitBy_concat_of_near {near : α → α → Bool} {l g : List α} {X : List (List α)} {a b : α}
    (h : l.splitBy near = X ++ [g ++ [b]]) (hnear : near b a = true) :
    (l ++ [a]).splitBy near = X ++ [g ++ [b] ++ [a]] := by
  obtain ⟨hflat, hnil, hchain, hcut⟩ := List.splitBy_eq_iff.mp h
  refine List.splitBy_eq_iff.mpr ⟨?_, ?_, ?_, ?_⟩
  · rw [hflat]
    simp
  · simp only [List.mem_append, List.mem_singleton, not_or] at hnil ⊢
    exact ⟨hnil.1, by simp⟩
  · intro m hm
    rw [List.mem_append, List.mem_singleton] at hm
    rcases hm with hm | rfl
    · exact hchain m (List.mem_append_left _ hm)
    · have hg := hchain _ (List.mem_append_right _ (List.mem_singleton.mpr rfl))
      rw [List.isChain_append]
      refine ⟨hg, List.isChain_singleton a, ?_⟩
      intro x hx y hy
      rw [List.getLast?_append, List.getLast?_singleton] at hx
      simp only [Option.some_or, Option.mem_some_iff, List.head?_cons] at hx hy
      rw [← hx, ← hy]
      exact hnear
  · rw [List.isChain_append] at hcut ⊢
    refine ⟨hcut.1, List.isChain_singleton _, ?_⟩
    intro x hx y hy
    simp only [List.head?_cons, Option.mem_some_iff] at hy
    obtain ⟨hx', hy', hr⟩ := hcut.2.2 x hx (g ++ [b]) (by simp)
    refine ⟨hx', by rw [← hy]; simp, ?_⟩
    subst hy
    simpa [List.head_append] using hr

end ListGroups
