import Mathlib.Data.List.Chain
import Mathlib.Data.List.Nodup

/-!
# Circular doubly linked lists

A heap of nodes with a forward and a backward pointer each, and what it means that a sequence of nodes
is linked in a circle (`Ring`).  A piece of a circle (`Segment`) needs the forward pointers of all its
nodes but the last and the backward pointers of all but the first, so it survives a surgery at its ends
(`Segment.congr`); where two pieces meet, one pointer of each counts (`Meets`).  A circle is a segment
whose end meets its beginning, and may be cut anywhere (`Ring.append_iff`, `Ring.rotate`).

`Represents` puts any number of such lists into one heap, each with a variable that points to its first
node; `Represents.update` changes one of them and `Represents.merge` joins two.
-/

namespace CircularList

variable {A : Type}

/-! ## The heap -/

/-- The pointers of the nodes. -/
structure Links (A : Type) where
  next : A → Option A
  prev : A → Option A

namespace Links

variable [DecidableEq A] (h : Links A)

def setNext (x : A) (v : Option A) : Links A :=
  { h with next := Function.update h.next x v }

def setPrev (x : A) (v : Option A) : Links A :=
  { h with prev := Function.update h.prev x v }

@[simp] lemma next_setPrev (x : A) (v : Option A) : (h.setPrev x v).next = h.next := rfl

@[simp] lemma prev_setNext (x : A) (v : Option A) : (h.setNext x v).prev = h.prev := rfl

@[simp] lemma next_setNext (x y : A) (v : Option A) :
    (h.setNext x v).next y = if y = x then v else h.next y :=
  Function.update_apply ..

@[simp] lemma prev_setPrev (x y : A) (v : Option A) :
    (h.setPrev x v).prev y = if y = x then v else h.prev y :=
  Function.update_apply ..

end Links

/-! ## Pieces of a circle -/

variable {h h' : Links A} {l m : List A} {a b x y : A}

/-- `y` stands behind `x`. -/
def Joined (h : Links A) (x y : A) : Prop :=
  h.next x = some y ∧ h.prev y = some x

/-- Every node of `l` points to its neighbours in `l`. -/
def Segment (h : Links A) (l : List A) : Prop :=
  l.IsChain (Joined h)

/-- The last node of `l` and the first one of `m` point to each other. -/
def Meets (h : Links A) (l m : List A) : Prop :=
  ∀ x ∈ l.getLast?, ∀ y ∈ m.head?, Joined h x y

@[simp] lemma segment_nil : Segment h [] :=
  .nil

@[simp] lemma segment_singleton (x : A) : Segment h [x] :=
  .singleton x

lemma segment_append : Segment h (l ++ m) ↔ Segment h l ∧ Segment h m ∧ Meets h l m :=
  List.isChain_append

/-- The ends of a segment may be rewired. -/
lemma Segment.congr (hl : Segment h l) (hnext : ∀ x ∈ l.dropLast, h'.next x = h.next x)
    (hprev : ∀ y ∈ l.tail, h'.prev y = h.prev y) : Segment h' l := by
  induction l with
  | nil => exact segment_nil
  | cons x l ih =>
      cases l with
      | nil => exact segment_singleton x
      | cons y l =>
          obtain ⟨⟨hxy, hyx⟩, hrest⟩ := List.isChain_cons_cons.mp hl
          rw [List.dropLast_cons_cons] at hnext
          rw [List.tail_cons] at hprev
          refine List.isChain_cons_cons.mpr ⟨⟨?_, ?_⟩, ih hrest ?_ ?_⟩
          · rw [hnext x (List.mem_cons_self ..), hxy]
          · rw [hprev y (List.mem_cons_self ..), hyx]
          · exact fun z hz => hnext z (List.mem_cons_of_mem _ hz)
          · exact fun z hz => hprev z (List.mem_cons_of_mem _ hz)

lemma Meets.congr (hlm : Meets h l m) (hnext : ∀ x ∈ l.getLast?, h'.next x = h.next x)
    (hprev : ∀ y ∈ m.head?, h'.prev y = h.prev y) : Meets h' l m := by
  intro x hx y hy
  rw [Joined, hnext x hx, hprev y hy]
  exact hlm x hx y hy

/-- Only the last node of `l` and the first node of `m` matter. -/
lemma meets_append_left (hm : m ≠ []) (k : List A) : Meets h (l ++ m) k ↔ Meets h m k := by
  rw [Meets, Meets, List.getLast?_append_of_ne_nil _ hm]

lemma meets_append_right (hl : l ≠ []) (k : List A) : Meets h k (l ++ m) ↔ Meets h k l := by
  rw [Meets, Meets, List.head?_append_of_ne_nil _ hl]

/-! ## Circles -/

/-- The nodes of `l`, in this order, form a circle. -/
structure Ring (h : Links A) (l : List A) : Prop where
  nodup : l.Nodup
  segment : Segment h l
  closed : Meets h l l

namespace Ring

lemma nil : Ring h [] :=
  ⟨List.nodup_nil, segment_nil, fun x hx => absurd hx (by simp)⟩

/-- **A circle may be cut in two.** -/
lemma append_iff (hl : l ≠ []) (hm : m ≠ []) : Ring h (l ++ m)
    ↔ (l ++ m).Nodup ∧ Segment h l ∧ Segment h m ∧ Meets h l m ∧ Meets h m l := by
  constructor
  · rintro ⟨hnodup, hsegment, hclosed⟩
    rw [meets_append_left hm, meets_append_right hl] at hclosed
    obtain ⟨hl, hm, hlm⟩ := segment_append.mp hsegment
    exact ⟨hnodup, hl, hm, hlm, hclosed⟩
  · rintro ⟨hnodup, hsl, hsm, hlm, hml⟩
    refine ⟨hnodup, segment_append.mpr ⟨hsl, hsm, hlm⟩, ?_⟩
    rwa [meets_append_left hm, meets_append_right hl]

/-- **A circle has no beginning.** -/
lemma rotate (hr : Ring h (l ++ m)) : Ring h (m ++ l) := by
  by_cases hl : l = []
  · rwa [hl, List.append_nil, ← List.nil_append m, ← hl]
  · by_cases hm : m = []
    · rwa [hm, List.nil_append, ← List.append_nil l, ← hm]
    · obtain ⟨hnodup, hsl, hsm, hlm, hml⟩ := (append_iff hl hm).mp hr
      exact (append_iff hm hl).mpr ⟨List.nodup_append_comm.mp hnodup, hsm, hsl, hml, hlm⟩

/-- Other nodes may change. -/
lemma frame (hr : Ring h l) (hsame : ∀ x ∈ l, h'.next x = h.next x ∧ h'.prev x = h.prev x) :
    Ring h' l := by
  refine ⟨hr.nodup, hr.segment.congr ?_ ?_, hr.closed.congr ?_ ?_⟩
  · exact fun x hx => (hsame x (List.dropLast_subset l hx)).1
  · exact fun y hy => (hsame y (List.mem_of_mem_tail hy)).2
  · exact fun x hx => (hsame x (List.mem_of_getLast? hx)).1
  · exact fun y hy => (hsame y (List.mem_of_mem_head? hy)).2

end Ring

/-! ## Surgery -/

lemma not_mem_getLast?_of_mem_dropLast (hl : l.Nodup) (hx : x ∈ l.dropLast) : x ∉ l.getLast? := by
  intro hlast
  obtain ⟨k, rfl⟩ := List.getLast?_eq_some_iff.mp hlast
  rw [List.dropLast_concat] at hx
  exact (List.nodup_append.mp hl).2.2 x hx x (List.mem_singleton_self x) rfl

lemma not_mem_head?_of_mem_tail (hl : l.Nodup) (hx : x ∈ l.tail) : x ∉ l.head? := by
  intro hhead
  obtain ⟨k, rfl⟩ := List.head?_eq_some_iff.mp hhead
  exact (List.nodup_cons.mp hl).1 hx

lemma Segment.congr_ends (hl : Segment h l) (hnodup : l.Nodup)
    (hnext : ∀ x ∈ l, x ∉ l.getLast? → h'.next x = h.next x)
    (hprev : ∀ y ∈ l, y ∉ l.head? → h'.prev y = h.prev y) : Segment h' l :=
  hl.congr
    (fun x hx => hnext x (List.dropLast_subset l hx) (not_mem_getLast?_of_mem_dropLast hnodup hx))
    (fun y hy => hprev y (List.mem_of_mem_tail hy) (not_mem_head?_of_mem_tail hnodup hy))

/-- **The ends of a segment are joined** to a circle. -/
lemma Ring.close (hnodup : l.Nodup) (hl : Segment h l)
    (hnext : ∀ x ∈ l, x ∉ l.getLast? → h'.next x = h.next x)
    (hprev : ∀ y ∈ l, y ∉ l.head? → h'.prev y = h.prev y) (hclosed : Meets h' l l) : Ring h' l :=
  ⟨hnodup, hl.congr_ends hnodup hnext hprev, hclosed⟩

/-- **Two segments are joined** to a circle. -/
lemma Ring.join (hnodup : (l ++ m).Nodup) (hl : l ≠ []) (hm : m ≠ []) (hsl : Segment h l)
    (hsm : Segment h m) (hnext : ∀ x, x ∉ l.getLast? → x ∉ m.getLast? → h'.next x = h.next x)
    (hprev : ∀ y, y ∉ l.head? → y ∉ m.head? → h'.prev y = h.prev y) (hlm : Meets h' l m)
    (hml : Meets h' m l) : Ring h' (l ++ m) := by
  obtain ⟨hnl, hnm, hapart⟩ := List.nodup_append.mp hnodup
  refine (append_iff hl hm).mpr ⟨hnodup, hsl.congr_ends hnl ?_ ?_, hsm.congr_ends hnm ?_ ?_, hlm, hml⟩
  · exact fun x hx hlast => hnext x hlast fun h => hapart x hx x (List.mem_of_getLast? h) rfl
  · exact fun y hy hhead => hprev y hhead fun h => hapart y hy y (List.mem_of_head? h) rfl
  · exact fun x hx hlast => hnext x (fun h => hapart x (List.mem_of_getLast? h) x hx rfl) hlast
  · exact fun y hy hhead => hprev y (fun h => hapart y (List.mem_of_head? h) y hy rfl) hhead

/-! ## Many lists in one heap -/

section Many

variable {ι : Type}

/-- Every variable `i` points to the first node of a circle `lists i`, and the circles have no node in
common. -/
structure Represents (h : Links A) (heads : ι → Option A) (lists : ι → List A) : Prop where
  head : ∀ i, heads i = (lists i).head?
  ring : ∀ i, Ring h (lists i)
  apart : ∀ i j, i ≠ j → (lists i).Disjoint (lists j)

variable [DecidableEq ι] {heads : ι → Option A} {lists : ι → List A}

/-- **One list changes**, in which only its own nodes and nodes of no list end up. -/
lemma Represents.update (hr : Represents h heads lists) (i : ι) (hring : Ring h' m)
    (hmem : ∀ x ∈ m, x ∈ lists i ∨ ∀ j, x ∉ lists j)
    (hframe : ∀ j ≠ i, ∀ x ∈ lists j, h'.next x = h.next x ∧ h'.prev x = h.prev x) :
    Represents h' (Function.update heads i m.head?) (Function.update lists i m) := by
  have hother : ∀ j ≠ i, (lists j).Disjoint m := by
    intro j hj x hx hxm
    rcases hmem x hxm with hxi | hnone
    · exact hr.apart j i hj hx hxi
    · exact hnone j hx
  refine ⟨fun j => ?_, fun j => ?_, fun j k hjk => ?_⟩
  · by_cases hj : j = i
    · subst hj
      rw [Function.update_self, Function.update_self]
    · rw [Function.update_of_ne hj, Function.update_of_ne hj, hr.head]
  · by_cases hj : j = i
    · subst hj
      rwa [Function.update_self]
    · rw [Function.update_of_ne hj]
      exact (hr.ring j).frame (hframe j hj)
  · by_cases hj : j = i
    · subst hj
      rw [Function.update_self, Function.update_of_ne (Ne.symm hjk)]
      exact fun x hx hxk => hother k (Ne.symm hjk) hxk hx
    · rw [Function.update_of_ne hj]
      by_cases hk : k = i
      · subst hk
        rw [Function.update_self]
        exact hother j hj
      · rw [Function.update_of_ne hk]
        exact hr.apart j k hjk

/-- **One list goes behind another**, and its variable is cleared. -/
lemma Represents.merge (hr : Represents h heads lists) {i j : ι} (hij : i ≠ j)
    (hring : Ring h' (lists i ++ lists j))
    (hframe : ∀ k, k ≠ i → k ≠ j → ∀ x ∈ lists k, h'.next x = h.next x ∧ h'.prev x = h.prev x) :
    Represents h' (Function.update (Function.update heads i (lists i ++ lists j).head?) j none)
      (Function.update (Function.update lists i (lists i ++ lists j)) j []) := by
  have hcleared : Represents h (Function.update heads j none) (Function.update lists j []) :=
    hr.update j Ring.nil (fun x hx => absurd hx List.not_mem_nil) fun _ _ _ _ => ⟨rfl, rfl⟩
  rw [Function.update_comm hij, Function.update_comm hij]
  refine hcleared.update i hring (fun x hx => ?_) fun k hk x hx => ?_
  · rw [Function.update_of_ne hij]
    refine (List.mem_append.mp hx).imp id fun hxj k => ?_
    by_cases hk : k = j
    · subst hk
      rw [Function.update_self]
      exact List.not_mem_nil
    · rw [Function.update_of_ne hk]
      exact fun hxk => hr.apart k j hk hxk hxj
  · by_cases hkj : k = j
    · subst hkj
      rw [Function.update_self] at hx
      exact absurd hx List.not_mem_nil
    · rw [Function.update_of_ne hkj] at hx
      exact hframe k hk hkj x hx

end Many

/-! ## Walks -/

/-- `advance` goes along `l` and stops at its end. -/
def Trail (advance : A → Option A) : List A → Prop
  | [] => True
  | x :: l => advance x = l.head? ∧ Trail advance l

lemma trail_of_isChain {advance : A → Option A} (hsteps : l.IsChain fun x y => advance x = some y)
    (hend : ∀ z ∈ l.getLast?, advance z = none) : Trail advance l := by
  induction l with
  | nil => trivial
  | cons x l ih =>
      cases l with
      | nil => exact ⟨hend x rfl, trivial⟩
      | cons y l =>
          refine ⟨(List.isChain_cons_cons.mp hsteps).1, ih hsteps.tail fun z hz => hend z ?_⟩
          rwa [List.getLast?_cons_cons]

/-- A trail may be entered anywhere. -/
lemma Trail.of_append {advance : A → Option A} (h : Trail advance (l ++ m)) : Trail advance m := by
  induction l with
  | nil => exact h
  | cons x l ih => exact ih h.2

/-- The nodes met on the way from `start`, if the way ends after `fuel` steps. -/
def walk (advance : A → Option A) : ℕ → Option A → Option (List A)
  | _, none => some []
  | 0, some _ => none
  | fuel + 1, some x => (walk advance fuel (advance x)).map (x :: ·)

/-- **A walk along a sequence** meets every node of it and ends. -/
lemma Trail.walk_eq {advance : A → Option A} (h : Trail advance l) (fuel : ℕ)
    (hfuel : l.length ≤ fuel) : walk advance fuel l.head? = some l := by
  induction l generalizing fuel with
  | nil => cases fuel <;> rfl
  | cons x l ih =>
      cases fuel with
      | zero => simp at hfuel
      | succ fuel =>
          have hrest := ih h.2 fuel (by simpa using hfuel)
          simp only [List.head?_cons, walk, h.1, hrest, Option.map_some]

end CircularList
