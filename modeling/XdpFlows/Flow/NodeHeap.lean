import XdpFlows.Core.CircularList
import XdpFlows.Flow.Store

/-!
# The lists in memory

`list.c` on a heap of nodes, pointer by pointer.  The flow store takes a circular list for the sequence
of its nodes; this module says that it may: the functions act on the sequences a heap represents as the
store has them act (`listPrependNode_ring`, `listUnlink_ring`), whatever other lists are in the same heap,
and the walks go along them.

`pointers_implement_sequences` has the functions, the walks and the two places where `cleanup_flows` works
on the pointers itself: the loop that unlinks the node it stands on, and the splice at its end.
-/

namespace Flow

open CircularList

namespace Heap

variable {A : Type} [DecidableEq A]

/-! ## `list.c` -/

/-- `list_get_first_node`. -/
def listGetFirstNode (list : Option A) : Option A :=
  list

/-- `list_get_last_node`. -/
def listGetLastNode (h : Links A) : Option A → Option A
  | none => none
  | some here => h.prev here

/-- `list_get_next_node`. -/
def listGetNextNode (h : Links A) (list : Option A) (link : A) : Option A :=
  if h.next link = list then none else h.next link

/-- `list_get_prev_node`. -/
def listGetPrevNode (h : Links A) (list : Option A) (link : A) : Option A :=
  if some link = list then none else h.prev link

/-- `list_prepend_node`. -/
def listPrependNode (h : Links A) (list : Option A) (node : A) : Links A × Option A :=
  match list with
  | none => ((h.setPrev node (some node)).setNext node (some node), some node)
  | some here =>
      let h := h.setPrev node (h.prev here)
      let h := h.setNext node (some here)
      let h := h.setPrev here (some node)
      let h := match h.prev node with
        | none => h
        | some last => h.setNext last (some node)
      -- `here == *list`
      (h, some node)

/-- `list_append_node`. -/
def listAppendNode (h : Links A) (list : Option A) (node : A) : Links A × Option A :=
  let (h, list) := listPrependNode h list node
  (h, list.bind h.next)

/-- `list_unlink`. -/
def listUnlink (h : Links A) (list : Option A) (node : A) : Links A × Option A :=
  let (h, list) :=
    if h.next node = some node then (h, none)
    else
      let h := match h.prev node with
        | none => h
        | some before => h.setNext before (h.next node)
      let h := match h.next node with
        | none => h
        | some behind => h.setPrev behind (h.prev node)
      (h, if list = some node then h.next node else list)
  ((h.setNext node none).setPrev node none, list)

/-- `list_pop_first_node`. -/
def listPopFirstNode (h : Links A) (list : Option A) : Links A × Option A × Option A :=
  match listGetFirstNode list with
  | none => (h, list, none)
  | some n =>
      let (h, list) := listUnlink h list n
      (h, list, some n)

/-- The loop of `list_search`, for at most `fuel` turns. -/
def listSearchLoop (h : Links A) (list : Option A) (found : A → Bool) :
    ℕ → Option A → Option (Option A)
  | _, none => some none
  | 0, some _ => none
  | fuel + 1, some n =>
      if found n then some (some n) else listSearchLoop h list found fuel (listGetNextNode h list n)

/-! ## One list -/

section One

variable {h : Links A} {l : List A} {n : A}

/-- **`list_prepend_node` is `cons`.** -/
lemma listPrependNode_ring (hr : Ring h l) (hn : n ∉ l) :
    Ring (listPrependNode h l.head? n).1 (n :: l) ∧ (listPrependNode h l.head? n).2 = some n
      ∧ ∀ x ∉ n :: l, (listPrependNode h l.head? n).1.next x = h.next x
        ∧ (listPrependNode h l.head? n).1.prev x = h.prev x := by
  cases l with
  | nil =>
      refine ⟨⟨List.nodup_singleton n, segment_singleton n, ?_⟩, rfl, fun x hx => ?_⟩
      · simp [Meets, CircularList.Joined, listPrependNode]
      · simp only [List.mem_singleton] at hx
        simp [listPrependNode, hx]
  | cons a t =>
      obtain ⟨z, hz⟩ : ∃ z, (a :: t).getLast? = some z :=
        Option.ne_none_iff_exists'.mp (by simp)
      have hza : h.prev a = some z := (hr.closed z hz a rfl).2
      have hzmem : z ∈ a :: t := List.mem_of_getLast? hz
      have hnz : n ≠ z := fun heq => hn (heq ▸ hzmem)
      have hna : n ≠ a := fun heq => hn (heq ▸ List.mem_cons_self ..)
      have heq : listPrependNode h (a :: t).head? n
          = ((((h.setPrev n (some z)).setNext n (some a)).setPrev a (some n)).setNext z (some n),
            some n) := by
        simp [listPrependNode, hza, hna]
      rw [heq]
      refine ⟨?_, rfl, fun x hx => ?_⟩
      · refine Ring.join (l := [n]) (List.nodup_cons.mpr ⟨hn, hr.nodup⟩) (by simp) (by simp)
          (segment_singleton n) hr.segment ?_ ?_ ?_ ?_
        · intro x hx hx'
          simp only [List.getLast?_singleton, Option.mem_some_iff, hz] at hx hx'
          simp [Ne.symm hx, Ne.symm hx']
        · intro y hy hy'
          simp only [List.head?_cons, Option.mem_some_iff] at hy hy'
          simp [Ne.symm hy, Ne.symm hy']
        · simp [Meets, CircularList.Joined, hnz]
        · simp [Meets, CircularList.Joined, hz, hna]
      · have hxz : x ≠ z := fun heq => hx (heq ▸ List.mem_cons_of_mem _ hzmem)
        simp only [List.mem_cons, not_or] at hx
        simp [hx, hxz]

/-- **`list_append_node` puts a node at the end.** -/
lemma listAppendNode_ring (hr : Ring h l) (hn : n ∉ l) :
    Ring (listAppendNode h l.head? n).1 (l ++ [n])
      ∧ (listAppendNode h l.head? n).2 = (l ++ [n]).head?
      ∧ ∀ x ∉ n :: l, (listAppendNode h l.head? n).1.next x = h.next x
        ∧ (listAppendNode h l.head? n).1.prev x = h.prev x := by
  obtain ⟨hring, hhead, hframe⟩ := listPrependNode_ring hr hn
  refine ⟨hring.rotate (l := [n]), ?_, hframe⟩
  show (listPrependNode h l.head? n).2.bind (listPrependNode h l.head? n).1.next = _
  rw [hhead, Option.bind_some]
  cases l with
  | nil => exact (hring.closed n rfl n rfl).1
  | cons a t => exact (List.isChain_cons_cons.mp hring.segment).1.1

/-- **`list_unlink` removes a node**, and leaves it without neighbours. -/
lemma listUnlink_ring (hr : Ring h l) (hn : n ∈ l) :
    Ring (listUnlink h l.head? n).1 (l.erase n)
      ∧ (listUnlink h l.head? n).2 = (l.erase n).head?
      ∧ (∀ x ∉ l, (listUnlink h l.head? n).1.next x = h.next x
        ∧ (listUnlink h l.head? n).1.prev x = h.prev x)
      ∧ (listUnlink h l.head? n).1.next n = none ∧ (listUnlink h l.head? n).1.prev n = none := by
  obtain ⟨before, behind, hbefore, rfl, herase⟩ := List.exists_erase_eq hn
  rw [herase]
  -- the circle, cut at the node
  have hcut : Ring h ([n] ++ (behind ++ before)) := by
    have hrotated := hr.rotate
    rwa [List.cons_append] at hrotated
  by_cases halone : behind ++ before = []
  · obtain ⟨rfl, rfl⟩ := List.append_eq_nil_iff.mp halone
    have hself : h.next n = some n := (hcut.closed n rfl n rfl).1
    refine ⟨Ring.nil, by simp [listUnlink, hself], fun x hx => ?_, ?_⟩
    · simp only [List.nil_append, List.mem_singleton] at hx
      simp [listUnlink, hself, hx]
    · simp [listUnlink, hself]
  · obtain ⟨hnodup, -, hsegment, hfirst, hlast⟩ := (Ring.append_iff (by simp) halone).mp hcut
    obtain ⟨y, hy⟩ : ∃ y, (behind ++ before).head? = some y :=
      Option.ne_none_iff_exists'.mp (mt List.head?_eq_none_iff.mp halone)
    obtain ⟨z, hz⟩ : ∃ z, (behind ++ before).getLast? = some z :=
      Option.ne_none_iff_exists'.mp (mt List.getLast?_eq_none_iff.mp halone)
    have hnext : h.next n = some y := (hfirst n rfl y hy).1
    have hprev : h.prev n = some z := (hlast z hz n rfl).2
    obtain ⟨hnot, hrest⟩ := List.nodup_cons.mp hnodup
    have hny : n ≠ y := fun heq => hnot (heq ▸ List.mem_of_head? hy)
    have hnz : n ≠ z := fun heq => hnot (heq ▸ List.mem_of_getLast? hz)
    have heq : listUnlink h (before ++ n :: behind).head? n
        = ((((h.setNext z (some y)).setPrev y (some z)).setNext n none).setPrev n none,
          if (before ++ n :: behind).head? = some n then some y
          else (before ++ n :: behind).head?) := by
      simp [listUnlink, hnext, hprev, Ne.symm hny, hnz]
    rw [heq]
    refine ⟨?_, ?_, fun x hx => ?_, by simp, by simp⟩
    · refine Ring.rotate (l := behind) (Ring.close hrest hsegment ?_ ?_ ?_)
      · intro x hx hxz
        rw [hz, Option.mem_some_iff] at hxz
        have hxn : x ≠ n := fun heq => hnot (heq ▸ hx)
        simp [hxn, Ne.symm hxz]
      · intro x hx hxy
        rw [hy, Option.mem_some_iff] at hxy
        have hxn : x ≠ n := fun heq => hnot (heq ▸ hx)
        simp [hxn, Ne.symm hxy]
      · simp [Meets, CircularList.Joined, hy, hz, Ne.symm hny, Ne.symm hnz]
    · cases before with
      | nil => simpa using hy.symm
      | cons a t =>
          have han : a ≠ n := fun heq => hbefore (heq ▸ List.mem_cons_self ..)
          simp [han]
    · have hxn : x ≠ n := by
        rintro rfl
        exact hx (by simp)
      have hout : ∀ w ∈ behind ++ before, x ≠ w := by
        rintro w hw rfl
        exact hx (by simp only [List.mem_append, List.mem_cons] at hw ⊢; tauto)
      simp [hxn, hout y (List.mem_of_head? hy), hout z (List.mem_of_getLast? hz)]

/-! ## Walking -/

omit [DecidableEq A] in
lemma listGetLastNode_eq (hr : Ring h l) : listGetLastNode h l.head? = l.getLast? := by
  cases l with
  | nil => rfl
  | cons a t =>
      obtain ⟨z, hz⟩ : ∃ z, (a :: t).getLast? = some z :=
        Option.ne_none_iff_exists'.mp (by simp)
      rw [hz]
      exact (hr.closed z hz a rfl).2

/-- `list_get_next_node` goes along the list to its end. -/
lemma listGetNextNode_trail (hr : Ring h l) : Trail (listGetNextNode h l.head?) l := by
  cases l with
  | nil => trivial
  | cons a t =>
      refine trail_of_isChain ?_ fun z hz => ?_
      · refine List.IsChain.imp_of_mem_tail_imp (fun x y hx hy hxy => ?_) hr.segment
        rw [List.tail_cons] at hy
        have hya : y ≠ a := fun heq => (List.nodup_cons.mp hr.nodup).1 (heq ▸ hy)
        rw [listGetNextNode, hxy.1, if_neg (by simpa using hya)]
      · rw [listGetNextNode, (hr.closed z hz a rfl).1, List.head?_cons, if_pos rfl]

/-- `list_get_prev_node` goes back to its beginning. -/
lemma listGetPrevNode_trail (hr : Ring h l) : Trail (listGetPrevNode h l.head?) l.reverse := by
  cases l with
  | nil => trivial
  | cons a t =>
      refine trail_of_isChain ?_ fun z hz => ?_
      · rw [List.isChain_reverse]
        refine List.IsChain.imp_of_mem_tail_imp (fun x y hx hy hxy => ?_) hr.segment
        rw [List.tail_cons] at hy
        have hya : y ≠ a := fun heq => (List.nodup_cons.mp hr.nodup).1 (heq ▸ hy)
        rw [listGetPrevNode, if_neg (by simpa using hya), hxy.2]
      · have hza : a = z := by simpa using hz
        simp [listGetPrevNode, ← hza]

/-- **`list_search` is a search of the sequence.** -/
lemma listSearchLoop_eq {list : Option A} (htrail : Trail (listGetNextNode h list) l) (found : A → Bool)
    (fuel : ℕ) (hfuel : l.length ≤ fuel) :
    listSearchLoop h list found fuel l.head? = some (l.find? found) := by
  induction l generalizing fuel with
  | nil => cases fuel <;> rfl
  | cons x l ih =>
      cases fuel with
      | zero => simp at hfuel
      | succ fuel =>
          have hrest := ih htrail.2 fuel (by simpa using hfuel)
          simp only [List.head?_cons, listSearchLoop, htrail.1, hrest, List.find?_cons]
          cases found x <;> rfl

end One

/-! ## Many lists -/

/-- A heap, and the variables that point into it. -/
structure Memory (ι A : Type) where
  links : Links A
  heads : ι → Option A

section Many

variable {ι : Type} [DecidableEq ι]

namespace Memory

variable (m : Memory ι A) (i : ι)

/-- `list_prepend_node(&i, node)`. -/
def prepend (node : A) : Memory ι A :=
  let (h, list) := listPrependNode m.links (m.heads i) node
  ⟨h, Function.update m.heads i list⟩

/-- `list_append_node(&i, node)`. -/
def append (node : A) : Memory ι A :=
  let (h, list) := listAppendNode m.links (m.heads i) node
  ⟨h, Function.update m.heads i list⟩

/-- `list_unlink(&i, node)`. -/
def unlink (node : A) : Memory ι A :=
  let (h, list) := listUnlink m.links (m.heads i) node
  ⟨h, Function.update m.heads i list⟩

/-- `list_pop_first_node(&i)`. -/
def popFirst : Memory ι A × Option A :=
  let (h, list, n) := listPopFirstNode m.links (m.heads i)
  (⟨h, Function.update m.heads i list⟩, n)

end Memory

/-- The first loop of `cleanup_flows` on the pointers, for at most `fuel` turns.  What `turn` says of a
node is read from sessions: nothing, if its flow has not expired, or the bucket it is in and its node
there. -/
def cleanupLoop (active flags : ι) (turn : A → Option (ι × A)) :
    ℕ → Memory ι A → Option A → Option (Memory ι A)
  | _, m, none => some m
  | 0, _, some _ => none
  | fuel + 1, m, some n =>
      match turn n with
      | none => some m
      | some (bucket, currentNodeSessionTable) =>
          let m := m.unlink bucket currentNodeSessionTable
          let next := listGetPrevNode m.links (m.heads active) n
          let m := m.unlink active n
          let m := m.append flags n
          cleanupLoop active flags turn fuel m next

/-- The end of `cleanup_flows` on the pointers. -/
def spliceExpired (expired flags : ι) (m : Memory ι A) : Option (Memory ι A) :=
  match m.heads flags with
  | none => some ⟨m.links, Function.update m.heads flags none⟩
  | some firstExpiredFlags => do
      let lastExpiredFlags ← listGetLastNode m.links (m.heads flags)
      match listGetFirstNode (m.heads expired) with
      | some firstExpired =>
          let lastExpired ← listGetLastNode m.links (m.heads expired)
          let h := m.links.setPrev firstExpired (some lastExpiredFlags)
          let h := h.setNext lastExpired (some firstExpiredFlags)
          let h := h.setPrev firstExpiredFlags (some lastExpired)
          let h := h.setNext lastExpiredFlags (some firstExpired)
          return ⟨h, Function.update m.heads flags none⟩
      | none =>
          return ⟨m.links, Function.update (Function.update m.heads expired (some firstExpiredFlags))
            flags none⟩

variable {m : Memory ι A} {lists : ι → List A} {i : ι} {n : A}

/-- The lists a memory represents. -/
abbrev Memory.Shows (m : Memory ι A) (lists : ι → List A) : Prop :=
  Represents m.links m.heads lists

namespace Memory.Shows

variable (hm : m.Shows lists)

include hm

omit [DecidableEq A] [DecidableEq ι] in
/-- Nodes of the other lists are neither in `lists i` nor `n`. -/
lemma frame_of_fresh (hn : ∀ j, n ∉ lists j) {h' : Links A}
    (hframe : ∀ x ∉ n :: lists i, h'.next x = m.links.next x ∧ h'.prev x = m.links.prev x) :
    ∀ j ≠ i, ∀ x ∈ lists j, h'.next x = m.links.next x ∧ h'.prev x = m.links.prev x := by
  intro j hj x hx
  refine hframe x fun hmem => ?_
  rcases List.mem_cons.mp hmem with rfl | hmem
  · exact hn j hx
  · exact hm.apart j i hj hx hmem

lemma prepend (hn : ∀ j, n ∉ lists j) :
    (m.prepend i n).Shows (Function.update lists i (n :: lists i)) := by
  obtain ⟨hring, hhead, hframe⟩ := listPrependNode_ring (hm.ring i) (hn i)
  have hupdate := hm.update i hring (fun x hx => ?_) (hm.frame_of_fresh hn hframe)
  · rw [List.head?_cons, ← hhead, ← hm.head i] at hupdate
    exact hupdate
  · rcases List.mem_cons.mp hx with rfl | hx
    · exact Or.inr hn
    · exact Or.inl hx

lemma append (hn : ∀ j, n ∉ lists j) :
    (m.append i n).Shows (Function.update lists i (lists i ++ [n])) := by
  obtain ⟨hring, hhead, hframe⟩ := listAppendNode_ring (hm.ring i) (hn i)
  have hupdate := hm.update i hring (fun x hx => ?_) (hm.frame_of_fresh hn hframe)
  · rw [← hhead, ← hm.head i] at hupdate
    exact hupdate
  · rcases List.mem_append.mp hx with hx | hx
    · exact Or.inl hx
    · rw [List.mem_singleton.mp hx]
      exact Or.inr hn

lemma unlink (hn : n ∈ lists i) :
    (m.unlink i n).Shows (Function.update lists i ((lists i).erase n))
      ∧ (m.unlink i n).links.next n = none ∧ (m.unlink i n).links.prev n = none := by
  obtain ⟨hring, hhead, hframe, halone⟩ := listUnlink_ring (hm.ring i) hn
  have hupdate := hm.update i hring (fun x hx => Or.inl (List.mem_of_mem_erase hx))
    fun j hj x hx => hframe x fun hmem => hm.apart j i hj hx hmem
  rw [← hhead, ← hm.head i] at hupdate
  rw [← hm.head i] at halone
  exact ⟨hupdate, halone⟩

/-- An unlinked node is in no list. -/
lemma unlinked (hn : n ∈ lists i) (j : ι) : n ∉ Function.update lists i ((lists i).erase n) j := by
  by_cases hj : j = i
  · subst hj
    rw [Function.update_self]
    exact fun hmem => (List.Nodup.mem_erase_iff (hm.ring j).nodup).mp hmem |>.1 rfl
  · rw [Function.update_of_ne hj]
    exact fun hmem => hm.apart j i hj hmem hn

lemma popFirst : (m.popFirst i).1.Shows (Function.update lists i (lists i).tail)
    ∧ (m.popFirst i).2 = (lists i).head? := by
  have hhead := hm.head i
  cases hl : lists i with
  | nil =>
      rw [hl] at hhead
      have hsame : m.popFirst i = (m, none) := by
        simp only [Memory.popFirst, hhead, listPopFirstNode, listGetFirstNode, List.head?_nil]
        rw [← List.head?_nil, ← hhead, Function.update_eq_self]
      rw [hsame, List.tail_nil, ← hl, Function.update_eq_self, hl]
      exact ⟨hm, rfl⟩
  | cons a t =>
      rw [hl] at hhead
      have hpop : m.popFirst i = (m.unlink i a, some a) := by
        simp only [Memory.popFirst, Memory.unlink, hhead, listPopFirstNode, listGetFirstNode,
          List.head?_cons]
      have hunlink := (hm.unlink (i := i) (n := a) (hl ▸ List.mem_cons_self ..)).1
      rw [hl, List.erase_cons_head] at hunlink
      rw [hpop]
      exact ⟨hunlink, rfl⟩

/-- **The splice** puts one list behind another. -/
lemma splice {expired flags : ι} (hne : expired ≠ flags) :
    ∃ m', spliceExpired expired flags m = some m' ∧ m'.Shows (Function.update
      (Function.update lists expired (lists expired ++ lists flags)) flags []) := by
  have hE := hm.ring expired
  have hF := hm.ring flags
  have hheadE := hm.head expired
  have hheadF := hm.head flags
  have hdisjoint := hm.apart expired flags hne
  have hmerge : ∀ h', Ring h' (lists expired ++ lists flags) → _ → Represents h' _ _ :=
    fun _ => hm.merge hne
  have hother : ∀ k, k ≠ expired → k ≠ flags → ∀ x ∈ lists k, x ∉ lists expired ∧ x ∉ lists flags :=
    fun k hkE hkF x hx => ⟨hm.apart k expired hkE hx, hm.apart k flags hkF hx⟩
  generalize lists expired = E at hE hheadE hdisjoint hmerge hother ⊢
  generalize lists flags = F at hF hheadF hdisjoint hmerge hother ⊢
  cases F with
  | nil =>
      refine ⟨_, by rw [spliceExpired, hheadF]; rfl, ?_⟩
      have hsame := hmerge m.links (by rwa [List.append_nil]) fun _ _ _ _ _ => ⟨rfl, rfl⟩
      rw [List.append_nil] at hsame ⊢
      rw [← hheadE, Function.update_eq_self] at hsame
      exact hsame
  | cons a t =>
      obtain ⟨z, hz⟩ : ∃ z, (a :: t).getLast? = some z := Option.ne_none_iff_exists'.mp (by simp)
      have hprevF : m.links.prev a = some z := (hF.closed z hz a rfl).2
      cases E with
      | nil =>
          refine ⟨_, by
            simp only [spliceExpired, hheadF, hheadE, listGetFirstNode, listGetLastNode,
              List.head?_cons, List.head?_nil, hprevF, Option.bind_eq_bind, Option.bind_some]
            rfl, ?_⟩
          exact hmerge m.links hF fun _ _ _ _ _ => ⟨rfl, rfl⟩
      | cons b u =>
          obtain ⟨y, hy⟩ : ∃ y, (b :: u).getLast? = some y :=
            Option.ne_none_iff_exists'.mp (by simp)
          have hprevE : m.links.prev b = some y := (hE.closed y hy b rfl).2
          refine ⟨_, by
            simp only [spliceExpired, hheadF, hheadE, listGetFirstNode, listGetLastNode,
              List.head?_cons, hprevF, hprevE, Option.bind_eq_bind, Option.bind_some]
            rfl, ?_⟩
          have hab : a ≠ b := fun heq => hdisjoint (List.mem_cons_self ..) (heq ▸ List.mem_cons_self ..)
          have hyz : y ≠ z := fun heq => hdisjoint (List.mem_of_getLast? hy) (heq ▸ List.mem_of_getLast? hz)
          have hjoined := hmerge ((((m.links.setPrev b (some z)).setNext y (some a)).setPrev a
            (some y)).setNext z (some b)) ?_ ?_
          · rw [List.head?_append_of_ne_nil _ (by simp), ← hheadE, Function.update_eq_self] at hjoined
            exact hjoined
          · refine Ring.join (List.nodup_append.mpr ⟨hE.nodup, hF.nodup, ?_⟩) (by simp) (by simp)
              hE.segment hF.segment ?_ ?_ ?_ ?_
            · rintro x hx _ hx' rfl
              exact hdisjoint hx hx'
            · intro x hxy hxz
              rw [hy, Option.mem_some_iff] at hxy
              rw [hz, Option.mem_some_iff] at hxz
              simp [Ne.symm hxy, Ne.symm hxz]
            · intro x hxb hxa
              simp only [List.head?_cons, Option.mem_some_iff] at hxa hxb
              simp [Ne.symm hxa, Ne.symm hxb]
            · simp [Meets, CircularList.Joined, hy, hyz]
            · simp [Meets, CircularList.Joined, hz, Ne.symm hab]
          · intro k hkE hkF x hx
            obtain ⟨hxE, hxF⟩ := hother k hkE hkF x hx
            have hxa : x ≠ a := fun heq => hxF (heq ▸ List.mem_cons_self ..)
            have hxb : x ≠ b := fun heq => hxE (heq ▸ List.mem_cons_self ..)
            have hxy : x ≠ y := fun heq => hxE (heq ▸ List.mem_of_getLast? hy)
            have hxz : x ≠ z := fun heq => hxF (heq ▸ List.mem_of_getLast? hz)
            simp [hxa, hxb, hxy, hxz]

end Memory.Shows

/-! ## The loop of `cleanup_flows` -/

/-- One turn of the loop on the sequences. -/
def expireOne (active flags : ι) (turn : A → Option (ι × A)) (lists : ι → List A) (n : A) : ι → List A :=
  match turn n with
  | none => lists
  | some (bucket, b) =>
      let lists := Function.update lists bucket ((lists bucket).erase b)
      let lists := Function.update lists active ((lists active).erase n)
      Function.update lists flags (lists flags ++ [n])

omit [DecidableEq ι] in
/-- `prev` of a node of the list, which stands between `before` and `behind`. -/
lemma Memory.Shows.listGetPrevNode_eq (hm : m.Shows lists) {before behind : List A}
    (hl : lists i = before ++ n :: behind) :
    listGetPrevNode m.links (m.heads i) n = before.getLast? := by
  have htrail := listGetPrevNode_trail (hm.ring i)
  rw [← hm.head i, hl, List.reverse_append, List.reverse_cons, List.append_assoc] at htrail
  rw [htrail.of_append.1]
  simp

/-- **One turn**, in which the node unlinked is the one the loop stands on. -/
lemma Memory.Shows.turn {active flags bucket : ι} {b : A} (hm : m.Shows lists)
    (hactive : bucket ≠ active) {before : List A} (hl : lists active = before ++ [n])
    (hb : b ∈ lists bucket) {turn : A → Option (ι × A)} (hturn : turn n = some (bucket, b)) :
    (((m.unlink bucket b).unlink active n).append flags n).Shows
        (expireOne active flags turn lists n)
      ∧ listGetPrevNode (m.unlink bucket b).links ((m.unlink bucket b).heads active) n
        = before.getLast? := by
  have hfirst := (hm.unlink hb).1
  have hsame : Function.update lists bucket ((lists bucket).erase b) active = before ++ [n] := by
    rw [Function.update_of_ne (Ne.symm hactive), hl]
  have hn : n ∈ Function.update lists bucket ((lists bucket).erase b) active := by
    rw [hsame]
    exact List.mem_append_right _ (List.mem_singleton_self n)
  have hsecond := (hfirst.unlink hn).1
  have hthird := hsecond.append (i := flags) (hfirst.unlinked hn)
  refine ⟨?_, hfirst.listGetPrevNode_eq hsame⟩
  simp only [expireOne, hturn]
  exact hthird

/-- What one turn leaves in the active list, in that of the flows just expired, and in the buckets. -/
lemma expireOne_eq {active flags bucket : ι} {b : A} (hne : active ≠ flags) (hactive : bucket ≠ active)
    (hflags : bucket ≠ flags) {turn : A → Option (ι × A)} (hturn : turn n = some (bucket, b)) :
    expireOne active flags turn lists n active = (lists active).erase n
      ∧ expireOne active flags turn lists n flags = lists flags ++ [n]
      ∧ ∀ k, k ≠ active → k ≠ flags → expireOne active flags turn lists n k
        = if k = bucket then (lists k).erase b else lists k := by
  simp only [expireOne, hturn]
  refine ⟨?_, ?_, fun k hka hkf => ?_⟩
  · rw [Function.update_of_ne hne, Function.update_self, Function.update_of_ne (Ne.symm hactive)]
  · rw [Function.update_self, Function.update_of_ne (Ne.symm hne),
      Function.update_of_ne (Ne.symm hflags)]
  · rw [Function.update_of_ne hkf, Function.update_of_ne hka]
    split_ifs with hk
    · rw [hk, Function.update_self]
    · rw [Function.update_of_ne hk]

/-- **The loop** visits the expired nodes at the end of the active list and stops before the first one
that has not expired. -/
lemma cleanupLoop_shows {active flags : ι} (hne : active ≠ flags) {turn : A → Option (ι × A)}
    {keep gone : List A} (hm : m.Shows lists) (hl : lists active = keep ++ gone)
    (hstop : ∀ z ∈ keep.getLast?, turn z = none)
    (hgone : ∀ x ∈ gone, ∃ bucket b, turn x = some (bucket, b) ∧ bucket ≠ active ∧ bucket ≠ flags
      ∧ b ∈ lists bucket) (hdistinct : (gone.map turn).Nodup) (fuel : ℕ)
    (hfuel : (lists active).length ≤ fuel) :
    ∃ m', cleanupLoop active flags turn fuel m (lists active).getLast? = some m'
      ∧ m'.Shows (gone.reverse.foldl (expireOne active flags turn) lists)
      ∧ gone.reverse.foldl (expireOne active flags turn) lists active = keep
      ∧ gone.reverse.foldl (expireOne active flags turn) lists flags = lists flags ++ gone.reverse := by
  induction gone using List.reverseRecOn generalizing m lists fuel with
  | nil =>
      rw [List.append_nil] at hl
      refine ⟨m, ?_, hm, hl, (List.append_nil _).symm⟩
      rw [hl] at hfuel ⊢
      cases hlast : keep.getLast? with
      | none => cases fuel <;> rfl
      | some z =>
          cases fuel with
          | zero => simp [List.eq_nil_of_length_eq_zero (Nat.le_zero.mp hfuel)] at hlast
          | succ fuel => simp only [cleanupLoop, hstop z hlast]
  | append_singleton gone n ih =>
      obtain ⟨bucket, b, hturn, hactive, hflags, hb⟩ := hgone n (by simp)
      rw [← List.append_assoc] at hl
      obtain ⟨hshows, hprev⟩ := hm.turn hactive hl hb hturn
      have hone : expireOne active flags turn lists n active = (lists active).erase n
          ∧ expireOne active flags turn lists n flags = lists flags ++ [n] ∧ _ :=
        expireOne_eq hne hactive hflags hturn
      obtain ⟨hnewActive, hnewFlags, hother⟩ := hone
      have hnodup := (hm.ring active).nodup
      rw [hl] at hnodup
      have hnot : n ∉ keep ++ gone := fun hmem =>
        (List.nodup_append.mp hnodup).2.2 n hmem n (List.mem_singleton_self n) rfl
      rw [hl, List.erase_append_right _ hnot, List.erase_cons_head, List.append_nil] at hnewActive
      rw [List.map_append, List.map_singleton, List.nodup_append] at hdistinct
      cases fuel with
      | zero => simp [hl] at hfuel
      | succ fuel =>
          have hgone' : ∀ x ∈ gone, ∃ bucket b, turn x = some (bucket, b) ∧ bucket ≠ active
              ∧ bucket ≠ flags ∧ b ∈ expireOne active flags turn lists n bucket := by
            intro x hx
            obtain ⟨bucket', b', hturn', hactive', hflags', hb'⟩ := hgone x (by simp [hx])
            refine ⟨bucket', b', hturn', hactive', hflags', ?_⟩
            rw [hother bucket' hactive' hflags']
            split_ifs with hk
            · refine (List.mem_erase_of_ne fun heq => ?_).mpr hb'
              refine hdistinct.2.2 _ (List.mem_map_of_mem hx) _ (List.mem_singleton_self _) ?_
              rw [hturn', hturn, hk, heq]
            · exact hb'
          have hfuel' : (expireOne active flags turn lists n active).length ≤ fuel := by
            rw [hnewActive]
            rw [hl, List.length_append, List.length_singleton] at hfuel
            omega
          obtain ⟨m', hloop, hm', hkeep, hmoved⟩ := ih hshows hnewActive hgone' hdistinct.1 fuel hfuel'
          refine ⟨m', ?_, ?_, ?_, ?_⟩
          · rw [hl, List.getLast?_concat]
            simp only [cleanupLoop, hturn, hprev]
            rw [← hnewActive]
            exact hloop
          · simpa using hm'
          · simpa using hkeep
          · simpa [hnewFlags] using hmoved

/-! ## All of it -/

/-- What the functions of `list.c` and the two pieces of `cleanup_flows` do to the lists of a memory. -/
structure PointerSurgery (m : Memory ι A) (lists : ι → List A) : Prop where
  prepend : ∀ i n, (∀ j, n ∉ lists j) →
    (m.prepend i n).Shows (Function.update lists i (n :: lists i))
  append : ∀ i n, (∀ j, n ∉ lists j) →
    (m.append i n).Shows (Function.update lists i (lists i ++ [n]))
  unlink : ∀ i, ∀ n ∈ lists i,
    (m.unlink i n).Shows (Function.update lists i ((lists i).erase n))
      ∧ ∀ j, n ∉ Function.update lists i ((lists i).erase n) j
  popFirst : ∀ i, (m.popFirst i).1.Shows (Function.update lists i (lists i).tail)
    ∧ (m.popFirst i).2 = (lists i).head?
  search : ∀ i found fuel, (lists i).length ≤ fuel →
    listSearchLoop m.links (m.heads i) found fuel (listGetFirstNode (m.heads i))
      = some ((lists i).find? found)
  /-- A walk meets the nodes of the list, each once, and ends. -/
  forward : ∀ i fuel, (lists i).Nodup ∧ ((lists i).length ≤ fuel →
    walk (listGetNextNode m.links (m.heads i)) fuel (listGetFirstNode (m.heads i))
      = some (lists i))
  backward : ∀ i fuel, (lists i).length ≤ fuel →
    walk (listGetPrevNode m.links (m.heads i)) fuel (listGetLastNode m.links (m.heads i))
      = some (lists i).reverse
  /-- So does the walk that unlinks the nodes it stands on. -/
  cleanup : ∀ active flags turn keep gone fuel, active ≠ flags → lists active = keep ++ gone →
    (∀ z ∈ keep.getLast?, turn z = none) →
    (∀ x ∈ gone, ∃ bucket b, turn x = some (bucket, b) ∧ bucket ≠ active ∧ bucket ≠ flags
      ∧ b ∈ lists bucket) →
    (gone.map turn).Nodup → (lists active).length ≤ fuel →
    ∃ m', cleanupLoop active flags turn fuel m (listGetLastNode m.links (m.heads active)) = some m'
      ∧ m'.Shows (gone.reverse.foldl (expireOne active flags turn) lists)
      ∧ gone.reverse.foldl (expireOne active flags turn) lists active = keep
      ∧ gone.reverse.foldl (expireOne active flags turn) lists flags = lists flags ++ gone.reverse
  splice : ∀ expired flags, expired ≠ flags →
    ∃ m', spliceExpired expired flags m = some m' ∧ m'.Shows (Function.update
      (Function.update lists expired (lists expired ++ lists flags)) flags [])

/-- **Pointer surgery implements sequences**, for any number of lists of any lengths in one heap. -/
theorem pointers_implement_sequences (hm : m.Shows lists) : PointerSurgery m lists where
  prepend _ _ := hm.prepend
  append _ _ := hm.append
  unlink _ _ hn := ⟨(hm.unlink hn).1, hm.unlinked hn⟩
  popFirst _ := hm.popFirst
  search i found fuel hfuel := by
    have htrail := listGetNextNode_trail (hm.ring i)
    rw [listGetFirstNode, hm.head i]
    exact listSearchLoop_eq htrail found fuel hfuel
  forward i fuel := by
    refine ⟨(hm.ring i).nodup, fun hfuel => ?_⟩
    rw [listGetFirstNode, hm.head i]
    exact (listGetNextNode_trail (hm.ring i)).walk_eq fuel hfuel
  backward i fuel hfuel := by
    rw [hm.head i, listGetLastNode_eq (hm.ring i), ← List.head?_reverse]
    exact (listGetPrevNode_trail (hm.ring i)).walk_eq fuel (by rwa [List.length_reverse])
  cleanup active flags turn keep gone fuel hne hl hstop hgone hdistinct hfuel := by
    rw [hm.head active, listGetLastNode_eq (hm.ring active)]
    exact cleanupLoop_shows hne hm hl hstop hgone hdistinct fuel hfuel
  splice _ _ := hm.splice

/-- Two lists, of two nodes and of one. -/
def twoLists : Memory Bool ℕ :=
  (((Memory.mk ⟨fun _ => none, fun _ => none⟩ fun _ => none).prepend true 5).append true 7).prepend
    false 9

/-- Here the list of two nodes is spliced behind that of one. -/
theorem pointers_implement_sequences_two : ∃ lists, lists true = [5, 7] ∧ lists false = [9]
    ∧ PointerSurgery twoLists lists ∧ ∃ m', spliceExpired false true twoLists = some m'
      ∧ m'.heads false = some 9 ∧ m'.heads true = none := by
  have hempty : (Memory.mk ⟨fun _ => none, fun _ => none⟩ fun _ => none : Memory Bool ℕ).Shows
      fun _ => [] :=
    ⟨fun _ => rfl, fun _ => Ring.nil, fun _ _ _ x hx => absurd hx List.not_mem_nil⟩
  have hshows := ((hempty.prepend (i := true) (n := 5) (by simp)).append (i := true) (n := 7)
    (by simp [Function.update_apply])).prepend (i := false) (n := 9) (by simp [Function.update_apply])
  exact ⟨_, by simp, by simp, pointers_implement_sequences hshows, _, rfl, rfl, rfl⟩

end Many

end Heap

/-! ## The lists of the monitor -/

section Monitor

open Heap

/-- The variables of `IPflow.c` that point to lists. -/
inductive ListVar where
  | active
  | flags
  | expired
  | bucket (index : ℕ)
deriving DecidableEq

/-- Their lists in the flow store. -/
def State.lists (s : State) : ListVar → List NodeId
  | .active => s.activeFlowList
  | .flags => s.flagsExpiredFlowList
  | .expired => s.expiredFlowList
  | .bucket index => s.flowTable index

/-- What the loop of `cleanup_flows` finds out about a node of the active list. -/
def State.turn (s : State) (n : NodeId) : Option (ListVar × NodeId) :=
  match s.nodeData n with
  | .node b =>
      match s.sessionAt b with
      | none => none
      | some i =>
          if hasExpired (s.ips i).lastpacketTimestamp s.lastPacketTimestamp then
            some (.bucket (getIndex (s.ips i).incoming), b)
          else none
  | _ => none

variable {s : State} {n b : NodeId} {bucket : ListVar} {m : Memory ListVar NodeId}

lemma lists_log (s : State) (e : Event) : (s.log e).lists = s.lists := by
  funext v
  cases v <;> rfl

lemma lists_releaseNodel (s : State) (b : NodeId) : (releaseNodel s b).lists = s.lists := by
  rw [releaseNodel]
  split <;> rfl

lemma lists_unlinkSession (s : State) (n b : NodeId) (i : SessionId) :
    (unlinkSession s n b i).lists = Function.update s.lists (.bucket (getIndex (s.ips i).incoming))
      ((s.flowTable (getIndex (s.ips i).incoming)).erase b) := by
  rw [unlinkSession, lists_releaseNodel]
  funext v
  cases v with
  | bucket index =>
      by_cases hindex : index = getIndex (s.ips i).incoming
      · simp [State.lists, State.setBucket, State.setData, hindex]
      · simp [State.lists, State.setBucket, State.setData, Function.update_of_ne, hindex]
  | _ => rfl

/-- What the flow store makes of the lists in one turn. -/
lemma lists_cleanupStep (hturn : s.turn n = some (bucket, b)) :
    (cleanupStep n s).1.lists = expireOne .active .flags s.turn s.lists n
      ∧ (cleanupStep n s).2 = Flow.listGetPrevNode s.activeFlowList n
      ∧ ∃ index, bucket = .bucket index := by
  rw [State.turn] at hturn
  cases hdata : s.nodeData n with
  | null => simp [hdata] at hturn
  | session i => simp [hdata] at hturn
  | node c =>
      cases hsession : s.sessionAt c with
      | none => simp [hdata, hsession] at hturn
      | some i =>
          simp only [hdata, hsession] at hturn
          split_ifs at hturn with hexpired
          obtain ⟨rfl, rfl⟩ := Prod.mk.inj (Option.some.inj hturn)
          have hturn' : s.turn n = some (.bucket (getIndex (s.ips i).incoming), c) := by
            simp only [State.turn, hdata, hsession, if_pos hexpired]
          have hunlinked := lists_unlinkSession
            (s.log (.tested (s.ips i).lastpacketTimestamp s.lastPacketTimestamp)) n c i
          rw [lists_log] at hunlinked
          simp only [cleanupStep, hdata, hsession]
          rw [if_pos (show hasExpired _ (s.log _).lastPacketTimestamp = true from hexpired)]
          generalize unlinkSession (s.log _) n c i = u at hunlinked ⊢
          have hactive : u.activeFlowList = s.activeFlowList := congrFun hunlinked .active
          have hflags : u.flagsExpiredFlowList = s.flagsExpiredFlowList := congrFun hunlinked .flags
          refine ⟨?_, by rw [← hactive], _, rfl⟩
          simp only [expireOne, hturn']
          funext v
          cases v with
          | active => simp [State.lists, State.log, hactive]
          | flags => simp [State.lists, State.log, hflags]
          | expired => simpa [State.lists, State.log] using congrFun hunlinked .expired
          | bucket index => simpa [State.lists, State.log] using congrFun hunlinked (.bucket index)

/-- **A turn of `cleanup_flows`** on the pointers does to the lists what it does in the flow store, and
goes on to the same node. -/
theorem cleanupStep_implemented (hm : m.Shows s.lists) {before : List NodeId}
    (hl : s.lists .active = before ++ [n]) (hturn : s.turn n = some (bucket, b))
    (hb : b ∈ s.lists bucket) :
    (((m.unlink bucket b).unlink .active n).append .flags n).Shows (cleanupStep n s).1.lists
      ∧ (cleanupStep n s).2 = Heap.listGetPrevNode (m.unlink bucket b).links
        ((m.unlink bucket b).heads .active) n := by
  obtain ⟨hlists, hprev, index, rfl⟩ := lists_cleanupStep hturn
  obtain ⟨hshows, hnext⟩ := hm.turn (by simp) hl hb hturn
  refine ⟨hlists ▸ hshows, ?_⟩
  have hnodup : (before ++ [n]).Nodup := hl ▸ (hm.ring .active).nodup
  have hnot : ∀ x ∈ before, x ≠ n := fun x hx heq =>
    (List.nodup_append.mp hnodup).2.2 x hx n (List.mem_singleton_self n) heq
  have hseq : s.activeFlowList = before ++ [n] := hl
  rw [hprev, hnext, Flow.listGetPrevNode, hseq, List.takeWhile_append_of_pos (by simpa using hnot)]
  simp

/-- **The splice** on the pointers does to the lists what it does in the flow store. -/
theorem spliceExpired_implemented (hm : m.Shows s.lists) :
    ∃ m', Heap.spliceExpired .expired .flags m = some m' ∧ m'.Shows (spliceExpired s).lists := by
  obtain ⟨m', hsplice, hshows⟩ := hm.splice (show ListVar.expired ≠ .flags by simp)
  refine ⟨m', hsplice, ?_⟩
  have hlists : (spliceExpired s).lists = Function.update (Function.update s.lists .expired
      (s.lists .expired ++ s.lists .flags)) .flags [] := by
    funext i
    cases i <;> simp [State.lists, spliceExpired]
  exact hlists ▸ hshows

end Monitor

end Flow
