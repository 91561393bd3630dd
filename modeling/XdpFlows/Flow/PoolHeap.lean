import XdpFlows.Flow.NodeHeap
import XdpFlows.Flow.Pools

/-!
# The pools on the heap

The pools pointer by pointer: carriers linked in two circular lists (`NodeHeap`), one function that moves
the first free carrier behind those in use, one that moves the first carrier in use behind the free ones,
and `freeNodelPool` and `freeIPSessionPool`, which take both lists apart.

`pools_on_the_heap` says that the clients get the same answers as from the `Pool` of the flow store,
through the `Carriers` in between, and that in the end every carrier is given back to the allocator
exactly once and never looked at again, whatever the allocator writes there.
-/

namespace Flow

open CircularList Heap

/-! ## Memory -/

/-- The two lists of a pool. -/
inductive PoolList where
  | free
  | used
deriving DecidableEq, Repr

/-- A pool as it lies in memory: the links of its carriers with the heads of the two lists, the elements
the carriers point to, and how many are free. -/
structure PoolHeap where
  memory : Memory PoolList ℕ
  data : ℕ → ℕ
  freeCount : ℕ

namespace PoolHeap

/-- `allocNodelPool` and `allocIPSessionPool`.  The carriers are named in the order in which `malloc`
returns them, with whatever was in their memory before. -/
def alloc (uninitialised : Links ℕ) (size : ℕ) : PoolHeap where
  memory := (List.range size).foldl (fun m n => m.prepend .free n) ⟨uninitialised, fun _ => none⟩
  data := id
  freeCount := size

/-- `getNodel` and `getIPSession`: an element, or the return for an empty pool; `none` if the program
ends there, at the `assert` of `list_append_node` in one and at `exit(-1)` in the other. -/
def get (a : PoolHeap) : Option (PoolHeap × Option ℕ) :=
  let (m, n) := a.memory.popFirst .free
  match n with
  | none => none
  | some n =>
      if m.heads .free = none then
        some ({ a with memory := m.append .free n }, none)
      else
        some ({ a with memory := m.append .used n, freeCount := a.freeCount - 1 }, some (a.data n))

/-- `releaseNodel` and `releaseIPSession`; `none` if there is no carrier to write to. -/
def release (a : PoolHeap) (x : ℕ) : Option PoolHeap :=
  let (m, n) := a.memory.popFirst .used
  match n with
  | none => none
  | some n => some ⟨m.append .free n, Function.update a.data n x, a.freeCount + 1⟩

/-- The allocator may write anything to the carriers it was given back. -/
def scribble (junk : List ℕ → Links ℕ) (freed : List ℕ) (h : Links ℕ) : Links ℕ where
  next n := if n ∈ freed then (junk freed).next n else h.next n
  prev n := if n ∈ freed then (junk freed).prev n else h.prev n

/-- `while (*list != NULL) { n = list_pop_first_node(list); free(n); }`, for at most `fuel` turns.
Beside the memory it keeps what was freed. -/
def freeLoop (junk : List ℕ → Links ℕ) (list : PoolList) :
    ℕ → Memory PoolList ℕ → List ℕ → Option (Memory PoolList ℕ × List ℕ)
  | 0, m, freed => if m.heads list = none then some (m, freed) else none
  | fuel + 1, m, freed =>
      if m.heads list = none then
        some (m, freed)
      else
        match m.popFirst list with
        | (m, some n) =>
            freeLoop junk list fuel ⟨scribble junk (freed ++ [n]) m.links, m.heads⟩ (freed ++ [n])
        | (_, none) => none

/-- `freeNodelPool` and `freeIPSessionPool`. -/
def freePool (junk : List ℕ → Links ℕ) (fuel : ℕ) (a : PoolHeap) :
    Option (Memory PoolList ℕ × List ℕ) := do
  let (m, freed) ← freeLoop junk .free fuel a.memory []
  freeLoop junk .used fuel m freed

/-! ## What the memory shows -/

/-- The lists of the carriers. -/
def listsOf (free used : List ℕ) : PoolList → List ℕ
  | .free => free
  | .used => used

@[simp] lemma listsOf_free (free used : List ℕ) : listsOf free used .free = free := rfl

@[simp] lemma listsOf_used (free used : List ℕ) : listsOf free used .used = used := rfl

@[simp] lemma update_free (free used l : List ℕ) :
    Function.update (listsOf free used) .free l = listsOf l used := by
  funext i
  cases i
  · rfl
  · rfl

@[simp] lemma update_used (free used l : List ℕ) :
    Function.update (listsOf free used) .used l = listsOf free l := by
  funext i
  cases i
  · rfl
  · rfl

/-- The memory is that of the carriers `c`. -/
structure Shows (a : PoolHeap) (c : Carriers) : Prop where
  memory : a.memory.Shows (listsOf c.free c.used)
  data : a.data = c.data
  freeCount : a.freeCount = c.freeCount

section Refinement

variable {uninitialised : Links ℕ} {size : ℕ} {a : PoolHeap} {c : Carriers}

lemma not_mem_of_apart {i : PoolList} {n : ℕ} {free used : List ℕ} (hf : n ∉ free) (hu : n ∉ used) :
    n ∉ listsOf free used i := by
  cases i
  · exact hf
  · exact hu

lemma shows_empty (uninitialised : Links ℕ) :
    Memory.Shows (⟨uninitialised, fun _ => none⟩ : Memory PoolList ℕ) (listsOf [] []) := by
  have hnil : ∀ i, listsOf [] [] i = [] := by
    intro i
    cases i
    · rfl
    · rfl
  refine ⟨fun i => ?_, fun i => ?_, fun i j _ => ?_⟩
  · rw [hnil]
    rfl
  · rw [hnil]
    exact Ring.nil
  · rw [hnil]
    exact List.disjoint_nil_left _

lemma shows_alloc : (alloc uninitialised size).Shows (.alloc size) := by
  refine ⟨?_, rfl, rfl⟩
  simp only [alloc, Carriers.alloc]
  induction size with
  | zero => exact shows_empty uninitialised
  | succ size ih =>
      rw [List.range_succ, List.foldl_append, List.foldl_cons, List.foldl_nil]
      have hfresh : ∀ i, size ∉ listsOf (List.range size).reverse [] i := fun i =>
        not_mem_of_apart (by simp) List.not_mem_nil
      have hmore := ih.prepend (i := .free) hfresh
      rw [update_free] at hmore
      simpa using hmore

/-- **Taking an element** moves the carriers as `Carriers.get` does. -/
lemma Shows.get (h : a.Shows c) (hc : c.Apart) :
    Option.Rel (fun x y => x.1.Shows y.1 ∧ x.2 = y.2) a.get c.get := by
  obtain ⟨hm, hdata, hcount⟩ := h
  obtain ⟨hpop, hhead⟩ := hm.popFirst (i := .free)
  simp only [listsOf_free, update_free] at hpop hhead
  unfold PoolHeap.get Carriers.get
  generalize a.memory.popFirst .free = w at hpop hhead ⊢
  obtain ⟨m, n⟩ := w
  simp only at hpop hhead ⊢
  subst hhead
  have hfree := hpop.head .free
  match hl : c.free with
  | [] => exact .none
  | [n] =>
      rw [hl] at hpop hfree
      simp only [List.tail_cons, listsOf_free, List.head?_nil] at hpop hfree
      have hnotUsed : n ∉ c.used := by
        rw [Carriers.Apart, hl] at hc
        exact (List.nodup_cons.mp hc).1
      have hback := hpop.append (i := .free) fun _ => not_mem_of_apart List.not_mem_nil hnotUsed
      simp only [List.head?_cons, hfree, if_true]
      refine .some ⟨⟨?_, hdata, hcount⟩, rfl⟩
      simpa [hl] using hback
  | n :: n' :: rest =>
      rw [hl] at hpop hfree
      simp only [List.tail_cons, listsOf_free, List.head?_cons] at hpop hfree
      rw [Carriers.Apart, hl, List.cons_append, List.nodup_cons, List.mem_append, not_or] at hc
      have hmoved := hpop.append (i := .used) fun _ => not_mem_of_apart hc.1.1 hc.1.2
      simp only [List.head?_cons, hfree, reduceCtorEq, if_false]
      refine .some ⟨⟨?_, hdata, ?_⟩, ?_⟩
      · simpa using hmoved
      · rw [hcount]
      · rw [hdata]

/-- **Giving an element back** moves the carriers as `Carriers.release` does. -/
lemma Shows.release (h : a.Shows c) (hc : c.Apart) (x : ℕ) :
    Option.Rel Shows (a.release x) (c.release x) := by
  obtain ⟨hm, hdata, hcount⟩ := h
  obtain ⟨hpop, hhead⟩ := hm.popFirst (i := .used)
  simp only [listsOf_used, update_used] at hpop hhead
  unfold PoolHeap.release Carriers.release
  generalize a.memory.popFirst .used = w at hpop hhead ⊢
  obtain ⟨m, n⟩ := w
  simp only at hpop hhead ⊢
  subst hhead
  match hl : c.used with
  | [] => exact .none
  | n :: rest =>
      rw [hl, List.tail_cons] at hpop
      rw [Carriers.Apart, hl, List.nodup_middle, List.nodup_cons, List.mem_append, not_or] at hc
      have hmoved := hpop.append (i := .free) fun _ => not_mem_of_apart hc.1.1 hc.1.2
      simp only [List.head?_cons]
      refine .some ⟨?_, ?_, ?_⟩
      · simpa using hmoved
      · rw [hdata]
      · rw [hcount]

/-! ## Freeing -/

/-- What the allocator writes is in no list. -/
lemma shows_scribble {m : Memory PoolList ℕ} {lists : PoolList → List ℕ} (hm : m.Shows lists)
    {freed : List ℕ} (hfreed : ∀ n ∈ freed, ∀ i, n ∉ lists i) (junk : List ℕ → Links ℕ) :
    Memory.Shows ⟨scribble junk freed m.links, m.heads⟩ lists := by
  have hsame : ∀ i, ∀ n ∈ lists i, (scribble junk freed m.links).next n = m.links.next n
      ∧ (scribble junk freed m.links).prev n = m.links.prev n := by
    intro i n hn
    have hnot : n ∉ freed := fun hmem => hfreed n hmem i hn
    exact ⟨if_neg hnot, if_neg hnot⟩
  exact ⟨hm.head, fun i => (hm.ring i).frame (hsame i), hm.apart⟩

/-- **A loop frees its list**, one carrier after the other. -/
lemma freeLoop_eq {m : Memory PoolList ℕ} {lists : PoolList → List ℕ} {freed : List ℕ}
    (hm : m.Shows lists) (hfreed : ∀ n ∈ freed, ∀ i, n ∉ lists i) (junk : List ℕ → Links ℕ)
    (list : PoolList) (fuel : ℕ) (hfuel : (lists list).length ≤ fuel) :
    ∃ m', freeLoop junk list fuel m freed = some (m', freed ++ lists list)
      ∧ m'.Shows (Function.update lists list []) := by
  induction fuel generalizing m lists freed with
  | zero =>
      have hnil : lists list = [] := List.length_eq_zero_iff.mp (by omega)
      have hhead : m.heads list = none := by rw [hm.head, hnil, List.head?_nil]
      refine ⟨m, by rw [freeLoop, if_pos hhead, hnil, List.append_nil], ?_⟩
      rw [← hnil, Function.update_eq_self]
      exact hm
  | succ fuel ih =>
      by_cases hnil : lists list = []
      · have hhead : m.heads list = none := by rw [hm.head, hnil, List.head?_nil]
        refine ⟨m, by rw [freeLoop, if_pos hhead, hnil, List.append_nil], ?_⟩
        rw [← hnil, Function.update_eq_self]
        exact hm
      · obtain ⟨n, rest, hl⟩ := List.exists_cons_of_ne_nil hnil
        have hhead : m.heads list ≠ none := by
          rw [hm.head, hl, List.head?_cons]
          exact Option.some_ne_none n
        obtain ⟨hpop, hfirst⟩ := hm.popFirst (i := list)
        have hn : n ∈ lists list := by
          rw [hl]
          exact List.mem_cons_self ..
        have hgone := hm.unlinked hn
        rw [hl, List.erase_cons_head] at hgone
        rw [hl, List.tail_cons] at hpop
        have hfreed' : ∀ k ∈ freed ++ [n], ∀ i, k ∉ Function.update lists list rest i := by
          intro k hk i
          rcases List.mem_append.mp hk with hk | hk
          · by_cases hi : i = list
            · subst hi
              rw [Function.update_self]
              intro hmem
              exact hfreed k hk i (hl ▸ List.mem_cons_of_mem n hmem)
            · rw [Function.update_of_ne hi]
              exact hfreed k hk i
          · rw [List.mem_singleton.mp hk]
            exact hgone i
        obtain ⟨m', heq, hm'⟩ := ih (shows_scribble hpop hfreed' junk) hfreed'
          (by rw [Function.update_self]; rw [hl, List.length_cons] at hfuel; omega)
        rw [Function.update_self, List.append_assoc] at heq
        rw [Function.update_idem] at hm'
        refine ⟨m', ?_, hm'⟩
        rw [freeLoop, if_neg hhead, hl]
        generalize m.popFirst list = w at hfirst heq hpop
        obtain ⟨m₁, first⟩ := w
        rw [hl, List.head?_cons] at hfirst
        simp only at hfirst heq
        subst hfirst
        exact heq

/-- **Every carrier is freed once.** -/
lemma Shows.freePool (h : a.Shows c) (hc : c.Apart) (junk : List ℕ → Links ℕ) {fuel : ℕ}
    (hfuel : c.free.length + c.used.length ≤ fuel) :
    ∃ m, a.freePool junk fuel = some (m, c.free ++ c.used) ∧ ∀ i, m.heads i = none := by
  obtain ⟨m, hfree, hm⟩ := freeLoop_eq h.memory (fun n hn => absurd hn List.not_mem_nil) junk .free
    fuel (by rw [listsOf_free]; omega)
  rw [update_free] at hm
  have hfreed : ∀ n ∈ c.free, ∀ i, n ∉ listsOf [] c.used i := fun n hn i =>
    not_mem_of_apart List.not_mem_nil (List.disjoint_of_nodup_append hc hn)
  obtain ⟨m', hused, hm'⟩ := freeLoop_eq hm hfreed junk .used fuel (by rw [listsOf_used]; omega)
  rw [update_used] at hm'
  refine ⟨m', ?_, fun i => ?_⟩
  · rw [PoolHeap.freePool, hfree]
    exact hused
  · rw [hm'.head]
    cases i
    · rfl
    · rfl

end Refinement

/-! ## Clients -/

/-- Calls one after the other, with the answers of those that take an element. -/
def serve {σ : Type} (get : σ → Option (σ × Option ℕ)) (release : σ → ℕ → Option σ) :
    σ → List Carriers.Call → Option (σ × List (Option ℕ))
  | s, [] => some (s, [])
  | s, .get :: calls => do
      let (s, answer) ← get s
      let (s, answers) ← serve get release s calls
      return (s, answer :: answers)
  | s, .release x :: calls => do
      let s ← release s x
      serve get release s calls

/-- The heap stands for a pool, with all its carriers. -/
def Stands (size : ℕ) (a : PoolHeap) (p : Pool) : Prop :=
  ∃ c : Carriers, a.Shows c ∧ c.Apart ∧ c.pool = p ∧ (c.free ++ c.used).Perm (List.range size)

section Clients

variable {uninitialised : Links ℕ} {size : ℕ} {a : PoolHeap} {c c' : Carriers} {p : Pool}
  {ret : Option ℕ}

lemma perm_get (h : c.get = some (c', ret)) : (c'.free ++ c'.used).Perm (c.free ++ c.used) := by
  rcases c with ⟨free, used, data, freeCount⟩
  match free, h with
  | [_], h =>
      simp only [Carriers.get, Option.some.injEq, Prod.mk.injEq] at h
      rw [← h.1]
  | n :: m :: rest, h =>
      simp only [Carriers.get, Option.some.injEq, Prod.mk.injEq] at h
      rw [← h.1]
      rw [← List.append_assoc, List.cons_append]
      exact List.perm_append_singleton n (m :: (rest ++ used))

lemma perm_release {x : ℕ} (h : c.release x = some c') :
    (c'.free ++ c'.used).Perm (c.free ++ c.used) := by
  rcases c with ⟨free, used, data, freeCount⟩
  cases used with
  | nil => simp [Carriers.release] at h
  | cons n rest =>
      simp only [Carriers.release, Option.some.injEq] at h
      rw [← h]
      simp

lemma stands_alloc : Stands size (alloc uninitialised size) (.alloc size) :=
  ⟨.alloc size, shows_alloc, Carriers.apart_alloc, Carriers.pool_alloc, by simp [Carriers.alloc]⟩

lemma Stands.get (h : Stands size a p) :
    Option.Rel (fun x y => Stands size x.1 y.1 ∧ x.2 = y.2) a.get p.get := by
  obtain ⟨c, hshows, hapart, rfl, hperm⟩ := h
  have hrel := hshows.get hapart
  rw [← Carriers.pool_get]
  generalize hget : c.get = w at hrel ⊢
  generalize a.get = v at hrel ⊢
  cases hrel with
  | none => exact .none
  | @some x y hxy =>
      obtain ⟨hx, hret⟩ := hxy
      exact .some ⟨⟨y.1, hx, hapart.get hget, rfl, (perm_get hget).trans hperm⟩, hret⟩

lemma Stands.release (h : Stands size a p) (x : ℕ) :
    Option.Rel (Stands size) (a.release x) (p.release x) := by
  obtain ⟨c, hshows, hapart, rfl, hperm⟩ := h
  have hrel := hshows.release hapart x
  rw [← Carriers.pool_release hapart]
  generalize hrelease : c.release x = w at hrel ⊢
  generalize a.release x = v at hrel ⊢
  cases hrel with
  | none => exact .none
  | @some b d hbd => exact .some ⟨d, hbd, hapart.release hrelease, rfl, (perm_release hrelease).trans hperm⟩

/-- **Any calls.** -/
lemma Stands.serve (h : Stands size a p) (calls : List Carriers.Call) :
    Option.Rel (fun x y => Stands size x.1 y.1 ∧ x.2 = y.2)
      (PoolHeap.serve PoolHeap.get PoolHeap.release a calls)
      (PoolHeap.serve Pool.get Pool.release p calls) := by
  induction calls generalizing a p with
  | nil => exact .some ⟨h, rfl⟩
  | cons k calls ih =>
      cases k with
      | get =>
          simp only [PoolHeap.serve]
          have hrel := h.get
          generalize a.get = v at hrel ⊢
          generalize p.get = w at hrel ⊢
          cases hrel with
          | none => exact .none
          | @some x y hxy =>
              obtain ⟨x, answer⟩ := x
              obtain ⟨y, answer'⟩ := y
              obtain ⟨hx, rfl⟩ := hxy
              have hrest := ih hx
              simp only [Option.bind_eq_bind, Option.bind_some]
              generalize PoolHeap.serve PoolHeap.get PoolHeap.release x calls = v at hrest ⊢
              generalize PoolHeap.serve Pool.get Pool.release y calls = w at hrest ⊢
              cases hrest with
              | none => exact .none
              | some hend => exact .some ⟨hend.1, congrArg (answer :: ·) hend.2⟩
      | release x =>
          simp only [PoolHeap.serve]
          have hrel := h.release x
          generalize a.release x = v at hrel ⊢
          generalize p.release x = w at hrel ⊢
          cases hrel with
          | none => exact .none
          | some hbd => exact ih hbd

/-- **The pools on the heap.**  Whatever was in the memory and whatever the calls, the pointers give the
answers the pool of the flow store gives and end where it ends; and at any time freeing the pool gives
every carrier back exactly once and leaves no list, whatever the allocator writes to what it has got
back. -/
theorem pools_on_the_heap (uninitialised : Links ℕ) (size : ℕ) (calls : List Carriers.Call) :
    (PoolHeap.serve PoolHeap.get PoolHeap.release (alloc uninitialised size) calls).map Prod.snd
        = (PoolHeap.serve Pool.get Pool.release (.alloc size) calls).map Prod.snd
      ∧ ∀ a answers, PoolHeap.serve PoolHeap.get PoolHeap.release (alloc uninitialised size) calls
          = some (a, answers) → ∀ junk fuel, size ≤ fuel →
            ∃ m freed, a.freePool junk fuel = some (m, freed) ∧ freed.Perm (List.range size)
              ∧ ∀ i, m.heads i = none := by
  have halloc : Stands size (alloc uninitialised size) (.alloc size) := stands_alloc
  have hrel := halloc.serve calls
  generalize PoolHeap.serve PoolHeap.get PoolHeap.release (alloc uninitialised size) calls = v
    at hrel ⊢
  generalize PoolHeap.serve Pool.get Pool.release (.alloc size) calls = w at hrel ⊢
  cases hrel with
  | none => exact ⟨rfl, fun _ _ h => absurd h (by simp)⟩
  | @some x y hxy =>
      obtain ⟨⟨c, hshows, hapart, -, hperm⟩, hanswers⟩ := hxy
      refine ⟨congrArg some hanswers, ?_⟩
      intro a answers h junk fuel hfuel
      obtain rfl : x = (a, answers) := Option.some.inj h
      have hlength := hperm.length_eq
      rw [List.length_append, List.length_range] at hlength
      obtain ⟨m, hfree, hheads⟩ := hshows.freePool hapart junk (show _ ≤ fuel by omega)
      exact ⟨m, _, hfree, hperm, hheads⟩

example : (PoolHeap.serve PoolHeap.get PoolHeap.release (alloc ⟨fun _ => none, fun _ => none⟩ 3)
    [.get, .get, .get, .release 2, .get]).map Prod.snd = some [some 2, some 1, none, some 0] := by
  decide

end Clients

end PoolHeap

end Flow
