import XdpFlows.Flow.Layout

/-!
# The pools

`getNodel` and `releaseNodel` (`list.c`), `getIPSession` and `releaseIPSession` (`pool.c`), called in
any order by clients that give back only what they hold.

An element comes back by the carrier that has been in use the longest, which need not be the one it
came with.  `Carriers` is a pool with these nodes, and `pool_get` and `pool_release` say that the pool
of the flow store is what its carriers point to.  The carriers in use point to elements long given
back, some of them more than once, so the invariant does not look at them: `Pool.Split` only says that
the free elements and the held ones are all there are, each once.
-/

namespace Flow

/-! ## Carriers -/

/-- A pool as it lies in memory: the nodes of its two lists, and what they point to. -/
structure Carriers where
  free : List ℕ
  used : List ℕ
  data : ℕ → ℕ
  freeCount : ℕ

namespace Carriers

/-- `allocNodelPool` and `allocIPSessionPool`: a carrier for every element. -/
def alloc (size : ℕ) : Carriers where
  free := (List.range size).reverse
  used := []
  data := id
  freeCount := size

/-- Moving the first free carrier to the end of the used list.  The last one is put back. -/
def get (c : Carriers) : Option (Carriers × Option ℕ) :=
  match c.free with
  | [] => none
  | [_] => some (c, none)
  | n :: m :: rest =>
      some ({ c with free := m :: rest, used := c.used ++ [n], freeCount := c.freeCount - 1 },
        some (c.data n))

/-- Moving the first used carrier to the end of the free list, with `x` in it. -/
def release (c : Carriers) (x : ℕ) : Option Carriers :=
  match c.used with
  | [] => none
  | n :: rest =>
      some ⟨c.free ++ [n], rest, Function.update c.data n x, c.freeCount + 1⟩

/-- What the carriers point to. -/
def pool (c : Carriers) : Pool where
  free := c.free.map c.data
  used := c.used.map c.data
  freeCount := c.freeCount

/-- Every carrier is in one list, and there once. -/
def Apart (c : Carriers) : Prop :=
  (c.free ++ c.used).Nodup

variable {c c' : Carriers} {size x : ℕ} {ret : Option ℕ}

@[simp] lemma pool_alloc : (alloc size).pool = .alloc size := by
  simp [alloc, pool, Pool.alloc]

lemma apart_alloc : (alloc size).Apart := by
  simp [Apart, alloc, List.nodup_range]

/-- `Pool.get` is what happens to the elements. -/
lemma pool_get : c.get.map (Prod.map pool id) = c.pool.get := by
  rcases c with ⟨free, used, data, freeCount⟩
  match free with
  | [] => rfl
  | [_] => rfl
  | n :: m :: rest => simp [get, pool, Pool.get]

/-- `Pool.release` is what happens to the elements: no other carrier changes its own. -/
lemma pool_release (h : c.Apart) : (c.release x).map pool = c.pool.release x := by
  rcases c with ⟨free, used, data, freeCount⟩
  cases used with
  | nil => rfl
  | cons n rest =>
      simp only [Apart, List.nodup_middle, List.nodup_cons, List.mem_append, not_or] at h
      obtain ⟨⟨hfree, hrest⟩, -⟩ := h
      have hkeep : ∀ l : List ℕ, n ∉ l → l.map (Function.update data n x) = l.map data := by
        intro l hl
        refine List.map_congr_left fun m hm => Function.update_of_ne ?_ _ _
        rintro rfl
        exact hl hm
      simp [release, pool, Pool.release, hkeep free hfree, hkeep rest hrest]

lemma Apart.get (h : c.Apart) (hget : c.get = some (c', ret)) : c'.Apart := by
  rcases c with ⟨free, used, data, freeCount⟩
  match free, hget with
  | [_], hget =>
      simp only [Carriers.get, Option.some.injEq, Prod.mk.injEq] at hget
      exact hget.1 ▸ h
  | n :: m :: rest, hget =>
      simp only [Carriers.get, Option.some.injEq, Prod.mk.injEq] at hget
      rw [← hget.1]
      refine (List.Perm.nodup_iff ?_).mp h
      simp only [List.cons_append, ← List.append_assoc]
      exact (List.perm_append_singleton _ _).symm

lemma Apart.release (h : c.Apart) (hrelease : c.release x = some c') : c'.Apart := by
  rcases c with ⟨free, used, data, freeCount⟩
  cases used with
  | nil => simp [Carriers.release] at hrelease
  | cons n rest =>
      simp only [Carriers.release, Option.some.injEq] at hrelease
      rw [← hrelease]
      simpa [Apart] using h

/-- A call by a client. -/
inductive Call where
  | get
  | release (x : ℕ)

/-- What a call does to the carriers. -/
def call (c : Carriers) : Call → Option Carriers
  | .get => c.get.map Prod.fst
  | .release x => c.release x

/-- What a call does to the elements. -/
def callPool (p : Pool) : Call → Option Pool
  | .get => p.get.map Prod.fst
  | .release x => p.release x

lemma pool_call (h : c.Apart) (k : Call) : (c.call k).map pool = callPool c.pool k := by
  cases k with
  | get =>
      rw [call, callPool, ← pool_get]
      rcases c.get with _ | ⟨c', ret⟩
      · rfl
      · rfl
  | release x => exact pool_release h

lemma Apart.call (h : c.Apart) {k : Call} (hcall : c.call k = some c') : c'.Apart := by
  cases k with
  | get =>
      obtain ⟨⟨c'', ret⟩, hget, rfl⟩ := Option.map_eq_some_iff.mp hcall
      exact h.get hget
  | release x => exact h.release hcall

lemma pool_calls (h : c.Apart) (calls : List Call) :
    (calls.foldlM call c).map pool = calls.foldlM callPool c.pool := by
  induction calls generalizing c with
  | nil => rfl
  | cons k calls ih =>
      have hstep := pool_call h k
      cases hcall : c.call k with
      | none =>
          rw [hcall] at hstep
          simp [hcall, ← hstep]
      | some c' =>
          rw [hcall] at hstep
          simp [hcall, ← hstep, ih (h.call hcall)]

/-- **The pool of the flow store is what its carriers point to**, after any calls. -/
theorem pool_calls_alloc (size : ℕ) (calls : List Call) :
    (calls.foldlM call (alloc size)).map pool = calls.foldlM callPool (.alloc size) := by
  rw [pool_calls apart_alloc, pool_alloc]

end Carriers

/-! ## The invariant -/

/-- Every element is free or held, and not twice. -/
structure Pool.Split (size : ℕ) (p : Pool) (held : List ℕ) : Prop where
  ok : p.Ok size
  split : (p.free ++ held).Perm (List.range size)

namespace Pool.Split

variable {size x : ℕ} {p : Pool} {held : List ℕ}

lemma alloc (h : 0 < size) : Split size (.alloc size) [] where
  ok := Pool.ok_alloc h
  split := by simp [Pool.alloc]

lemma nodup (h : p.Split size held) : (p.free ++ held).Nodup :=
  h.split.nodup_iff.mpr List.nodup_range

lemma mem_free (h : p.Split size held) : x ∈ p.free ↔ x < size ∧ x ∉ held := by
  have hmem := h.split.mem_iff (a := x)
  rw [List.mem_append, List.mem_range] at hmem
  constructor
  · intro hx
    exact ⟨hmem.mp (.inl hx), List.disjoint_of_nodup_append h.nodup hx⟩
  · rintro ⟨hlt, hx⟩
    exact (hmem.mpr hlt).resolve_right hx

lemma length_used (h : p.Split size held) : p.used.length = held.length := by
  have hlen := h.split.length_eq
  have htotal := h.ok.total
  rw [List.length_append, List.length_range] at hlen
  omega

/-- Taking an element fails when one is left; else the element was not held. -/
lemma get (h : p.Split size held) :
    (p.free.length = 1 ∧ p.get = some (p, none))
      ∨ ∃ x q, 1 < p.free.length ∧ p.get = some (q, some x) ∧ x ∉ held
          ∧ q.Split size (x :: held) := by
  rcases h.ok.get with hone | ⟨x, rest, q, hfree, hget, hrest, hok⟩
  · exact .inl hone
  · refine .inr ⟨x, q, ?_, hget, ?_, hok, ?_⟩
    · rw [hfree, ← hrest, List.length_cons]
      have := List.length_pos_iff.mpr hok.nonempty
      omega
    · exact (h.mem_free.mp (hfree ▸ List.mem_cons_self ..)).2
    · have hsplit := h.split
      rw [hfree, List.cons_append] at hsplit
      rw [hrest]
      exact List.perm_middle.trans hsplit

/-- Giving back an element that is held. -/
lemma release (h : p.Split size held) (hx : x ∈ held) :
    ∃ q, p.release x = some q ∧ q.free = p.free ++ [x] ∧ q.Split size (held.erase x) := by
  have hlt : p.free.length < size := by
    have htotal := h.ok.total
    have hpos := List.length_pos_of_mem hx
    have hused := h.length_used
    omega
  obtain ⟨q, hrelease, hfree, hok⟩ := h.ok.release hlt x
  refine ⟨q, hrelease, hfree, hok, List.Perm.trans ?_ h.split⟩
  rw [hfree, List.append_assoc]
  exact (List.perm_cons_erase hx).symm.append_left _

end Pool.Split

/-! ## Calls of the four functions -/

/-- Calls in any order by clients that hold `nodes` and `sessions`, out of pools of `N` nodes and of
`M` sessions.  In between the clients do anything with what they hold. -/
inductive Clients (N M : ℕ) : State → List NodeId → List SessionId → Prop where
  | start {s : State} (nodelPool : s.nodelPool = .alloc N) (ipSessionPool : s.ipSessionPool = .alloc M)
      (usedSession : s.usedSession = 0) (zero : ∀ i < M, (s.ips i).incoming = .zero)
      (fault : s.fault = false) : Clients N M s [] []
  | getNode {s : State} {nodes : List NodeId} {sessions : List SessionId}
      (h : Clients N M s nodes sessions) (hret : (getNodel s).2 ≠ -1) :
      Clients N M (getNodel s).1 ((getNodel s).1.nodelAux :: nodes) sessions
  | noNode {s : State} {nodes : List NodeId} {sessions : List SessionId}
      (h : Clients N M s nodes sessions) (hret : (getNodel s).2 = -1) :
      Clients N M (getNodel s).1 nodes sessions
  | releaseNode {s : State} {nodes : List NodeId} {sessions : List SessionId}
      (h : Clients N M s nodes sessions) {n : NodeId} (hn : n ∈ nodes) :
      Clients N M (releaseNodel s n) (nodes.erase n) sessions
  | getSession {s : State} {nodes : List NodeId} {sessions : List SessionId}
      (h : Clients N M s nodes sessions) {i : SessionId} (hret : (getIPSession s).2 = some i) :
      Clients N M (getIPSession s).1 nodes (i :: sessions)
  | noSession {s : State} {nodes : List NodeId} {sessions : List SessionId}
      (h : Clients N M s nodes sessions) (hret : (getIPSession s).2 = none) :
      Clients N M (getIPSession s).1 nodes sessions
  | releaseSession {s : State} {nodes : List NodeId} {sessions : List SessionId}
      (h : Clients N M s nodes sessions) {i : SessionId} (hi : i ∈ sessions) :
      Clients N M (releaseIPSession s i) nodes (sessions.erase i)
  | work {s s' : State} {nodes : List NodeId} {sessions : List SessionId}
      (h : Clients N M s nodes sessions) (nodelPool : s'.nodelPool = s.nodelPool)
      (ipSessionPool : s'.ipSessionPool = s.ipSessionPool) (usedSession : s'.usedSession = s.usedSession)
      (incoming : ∀ i ∉ sessions, (s'.ips i).incoming = (s.ips i).incoming)
      (fault : s'.fault = s.fault) : Clients N M s' nodes sessions

/-- The state between two calls. -/
structure Served (N M : ℕ) (s : State) (nodes : List NodeId) (sessions : List SessionId) : Prop where
  nodePool : s.nodelPool.Split N nodes
  sessionPool : s.ipSessionPool.Split M sessions
  zero : ∀ i < M, i ∉ sessions → (s.ips i).incoming = .zero
  usedSession : s.usedSession = sessions.length
  noFault : s.fault = false

namespace Served

variable {N M : ℕ} {s s' : State} {nodes : List NodeId} {sessions : List SessionId}

/-- `getNodel` fails when one node is left; else the node was not held. -/
lemma getNodel (h : Served N M s nodes sessions) :
    (s.nodelPool.free.length = 1 ∧ Flow.getNodel s = (s.log (.error "Pool de nodos vacío"), -1))
      ∨ ∃ n q, 1 < s.nodelPool.free.length ∧ n ∉ nodes ∧ q.Split N (n :: nodes)
          ∧ Flow.getNodel s = ({ s with nodelPool := q, nodelAux := n }, 0) := by
  rcases h.nodePool.get with ⟨hone, hget⟩ | ⟨n, q, hmore, hget, hn, hsplit⟩
  · exact .inl ⟨hone, by rw [Flow.getNodel, hget]⟩
  · exact .inr ⟨n, q, hmore, hn, hsplit, by rw [Flow.getNodel, hget]⟩

/-- `getIPSession` fails when one session is left; else the session was not held. -/
lemma getIPSession (h : Served N M s nodes sessions) :
    (s.ipSessionPool.free.length = 1
        ∧ Flow.getIPSession s = (s.log (.error "Pool de flujos vacío"), none))
      ∨ ∃ i q, 1 < s.ipSessionPool.free.length ∧ i ∉ sessions ∧ i ∈ s.ipSessionPool.free
          ∧ q.Split M (i :: sessions)
          ∧ Flow.getIPSession s
            = ({ s with ipSessionPool := q, usedSession := s.usedSession + 1 }, some i) := by
  rcases h.sessionPool.get with ⟨hone, hget⟩ | ⟨i, q, hmore, hget, hi, hsplit⟩
  · exact .inl ⟨hone, by rw [Flow.getIPSession, hget]⟩
  · have hmem := hsplit.split.mem_iff (a := i)
    have hlt : i < M := List.mem_range.mp (hmem.mp (by simp))
    refine .inr ⟨i, q, hmore, hi, h.sessionPool.mem_free.mpr ⟨hlt, hi⟩, hsplit, ?_⟩
    rw [Flow.getIPSession, hget]

/-- `releaseNodel` finds a carrier. -/
lemma releaseNodel (h : Served N M s nodes sessions) {n : NodeId} (hn : n ∈ nodes) :
    ∃ q, q.Split N (nodes.erase n) ∧ Flow.releaseNodel s n = { s with nodelPool := q } := by
  obtain ⟨q, hrelease, -, hsplit⟩ := h.nodePool.release hn
  exact ⟨q, hsplit, by rw [Flow.releaseNodel, hrelease]⟩

/-- `releaseIPSession` finds a carrier. -/
lemma releaseIPSession (h : Served N M s nodes sessions) {i : SessionId} (hi : i ∈ sessions) :
    ∃ q, q.Split M (sessions.erase i)
      ∧ Flow.releaseIPSession s i = { s.setSession i { s.ips i with incoming := .zero } with
          ipSessionPool := q, usedSession := s.usedSession - 1 } := by
  obtain ⟨q, hrelease, -, hsplit⟩ := h.sessionPool.release hi
  refine ⟨q, hsplit, ?_⟩
  have hpool : (s.setSession i { s.ips i with incoming := .zero }).ipSessionPool = s.ipSessionPool := rfl
  simp only [Flow.releaseIPSession, hpool, hrelease]
  rfl

lemma start (hN : 1 ≤ N) (hM : 1 ≤ M) (hnodes : s.nodelPool = .alloc N)
    (hsessions : s.ipSessionPool = .alloc M) (hused : s.usedSession = 0)
    (hzero : ∀ i < M, (s.ips i).incoming = .zero) (hfault : s.fault = false) :
    Served N M s [] [] where
  nodePool := hnodes ▸ .alloc hN
  sessionPool := hsessions ▸ .alloc hM
  zero i hi _ := hzero i hi
  usedSession := hused
  noFault := hfault

lemma afterGetNode (h : Served N M s nodes sessions) (hret : (Flow.getNodel s).2 ≠ -1) :
    Served N M (Flow.getNodel s).1 ((Flow.getNodel s).1.nodelAux :: nodes) sessions := by
  rcases h.getNodel with ⟨-, hget⟩ | ⟨n, q, -, -, hsplit, hget⟩
  · exact absurd (by rw [hget]) hret
  · rw [hget]
    exact { h with nodePool := hsplit }

lemma afterNoNode (h : Served N M s nodes sessions) (hret : (Flow.getNodel s).2 = -1) :
    Served N M (Flow.getNodel s).1 nodes sessions := by
  rcases h.getNodel with ⟨-, hget⟩ | ⟨n, q, -, -, -, hget⟩
  · rw [hget]
    exact { h with }
  · simp [hget] at hret

lemma afterReleaseNode (h : Served N M s nodes sessions) {n : NodeId} (hn : n ∈ nodes) :
    Served N M (Flow.releaseNodel s n) (nodes.erase n) sessions := by
  obtain ⟨q, hsplit, hrelease⟩ := h.releaseNodel hn
  rw [hrelease]
  exact { h with nodePool := hsplit }

lemma afterGetSession (h : Served N M s nodes sessions) {i : SessionId}
    (hret : (Flow.getIPSession s).2 = some i) :
    Served N M (Flow.getIPSession s).1 nodes (i :: sessions) := by
  rcases h.getIPSession with ⟨-, hget⟩ | ⟨j, q, -, -, -, hsplit, hget⟩
  · simp [hget] at hret
  · rw [hget] at hret ⊢
    obtain rfl : j = i := by simpa using hret
    exact { h with
      sessionPool := hsplit
      zero := fun k hk hout => h.zero k hk fun hmem => hout (List.mem_cons_of_mem _ hmem)
      usedSession := by simp [h.usedSession] }

lemma afterNoSession (h : Served N M s nodes sessions) (hret : (Flow.getIPSession s).2 = none) :
    Served N M (Flow.getIPSession s).1 nodes sessions := by
  rcases h.getIPSession with ⟨-, hget⟩ | ⟨j, q, -, -, -, -, hget⟩
  · rw [hget]
    exact { h with }
  · simp [hget] at hret

lemma afterReleaseSession (h : Served N M s nodes sessions) {i : SessionId} (hi : i ∈ sessions) :
    Served N M (Flow.releaseIPSession s i) nodes (sessions.erase i) := by
  obtain ⟨q, hsplit, hrelease⟩ := h.releaseIPSession hi
  rw [hrelease]
  refine { h with sessionPool := hsplit, zero := ?_, usedSession := ?_ }
  · intro k hk hout
    by_cases hki : k = i
    · rw [hki]
      simp
    · show ((s.setSession i _).ips k).incoming = _
      rw [State.setSession_of_ne _ _ hki]
      exact h.zero k hk fun hmem => hout ((List.mem_erase_of_ne hki).mpr hmem)
  · simp [List.length_erase_of_mem hi, h.usedSession]

lemma afterWork (h : Served N M s nodes sessions) (hnodes : s'.nodelPool = s.nodelPool)
    (hsessions : s'.ipSessionPool = s.ipSessionPool) (hused : s'.usedSession = s.usedSession)
    (hincoming : ∀ i ∉ sessions, (s'.ips i).incoming = (s.ips i).incoming)
    (hfault : s'.fault = s.fault) : Served N M s' nodes sessions where
  nodePool := hnodes ▸ h.nodePool
  sessionPool := hsessions ▸ h.sessionPool
  zero i hi hout := (hincoming i hout).trans (h.zero i hi hout)
  usedSession := hused.trans h.usedSession
  noFault := hfault.trans h.noFault

end Served

/-- Every run keeps the invariant. -/
lemma Clients.served {N M : ℕ} {s : State} {nodes : List NodeId} {sessions : List SessionId}
    (hN : 1 ≤ N) (hM : 1 ≤ M) (h : Clients N M s nodes sessions) :
    Served N M s nodes sessions := by
  induction h with
  | start hnodes hsessions hused hzero hfault =>
      exact .start hN hM hnodes hsessions hused hzero hfault
  | getNode _ hret ih => exact ih.afterGetNode hret
  | noNode _ hret ih => exact ih.afterNoNode hret
  | releaseNode _ hn ih => exact ih.afterReleaseNode hn
  | getSession _ hret ih => exact ih.afterGetSession hret
  | noSession _ hret ih => exact ih.afterNoSession hret
  | releaseSession _ hi ih => exact ih.afterReleaseSession hi
  | work _ hnodes hsessions hused hincoming hfault ih =>
      exact ih.afterWork hnodes hsessions hused hincoming hfault

/-! ## What the clients can rely on -/

/-- A pool of `size` elements out of which `held` are held. -/
structure Pool.Exact (size : ℕ) (p : Pool) (held : List ℕ) : Prop where
  distinct : p.free.Nodup
  notHeld : ∀ x, x ∈ p.free ↔ x < size ∧ x ∉ held
  heldOnce : held.Nodup
  usedLength : p.used.length = held.length
  carrier : held ≠ [] → p.used ≠ []
  freeCount : p.freeCount = p.free.length

lemma Pool.Split.exact {size : ℕ} {p : Pool} {held : List ℕ} (h : p.Split size held) :
    p.Exact size held where
  distinct := h.nodup.of_append_left
  notHeld _ := h.mem_free
  heldOnce := h.nodup.of_append_right
  usedLength := h.length_used
  carrier hne := by
    have hpos := List.length_pos_iff.mpr hne
    exact List.length_pos_iff.mp (h.length_used ▸ hpos)
  freeCount := h.ok.freeCount

/-- What `getNodel` and `releaseNodel` do for clients that hold `nodes`. -/
structure NodesServed (N : ℕ) (s : State) (nodes : List NodeId) : Prop where
  pool : s.nodelPool.Exact N nodes
  handsOut : (getNodel s).2 ≠ -1 → (getNodel s).1.nodelAux ∉ nodes
  fails : (getNodel s).2 = -1 ↔ s.nodelPool.free.length = 1
  keeps : (getNodel s).2 = -1 → (getNodel s).1.nodelPool = s.nodelPool
  get : (getNodel s).1.fault = false
  release : ∀ n ∈ nodes, (releaseNodel s n).fault = false

/-- What `getIPSession` and `releaseIPSession` do for clients that hold `sessions`. -/
structure SessionsServed (M : ℕ) (s : State) (sessions : List SessionId) : Prop where
  pool : s.ipSessionPool.Exact M sessions
  handsOut : ∀ i, (getIPSession s).2 = some i → i ∉ sessions
  cleared : ∀ i, (getIPSession s).2 = some i → ((getIPSession s).1.ips i).incoming = .zero
  fails : (getIPSession s).2 = none ↔ s.ipSessionPool.free.length = 1
  keeps : (getIPSession s).2 = none → (getIPSession s).1.ipSessionPool = s.ipSessionPool
    ∧ (getIPSession s).1.usedSession = s.usedSession
  get : (getIPSession s).1.fault = false
  release : ∀ i ∈ sessions, (releaseIPSession s i).fault = false

namespace Served

variable {N M : ℕ} {s : State} {nodes : List NodeId} {sessions : List SessionId}

lemma nodesServed (h : Served N M s nodes sessions) : NodesServed N s nodes := by
  have hrelease : ∀ n ∈ nodes, (Flow.releaseNodel s n).fault = false :=
    fun n hn => (h.afterReleaseNode hn).noFault
  rcases h.getNodel with ⟨hone, hget⟩ | ⟨n, q, hmore, hn, -, hget⟩
  · exact ⟨h.nodePool.exact, by simp [hget], by simp [hget, hone], by simp [hget, State.log],
      by simp [hget, State.log, h.noFault], hrelease⟩
  · exact ⟨h.nodePool.exact, by simp [hget, hn], by simp [hget, hmore.ne'], by simp [hget],
      by simp [hget, h.noFault], hrelease⟩

lemma sessionsServed (h : Served N M s nodes sessions) : SessionsServed M s sessions := by
  have hrelease : ∀ i ∈ sessions, (Flow.releaseIPSession s i).fault = false :=
    fun i hi => (h.afterReleaseSession hi).noFault
  rcases h.getIPSession with ⟨hone, hget⟩ | ⟨i, q, hmore, hi, hfree, -, hget⟩
  · exact ⟨h.sessionPool.exact, by simp [hget], by simp [hget], by simp [hget, hone],
      by simp [hget, State.log], by simp [hget, State.log, h.noFault], hrelease⟩
  · have hzero := h.zero i (h.sessionPool.mem_free.mp hfree).1 hi
    exact ⟨h.sessionPool.exact, by simp [hget, hi], by simp [hget, hzero],
      by simp [hget, hmore.ne'], by simp [hget], by simp [hget, h.noFault], hrelease⟩

end Served

/-- **The pools never hand out an element twice**, whatever the order of the calls. -/
theorem pools_exact {N M : ℕ} (hN : 1 ≤ N) (hM : 1 ≤ M) {s : State} {nodes : List NodeId}
    {sessions : List SessionId} (h : Clients N M s nodes sessions) :
    NodesServed N s nodes ∧ SessionsServed M s sessions ∧ s.usedSession = sessions.length := by
  have hserved := h.served hN hM
  exact ⟨hserved.nodesServed, hserved.sessionsServed, hserved.usedSession⟩

/-- Three nodes and two sessions. -/
def smallPools : State :=
  { initialState with nodelPool := .alloc 3, ipSessionPool := .alloc 2 }

/-- Two nodes were taken and the second one went back, by the carrier of the first; then a session
was taken. -/
def shuffled : State :=
  (getIPSession (releaseNodel (getNodel (getNodel smallPools).1).1 1)).1

lemma clients_shuffled : Clients 3 2 shuffled [2] [1] := by
  have hfirst : Clients 3 2 (getNodel smallPools).1 [2] [] :=
    .getNode (.start rfl rfl rfl (fun _ _ => rfl) rfl) (by decide)
  have hsecond : Clients 3 2 (getNodel (getNodel smallPools).1).1 [1, 2] [] :=
    .getNode hfirst (by decide)
  exact .getSession (hsecond.releaseNode (n := 1) (by decide)) (i := 1) rfl

/-- One node and one session are still out. -/
theorem pools_exact_shuffled : NodesServed 3 shuffled [2] ∧ SessionsServed 2 shuffled [1]
    ∧ shuffled.usedSession = 1 :=
  pools_exact (by decide) (by decide) clients_shuffled

end Flow
