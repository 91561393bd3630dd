import XdpFlows.Flow.Effects
import XdpFlows.Flow.NodeHeap

/-!
# Insertions that fail

`insertFlowTable` takes two nodes.  When there is none, or only one, it counts the flow as
unprocessed and returns the session; a first node is given back, by whichever carrier has been in use
the longest.  `insertFlowTable_atomic` says that the store is then as it was: only the order of the
free nodes has changed, and what the returned node points to.
-/

namespace Flow

open Sections

/-- `insertFlowTable` in one go, with the session it returns. -/
def insertFlowTableCall (i : SessionId) (index : ℕ) (s : State) : State × Option SessionId :=
  let (s, ret) := insertFlowTableFirst i s
  if ret = -1 then
    (s, some i)
  else
    let (s, ret) := insertFlowTableSecond i index s
    if ret = -1 then
      (insertFlowTableUndo s, some i)
    else
      (s, none)

/-- It is the program of the process thread, with nobody in between. -/
lemma run_insertFlowTable (i : SessionId) (index : ℕ) (s : State) :
    ((insertFlowTable i index).run s).1 = (insertFlowTableCall i index s).1 := by
  rw [insertFlowTable, Prog.run_bind, Prog.run_atomic, insertFlowTableCall]
  rcases insertFlowTableFirst i s with ⟨s₁, ret⟩
  by_cases hret : ret = -1
  · simp only [if_pos hret]
    rfl
  · simp only [if_neg hret]
    rw [Prog.run_bind, Prog.run_atomic]
    rcases insertFlowTableSecond i index s₁ with ⟨s₂, ret'⟩
    by_cases hret' : ret' = -1
    · simp only [if_pos hret']
      rfl
    · simp only [if_neg hret']
      rfl

/-! ## Well-formed stores -/

/-- The active list refers to session `i`, by the node of its bucket. -/
def State.Active (s : State) (i : SessionId) : Prop :=
  ∃ n ∈ s.activeFlowList, ∃ b, s.nodeData n = .node b ∧ s.nodeData b = .session i

/-- Every node is free or in one list, and not twice; the nodes of the active list point to those of
the buckets. -/
structure WellFormed (s : State) : Prop where
  pool : ∃ size, s.nodelPool.Ok size
  free : s.nodelPool.free.Nodup
  lists : ∀ v, (s.lists v).Nodup
  apart : ∀ v w, v ≠ w → (s.lists v).Disjoint (s.lists w)
  outside : ∀ v, s.nodelPool.free.Disjoint (s.lists v)
  active : ∀ n ∈ s.activeFlowList, ∃ b ∈ s.buckets, s.nodeData n = .node b

/-- The insertion of session `i` into `s` has left `s'`, and not happened. -/
structure Refused (i : SessionId) (s s' : State) : Prop where
  flowTable : s'.flowTable = s.flowTable
  activeFlowList : s'.activeFlowList = s.activeFlowList
  nodeData : ∀ n ∉ s.nodelPool.free, s'.nodeData n = s.nodeData n
  others : ∀ j ≠ i, s'.ips j = s.ips j
  free : s'.nodelPool.free.Perm s.nodelPool.free
  freeCount : s'.nodelPool.freeCount = s.nodelPool.freeCount
  unprocessed : s'.unprocessedFlows = s.unprocessedFlows + 1
  notInTable : ¬ s'.InTable i
  notActive : ¬ s'.Active i
  noFault : s'.fault = s.fault
  wellFormed : WellFormed s'

/-- Session `i` has gone into bucket `index`, with the first two nodes of the pool. -/
structure Inserted (i : SessionId) (index : ℕ) (naux newActiveNode : NodeId) (s s' : State) :
    Prop where
  free : s.nodelPool.free = naux :: newActiveNode :: s'.nodelPool.free
  freeCount : s.nodelPool.freeCount = s'.nodelPool.freeCount + 2
  flowTable : s'.flowTable = Function.update s.flowTable index (naux :: s.flowTable index)
  activeFlowList : s'.activeFlowList = newActiveNode :: s.activeFlowList
  bucketNode : s'.nodeData naux = .session i
  activeNode : s'.nodeData newActiveNode = .node naux
  session : (s'.ips i).activeNode = some newActiveNode
  nodeData : ∀ n, n ≠ naux → n ≠ newActiveNode → s'.nodeData n = s.nodeData n
  others : ∀ j ≠ i, s'.ips j = s.ips j
  unprocessed : s'.unprocessedFlows = s.unprocessedFlows
  noFault : s'.fault = s.fault
  wellFormed : index < maxFlowTableSize → WellFormed s'

section WellFormed

variable {s s' : State} {i : SessionId} {n : NodeId}

lemma WellFormed.bucket_not_free (h : WellFormed s) (hn : n ∈ s.buckets) :
    n ∉ s.nodelPool.free := by
  obtain ⟨index, -, hmem⟩ := List.mem_flatMap.mp hn
  exact fun hfree => h.outside (.bucket index) hfree hmem

lemma WellFormed.active_not_free (h : WellFormed s) (hn : n ∈ s.activeFlowList) :
    n ∉ s.nodelPool.free :=
  fun hfree => h.outside .active hfree hn

/-- A state with the same lists, in which only free nodes have been written to. -/
lemma WellFormed.refused (h : WellFormed s) (hi : ¬ s.InTable i) (hlists : s'.lists = s.lists)
    (hpool : ∃ size, s'.nodelPool.Ok size) (hfree : s'.nodelPool.free.Perm s.nodelPool.free)
    (hdata : ∀ n ∉ s.nodelPool.free, s'.nodeData n = s.nodeData n)
    (hcount : s'.nodelPool.freeCount = s.nodelPool.freeCount)
    (hothers : ∀ j ≠ i, s'.ips j = s.ips j)
    (hunprocessed : s'.unprocessedFlows = s.unprocessedFlows + 1)
    (hfault : s'.fault = s.fault) : Refused i s s' := by
  have htable : s'.flowTable = s.flowTable := funext fun index => congrFun hlists (.bucket index)
  have hactive : s'.activeFlowList = s.activeFlowList := congrFun hlists .active
  have hbuckets : s'.buckets = s.buckets := by rw [State.buckets, State.buckets, htable]
  have hout : ¬ s'.InTable i := by
    rintro ⟨n, hn, hsession⟩
    rw [hbuckets] at hn
    exact hi ⟨n, hn, (hdata n (h.bucket_not_free hn)).symm.trans hsession⟩
  refine ⟨htable, hactive, hdata, hothers, hfree, hcount, hunprocessed, hout, ?_, hfault, ?_⟩
  · rintro ⟨n, hn, b, hnode, hsession⟩
    rw [hactive] at hn
    rw [hdata n (h.active_not_free hn)] at hnode
    obtain ⟨b', hb', hnode'⟩ := h.active n hn
    obtain rfl : b' = b := by simpa [hnode'] using hnode
    rw [← hbuckets] at hb'
    exact hout ⟨b', hb', hsession⟩
  · refine ⟨hpool, hfree.nodup_iff.mpr h.free, hlists ▸ h.lists, hlists ▸ h.apart, ?_, ?_⟩
    · intro v n hn
      rw [hlists]
      exact h.outside v (hfree.mem_iff.mp hn)
    · intro n hn
      rw [hactive] at hn
      obtain ⟨b, hb, hnode⟩ := h.active n hn
      rw [← hbuckets] at hb
      exact ⟨b, hb, (hdata n (h.active_not_free hn)).trans hnode⟩

/-! A node that is in no list goes to the front of one. -/

variable {lists : ListVar → List NodeId} {v : ListVar}

lemma nodup_prepend (h : ∀ w, (lists w).Nodup) (hn : ∀ w, n ∉ lists w) (w : ListVar) :
    (Function.update lists v (n :: lists v) w).Nodup := by
  rcases eq_or_ne w v with rfl | hw
  · rw [Function.update_self]
    exact List.nodup_cons.mpr ⟨hn w, h w⟩
  · rw [Function.update_of_ne hw]
    exact h w

lemma outside_prepend {l : List NodeId} (h : ∀ w, l.Disjoint (lists w)) (hn : n ∉ l)
    (w : ListVar) : l.Disjoint (Function.update lists v (n :: lists v) w) := by
  rcases eq_or_ne w v with rfl | hw
  · rw [Function.update_self]
    exact List.disjoint_cons_right.mpr ⟨hn, h w⟩
  · rw [Function.update_of_ne hw]
    exact h w

lemma apart_prepend (h : ∀ u w, u ≠ w → (lists u).Disjoint (lists w)) (hn : ∀ w, n ∉ lists w)
    (u w : ListVar) (hne : u ≠ w) : (Function.update lists v (n :: lists v) u).Disjoint
      (Function.update lists v (n :: lists v) w) := by
  rcases eq_or_ne u v with rfl | hu
  · rw [Function.update_self, Function.update_of_ne hne.symm]
    exact List.disjoint_cons_left.mpr ⟨hn w, h u w hne⟩
  · rw [Function.update_of_ne hu]
    rcases eq_or_ne w v with rfl | hw
    · rw [Function.update_self]
      exact List.disjoint_cons_right.mpr ⟨hn u, h u w hne⟩
    · rw [Function.update_of_ne hw]
      exact h u w hne

lemma lists_prepend (s : State) (index : ℕ) (a b : NodeId)
    (htable : s'.flowTable = Function.update s.flowTable index (a :: s.flowTable index))
    (hactive : s'.activeFlowList = b :: s.activeFlowList)
    (hflags : s'.flagsExpiredFlowList = s.flagsExpiredFlowList)
    (hexpired : s'.expiredFlowList = s.expiredFlowList) :
    s'.lists = Function.update (Function.update s.lists (.bucket index)
      (a :: s.lists (.bucket index))) .active (b :: s.activeFlowList) := by
  funext v
  cases v with
  | active => exact hactive
  | flags => exact hflags
  | expired => exact hexpired
  | bucket k =>
      rw [Function.update_of_ne (by simp)]
      show s'.flowTable k = _
      rw [htable, Function.update_apply, Function.update_apply]
      simp only [ListVar.bucket.injEq]
      rfl

/-- A state in which two free nodes have gone to the front of a bucket and of the active list. -/
lemma WellFormed.prepend (h : WellFormed s) {index a b : ℕ} (hindex : index < maxFlowTableSize)
    (hpool : ∃ size, s'.nodelPool.Ok size)
    (hfree : s.nodelPool.free = a :: b :: s'.nodelPool.free)
    (htable : s'.flowTable = Function.update s.flowTable index (a :: s.flowTable index))
    (hlists : s'.lists = Function.update
      (Function.update s.lists (.bucket index) (a :: s.lists (.bucket index))) .active
        (b :: s.activeFlowList))
    (hactive : s'.activeFlowList = b :: s.activeFlowList) (hnode : s'.nodeData b = .node a)
    (hdata : ∀ n, n ≠ a → n ≠ b → s'.nodeData n = s.nodeData n) : WellFormed s' := by
  have hnodup := h.free
  have houtside := h.outside
  rw [hfree, List.nodup_cons, List.nodup_cons, List.mem_cons, not_or] at hnodup
  simp only [hfree, List.disjoint_cons_left] at houtside
  obtain ⟨⟨hab, ha⟩, hb, hrest⟩ := hnodup
  have hblists : ∀ w, b ∉ Function.update s.lists (.bucket index) (a :: s.lists (.bucket index)) w := by
    intro w
    have hsingle : ∀ w, [b].Disjoint (s.lists w) := fun w => by simpa using (houtside w).2.1
    simpa using outside_prepend hsingle (by simpa using hab) w
  have hsub : ∀ n ∈ s.buckets, n ∈ s'.buckets := by
    intro n hn
    obtain ⟨k, hk, hmem⟩ := List.mem_flatMap.mp hn
    refine List.mem_flatMap.mpr ⟨k, hk, ?_⟩
    rw [htable, Function.update_apply]
    split_ifs with heq
    · exact List.mem_cons_of_mem _ (heq ▸ hmem)
    · exact hmem
  have hmem : a ∈ s'.buckets := by
    refine List.mem_flatMap.mpr ⟨index, List.mem_range.mpr hindex, ?_⟩
    rw [htable, Function.update_self]
    exact List.mem_cons_self ..
  refine ⟨hpool, hrest, ?_, ?_, ?_, ?_⟩
  · rw [hlists]
    exact nodup_prepend (nodup_prepend h.lists fun w => (houtside w).1) hblists
  · rw [hlists]
    exact apart_prepend (apart_prepend h.apart fun w => (houtside w).1) hblists
  · rw [hlists]
    exact outside_prepend (outside_prepend (fun w => (houtside w).2.2) ha) hb
  · intro n hn
    rw [hactive] at hn
    rcases List.mem_cons.mp hn with rfl | hold
    · exact ⟨a, hmem, hnode⟩
    · obtain ⟨b', hb', hnode'⟩ := h.active n hold
      refine ⟨b', hsub b' hb', (hdata n ?_ ?_).trans hnode'⟩
      · rintro rfl
        exact (houtside .active).1 hold
      · rintro rfl
        exact (houtside .active).2.1 hold

end WellFormed

/-! ## The two calls of `getNodel` -/

section Calls

variable {s : State} {i : SessionId} {index : ℕ} {a b c : NodeId} {rest : List NodeId}

/-- The last node is put back. -/
lemma getNodel_last (h : s.nodelPool.free = [a]) :
    getNodel s = (s.log (.error "Pool de nodos vacío"), -1) := by
  have hget : s.nodelPool.get = some (s.nodelPool, none) := by rw [Pool.get, h]
  rw [getNodel, hget]

lemma getNodel_first (h : s.nodelPool.free = a :: b :: rest) :
    getNodel s = ({ s with
      nodelPool := ⟨b :: rest, s.nodelPool.used ++ [a], s.nodelPool.freeCount - 1⟩
      nodelAux := a }, 0) := by
  have hget : s.nodelPool.get
      = some (⟨b :: rest, s.nodelPool.used ++ [a], s.nodelPool.freeCount - 1⟩, some a) := by
    rw [Pool.get, h]
  rw [getNodel, hget]

/-- A node goes back by the oldest carrier in use. -/
lemma releaseNodel_of_used (h : s.nodelPool.used ≠ []) (n : NodeId) :
    releaseNodel s n = { s with nodelPool :=
      ⟨s.nodelPool.free ++ [n], s.nodelPool.used.tail, s.nodelPool.freeCount + 1⟩ } := by
  have hrelease : s.nodelPool.release n
      = some ⟨s.nodelPool.free ++ [n], s.nodelPool.used.tail, s.nodelPool.freeCount + 1⟩ := by
    rw [Pool.release]
    cases hused : s.nodelPool.used with
    | nil => exact absurd hused h
    | cons c used => rfl
  rw [releaseNodel, hrelease]

/-- What `insertFlowTable` writes into the session before it asks for a node. -/
def State.stampSession (s : State) (i : SessionId) : State :=
  s.setSession i { s.ips i with
    lastpacketTimestamp := s.lastPacketTimestamp
    firstpacketTimestamp := s.lastPacketTimestamp
    currentFlow := some i }

/-- No node was to be had. -/
def State.refuse (s : State) : State :=
  { s.log (.error "Pool de nodos vacío") with unprocessedFlows := s.unprocessedFlows + 1 }

/-- The first node is taken and filled. -/
def State.takeFirst (s : State) (i : SessionId) (a b : NodeId) (rest : List NodeId) : State :=
  { (s.stampSession i).setData a (.session i) with
    nodelPool := ⟨b :: rest, s.nodelPool.used ++ [a], s.nodelPool.freeCount - 1⟩
    nodelAux := a
    naux := some a }

/-- A node is given back, by the oldest carrier in use. -/
def State.putBack (s : State) (a : NodeId) : State :=
  { s with
    nodelPool := ⟨s.nodelPool.free ++ [a], s.nodelPool.used.tail, s.nodelPool.freeCount + 1⟩
    naux := none }

/-- The second node is taken and both are linked. -/
def State.takeSecond (s : State) (i : SessionId) (index : ℕ) (a b c : NodeId) (rest : List NodeId) :
    State :=
  { (((s.log (.opened i s.lastPacketTimestamp (s.sameKey i (s.flowTable index)))).setData b
      (.node a)).setBucket index (a :: s.flowTable index)).setSession i
        { s.ips i with activeNode := some b } with
    nodelPool := ⟨c :: rest, s.nodelPool.used ++ [b], s.nodelPool.freeCount - 1⟩
    nodelAux := b
    activeFlowList := b :: s.activeFlowList
    naux := none
    auxSession := none }

lemma insertFlowTableFirst_last (h : s.nodelPool.free = [a]) :
    insertFlowTableFirst i s = ((s.stampSession i).refuse, -1) := by
  have hget := getNodel_last (s := s.stampSession i) h
  rw [State.stampSession] at hget ⊢
  rw [insertFlowTableFirst]
  simp only [hget]
  rfl

lemma insertFlowTableFirst_first (h : s.nodelPool.free = a :: b :: rest) :
    insertFlowTableFirst i s = (s.takeFirst i a b rest, 0) := by
  have hget := getNodel_first (s := s.stampSession i) h
  rw [State.stampSession] at hget
  rw [insertFlowTableFirst]
  simp only [hget]
  rfl

lemma insertFlowTableSecond_last (h : s.nodelPool.free = [b]) :
    insertFlowTableSecond i index s = (s.refuse, -1) := by
  rw [insertFlowTableSecond]
  simp only [getNodel_last h]
  rfl

lemma insertFlowTableUndo_eq (hnaux : s.naux = some a) (hused : s.nodelPool.used ≠ []) :
    insertFlowTableUndo s = s.putBack a := by
  simp only [insertFlowTableUndo, hnaux, releaseNodel_of_used hused]
  rfl

lemma insertFlowTableSecond_first (h : s.nodelPool.free = b :: c :: rest) (hnaux : s.naux = some a) :
    insertFlowTableSecond i index s = (s.takeSecond i index a b c rest, 0) := by
  rw [insertFlowTableSecond]
  simp only [getNodel_first h, hnaux]
  rfl

/-! ## The three ways through -/

lemma insertFlowTableCall_none (h : s.nodelPool.free = [a]) :
    insertFlowTableCall i index s = ((s.stampSession i).refuse, some i) := by
  rw [insertFlowTableCall, insertFlowTableFirst_last h]
  rfl

lemma insertFlowTableCall_one (h : s.nodelPool.free = [a, b]) :
    insertFlowTableCall i index s = ((s.takeFirst i a b []).refuse.putBack a, some i) := by
  have hsecond : insertFlowTableSecond i index (s.takeFirst i a b [])
      = ((s.takeFirst i a b []).refuse, -1) := insertFlowTableSecond_last rfl
  have hundo : insertFlowTableUndo (s.takeFirst i a b []).refuse
      = (s.takeFirst i a b []).refuse.putBack a :=
    insertFlowTableUndo_eq rfl (by simp [State.refuse, State.takeFirst, State.log])
  rw [insertFlowTableCall, insertFlowTableFirst_first h]
  simp only [hsecond, hundo]
  rfl

lemma insertFlowTableCall_two (h : s.nodelPool.free = a :: b :: c :: rest) :
    insertFlowTableCall i index s
      = ((s.takeFirst i a b (c :: rest)).takeSecond i index a b c rest, none) := by
  have hsecond : insertFlowTableSecond i index (s.takeFirst i a b (c :: rest))
      = ((s.takeFirst i a b (c :: rest)).takeSecond i index a b c rest, 0) :=
    insertFlowTableSecond_first rfl rfl
  rw [insertFlowTableCall, insertFlowTableFirst_first h]
  simp only [hsecond]
  rfl

/-- There is no first node. -/
lemma WellFormed.refused_none (hwf : WellFormed s) (hi : ¬ s.InTable i) :
    Refused i s (s.stampSession i).refuse := by
  refine hwf.refused hi ?_ hwf.pool (List.Perm.refl _) (fun _ _ => rfl) rfl ?_ rfl rfl
  · funext v
    cases v with
    | _ => rfl
  · intro j hj
    exact State.setSession_of_ne s _ hj

/-- There is no second node, and the first one goes back. -/
lemma WellFormed.refused_one (hwf : WellFormed s) (hi : ¬ s.InTable i)
    (h : s.nodelPool.free = [a, b]) :
    Refused i s ((s.takeFirst i a b []).refuse.putBack a) := by
  obtain ⟨size, hok⟩ := hwf.pool
  have hcount : s.nodelPool.freeCount = 2 := by rw [hok.freeCount, h]; rfl
  have htotal := hok.total
  rw [h] at htotal
  have hswap : [b, a].Perm s.nodelPool.free := h ▸ List.Perm.swap a b []
  refine hwf.refused hi ?_ ⟨size, ?_⟩ hswap ?_ ?_ ?_ rfl rfl
  · funext v
    cases v with
    | _ => rfl
  · refine ⟨?_, ?_, List.cons_ne_nil b [a]⟩
    · show s.nodelPool.freeCount - 1 + 1 = 2
      omega
    · show (s.nodelPool.used ++ [a]).tail.length + 2 = size
      rw [List.length_tail, List.length_append, List.length_singleton]
      exact htotal
  · intro n hn
    refine State.setData_of_ne _ _ ?_
    rintro rfl
    simp [h] at hn
  · show s.nodelPool.freeCount - 1 + 1 = s.nodelPool.freeCount
    omega
  · intro j hj
    exact State.setSession_of_ne s _ hj

/-- There are both. -/
lemma WellFormed.inserted (hwf : WellFormed s) (h : s.nodelPool.free = a :: b :: c :: rest) :
    Inserted i index a b s ((s.takeFirst i a b (c :: rest)).takeSecond i index a b c rest) := by
  obtain ⟨size, hok⟩ := hwf.pool
  have hcount : s.nodelPool.freeCount = rest.length + 3 := by rw [hok.freeCount, h]; rfl
  have htotal := hok.total
  have hnodup := hwf.free
  rw [h] at htotal hnodup
  have hab : a ≠ b := by
    rintro rfl
    simp at hnodup
  refine ⟨h, ?_, rfl, rfl, ?_, ?_, ?_, ?_, ?_, rfl, rfl, ?_⟩
  · show s.nodelPool.freeCount = s.nodelPool.freeCount - 1 - 1 + 2
    omega
  · refine (State.setData_of_ne _ _ hab).trans ?_
    exact State.setData_self (s.stampSession i) a _
  · exact State.setData_self _ b _
  · exact congrArg IPSession.activeNode (State.setSession_self _ i _)
  · intro n ha hb
    refine (State.setData_of_ne _ _ hb).trans ?_
    exact State.setData_of_ne (s.stampSession i) _ ha
  · intro j hj
    refine (State.setSession_of_ne _ _ hj).trans ?_
    exact State.setSession_of_ne s _ hj
  · intro hindex
    refine hwf.prepend hindex ⟨size, ?_⟩ h rfl ?_ rfl (State.setData_self _ b _) ?_
    · refine ⟨?_, ?_, List.cons_ne_nil c rest⟩
      · show s.nodelPool.freeCount - 1 - 1 = rest.length + 1
        omega
      · show (s.nodelPool.used ++ [a] ++ [b]).length + (rest.length + 1) = size
        simp only [List.length_append, List.length_cons, List.length_nil] at htotal ⊢
        omega
    · exact lists_prepend s index a b rfl rfl rfl rfl
    · intro n ha hb
      refine (State.setData_of_ne _ _ hb).trans ?_
      exact State.setData_of_ne (s.stampSession i) _ ha

/-- **A failed insertion leaves the store as it was**; one that succeeds takes two nodes and puts the
session to the front of its bucket and of the active list. -/
theorem insertFlowTable_atomic (hwf : WellFormed s) (hi : ¬ s.InTable i) (index : ℕ) :
    (s.nodelPool.free.length ≤ 2 ∧ (insertFlowTableCall i index s).2 = some i
        ∧ Refused i s (insertFlowTableCall i index s).1)
      ∨ (3 ≤ s.nodelPool.free.length ∧ (insertFlowTableCall i index s).2 = none
        ∧ ∃ naux newActiveNode,
          Inserted i index naux newActiveNode s (insertFlowTableCall i index s).1) := by
  obtain ⟨size, hok⟩ := hwf.pool
  match h : s.nodelPool.free with
  | [] => exact absurd h hok.nonempty
  | [a] =>
      rw [insertFlowTableCall_none h]
      exact .inl ⟨by simp, rfl, hwf.refused_none hi⟩
  | [a, b] =>
      rw [insertFlowTableCall_one h]
      exact .inl ⟨by simp, rfl, hwf.refused_one hi h⟩
  | a :: b :: c :: rest =>
      rw [insertFlowTableCall_two h]
      exact .inr ⟨by simp, rfl, a, b, hwf.inserted h⟩

end Calls

/-! ## A second flow for which one node is left -/

/-- Four nodes and no flow. -/
def fourNodes : State :=
  { initialState with nodelPool := .alloc 4 }

/-- The first flow has taken two of them. -/
def oneFlow : State :=
  (insertFlowTableCall 0 17 fourNodes).1

lemma wellFormed_fourNodes : WellFormed fourNodes where
  pool := ⟨4, Pool.ok_alloc (by decide)⟩
  free := by decide
  lists v := by
    cases v with
    | _ => exact List.nodup_nil
  apart v w _ := by
    cases v with
    | _ => exact List.disjoint_nil_left _
  outside v := by
    cases v with
    | _ => exact List.disjoint_nil_right _
  active n hn := absurd hn List.not_mem_nil

lemma inserted_oneFlow : Inserted 0 17 3 2 fourNodes oneFlow := by
  have hfree : fourNodes.nodelPool.free = 3 :: 2 :: 1 :: [0] := rfl
  rw [oneFlow, insertFlowTableCall_two hfree]
  exact wellFormed_fourNodes.inserted hfree

lemma not_inTable_oneFlow : ¬ oneFlow.InTable 1 := by
  rintro ⟨n, hn, hdata⟩
  obtain ⟨k, -, hmem⟩ := List.mem_flatMap.mp hn
  rw [inserted_oneFlow.flowTable, Function.update_apply] at hmem
  obtain rfl : n = 3 := by
    split_ifs at hmem
    · exact List.mem_singleton.mp hmem
    · exact absurd hmem List.not_mem_nil
  rw [inserted_oneFlow.bucketNode] at hdata
  simp at hdata

/-- A second flow does not fit, and nothing is left of it. -/
theorem insertFlowTable_atomic_second : (insertFlowTableCall 1 17 oneFlow).2 = some 1
    ∧ Refused 1 oneFlow (insertFlowTableCall 1 17 oneFlow).1 := by
  have hwf := inserted_oneFlow.wellFormed (by decide)
  rcases insertFlowTable_atomic hwf not_inTable_oneFlow 17 with ⟨-, h⟩ | ⟨hthree, -⟩
  · exact h
  · exact absurd hthree (by decide)

end Flow
