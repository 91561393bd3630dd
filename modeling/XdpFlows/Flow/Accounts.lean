import XdpFlows.Flow.Runs

/-!
# What is where

The layout of `Owns` read off the memory alone.  The records that were exported, are on their way out
or are in the table are those of the sessions of the abstract store (`Rep.records_perm`).

* `ownership_invariant`: in every run every node and every session is at exactly one place, and the
  pointers between bucket nodes, active nodes and sessions agree.
* `nodes_outlast_sessions`: the nodes never run out, so that every packet that reaches
  `insertFlow` is counted in a session.

Both are about runs in which `initData` was called once; a second call forgets nodes and sessions.
-/

namespace Flow

open SessionWindow Sections

/-! ## The buckets together -/

/-- The record of the flow a node points to. -/
def State.recordAt (s : State) (n : NodeId) : Option FlowRecord :=
  (s.sessionAt n).map s.record

/-- The records of all flows: exported, on their way out and in the hash table. -/
def State.records (s : State) : List FlowRecord :=
  s.exported ++ s.leaving.filterMap s.recordAt ++ s.buckets.filterMap s.recordAt

section Buckets

variable {g : Layout} {a : Flows Packet UInt64} {pend : List Packet} {s : State}

lemma Owns.sessionAt_live (h : Owns g s) :
    (g.live.map Entry.bnode).filterMap s.sessionAt = g.live.map Entry.sess := by
  rw [List.filterMap_map]
  refine (List.filterMap_congr fun e he => ?_).trans (congrFun (List.filterMap_eq_map ..) _)
  exact sessionAt_eq (h.linked e he).bucket

lemma Owns.sessionAt_gone (h : Owns g s) {l : List (NodeId × SessionId)} (hl : l ⊆ g.gone) :
    (l.map Prod.fst).filterMap s.sessionAt = l.map Prod.snd := by
  rw [List.filterMap_map]
  refine (List.filterMap_congr fun w hw => ?_).trans (congrFun (List.filterMap_eq_map ..) _)
  exact sessionAt_eq (h.left w (hl hw))

lemma filterMap_recordAt (s : State) (l : List NodeId) :
    l.filterMap s.recordAt = (l.filterMap s.sessionAt).map s.record := by
  rw [List.map_filterMap]
  rfl

/-- **The flows in memory are the sessions of the abstract store.** -/
lemma Rep.records_perm (h : Rep g a pend s) : s.records.Perm (a.chain.map recordOf) := by
  obtain ⟨ho, -, hs⟩ := h
  have hgone : s.leaving.filterMap s.recordAt = g.gone.map fun w => s.record w.2 := by
    rw [filterMap_recordAt, ho.leaving_eq, ho.sessionAt_gone (List.Subset.refl _), List.map_map]
    rfl
  have hlive : (s.buckets.filterMap s.recordAt).Perm (a.live.map recordOf) := by
    refine (ho.buckets_perm.filterMap _).trans ?_
    rw [filterMap_recordAt, ho.sessionAt_live, List.map_map, ← hs.live]
    exact .refl _
  rw [State.records, hgone, hs.out, Flows.chain, List.map_append]
  exact (hlive.trans ((List.reverse_perm _).map _).symm).append_left _

end Buckets

/-! ## Ownership -/

/-- Every node and every session is at one place, and the pointers agree. -/
structure Ownership (s : State) : Prop where
  /-- The nodes: the pool, the buckets, the active list, the expired flows, the export thread. -/
  nodes : (s.nodelPool.free ++ s.buckets ++ s.activeFlowList ++ s.expiredFlowList
    ++ s.flagsExpiredFlowList ++ s.exporter.node).Perm (List.range maxPoolNode)
  /-- The sessions: the pool, `aux_session`, the data of the bucket nodes, of the expired flows and
  of the node popped by the export thread, and the session exported but not yet released. -/
  sessions : (s.ipSessionPool.free ++ s.auxSession.toList ++ s.buckets.filterMap s.sessionAt
    ++ (s.expiredFlowList ++ s.flagsExpiredFlowList).filterMap s.sessionAt
    ++ s.exporter.poppedNode.filterMap s.sessionAt
    ++ s.exporter.printedSession).Perm (List.range maxPoolSession)
  /-- A bucket node and its session lie in the bucket of the session, one active node points to it,
  and that is the active node of the session; the session is its own current flow. -/
  bucket : ∀ index, ∀ n ∈ s.flowTable index, ∃ i m, s.nodeData n = .session i
    ∧ getIndex (s.ips i).incoming = index ∧ (s.ips i).activeNode = some m
    ∧ m ∈ s.activeFlowList ∧ (∀ m' ∈ s.activeFlowList, s.nodeData m' = .node n ↔ m' = m)
    ∧ (s.ips i).currentFlow = some i
  active : ∀ m ∈ s.activeFlowList, ∃ n ∈ s.buckets, s.nodeData m = .node n
  leaving : ∀ n ∈ s.leaving, ∃ i, s.nodeData n = .session i
  freeNodes : s.nodelPool.freeCount = s.nodelPool.free.length ∧ 1 ≤ s.nodelPool.freeCount
  freeSession : s.ipSessionPool.freeCount = s.ipSessionPool.free.length
    ∧ 1 ≤ s.ipSessionPool.freeCount
  noFault : s.fault = false

lemma Pool.Ok.count {size : ℕ} {p : Pool} (h : p.Ok size) :
    p.freeCount = p.free.length ∧ 1 ≤ p.freeCount := by
  refine ⟨h.freeCount, ?_⟩
  rw [h.freeCount]
  exact List.length_pos_iff.mpr h.nonempty

/-- The layout says who owns what, as long as nothing is lost or held back. -/
lemma Owns.toOwnership {g : Layout} {s : State} (h : Owns g s) (hnaux : s.naux = none)
    (hlostNodes : g.lostNodes = []) (hlostSessions : g.lostSessions = []) : Ownership s := by
  have hexp : g.expired ++ g.flags ⊆ g.gone := by
    intro w hw
    rw [Layout.gone, List.append_assoc]
    exact List.mem_append_right _ hw
  have hhand : g.hand ⊆ g.gone := fun w hw =>
    List.mem_append_left _ (List.mem_append_left _ hw)
  refine ⟨?_, ?_, ?_, ?_, ?_, h.nodePool.count, h.sessionPool.count, h.noFault⟩
  · refine List.Perm.trans ?_ h.nodes
    rw [List.perm_iff_count]
    intro x
    have hb := h.buckets_perm.count_eq x
    simp only [Layout.nodes, hnaux, hlostNodes, h.active, h.expired, h.flags, Option.toList_none,
      List.count_append, List.count_nil, hb]
    omega
  · refine List.Perm.trans ?_ h.sessions
    rw [List.perm_iff_count]
    intro x
    have hb := (h.buckets_perm.filterMap s.sessionAt).count_eq x
    have he := h.sessionAt_gone hexp
    have hh := h.sessionAt_gone hhand
    rw [List.map_append, ← h.expired, ← h.flags] at he
    rw [h.hand] at hh
    simp only [Layout.sessions, hlostSessions, he, hh, hb, h.sessionAt_live, List.map_append,
      List.count_append, List.count_nil]
    omega
  · intro index n hn
    rw [h.table index] at hn
    obtain ⟨e, he, rfl⟩ := List.mem_map.mp hn
    obtain ⟨heborn, hindex⟩ := List.mem_filter.mp he
    have hlive := h.bornPerm.mem_iff.mp heborn
    obtain ⟨h1, h2, h3, h4⟩ := h.linked e hlive
    refine ⟨e.sess, e.anode, h2, of_decide_eq_true hindex, h3, ?_, ?_, h4⟩
    · rw [h.active]
      exact List.mem_map_of_mem hlive
    · intro m hm
      refine ⟨fun hdata => ?_, fun heq => heq ▸ h1⟩
      rw [h.active] at hm
      obtain ⟨x, hx, rfl⟩ := List.mem_map.mp hm
      rw [(h.linked x hx).active, Ptr.node.injEq] at hdata
      rw [List.inj_on_of_nodup_map h.bnodes_nodup hx hlive hdata]
  · intro m hm
    rw [h.active] at hm
    obtain ⟨e, he, rfl⟩ := List.mem_map.mp hm
    exact ⟨e.bnode, h.buckets_perm.mem_iff.mpr (List.mem_map_of_mem he), (h.linked e he).active⟩
  · intro n hn
    rw [h.leaving_eq] at hn
    obtain ⟨w, hw, rfl⟩ := List.mem_map.mp hn
    exact ⟨w.2, h.left w hw⟩

/-- **The ownership invariant**, whenever the process thread is not between the two calls of
`getNodel` in `insertFlowTable`. -/
theorem ownership_invariant {ps : List Packet} {s : State} {f : Phase} (h : Run ps s f)
    (hinit : s.inits ≤ 1) (hbetween : f = .idle ∨ f = .closed ∨ s.naux = none) : Ownership s := by
  have hnaux : s.naux = none := by
    rcases hbetween with hf | hf | hnaux
    · exact (h.settled (.inl hf)).choose_spec.choose_spec.2.1
    · exact (h.settled (.inr hf)).choose_spec.choose_spec.2.1
    · exact hnaux
  obtain ⟨⟨g, a, pend, ho, hl, -⟩, -⟩ := h.sound
  obtain ⟨hnodes, hsessions⟩ := hl.keeps hinit
  exact ho.toOwnership hnaux hnodes hsessions

/-- With two expired flows and one in the table. -/
theorem ownership_invariant_expired :
    let s := monitor [datagram 1 5 0, datagram 2 5 0, datagram 3 200 0]
    s.inits ≤ 1 ∧ s.expiredFlowList.length = 2 ∧ s.activeFlowList.length = 1 ∧ Ownership s := by
  have hinit : (monitor [datagram 1 5 0, datagram 2 5 0, datagram 3 200 0]).inits ≤ 1 := by
    decide +kernel
  exact ⟨hinit, by decide +kernel, by decide +kernel,
    ownership_invariant (run_monitor _) hinit (.inl rfl)⟩

/-! ## The nodes do not run out -/

/-- **The nodes never run out before the sessions do.**  No call of `getNodel` has failed, and the
packets that reached `insertFlow` are those of the flows, each in one of them. -/
theorem nodes_outlast_sessions {ps : List Packet} {s : State} {f : Phase} (h : Run ps s f)
    (hinit : s.inits ≤ 1) :
    s.nodeErrors = 0 ∧ s.unprocessedFlows = 0
      ∧ (f = .idle ∨ f = .closed → ∃ flows : List (Session Packet),
        (flows.flatMap Session.packets).Perm s.reached
          ∧ s.records.Perm (flows.map recordOf)) := by
  obtain ⟨⟨g, a, pend, -, -, hs⟩, -⟩ := h.sound
  obtain ⟨-, hflows, herrors⟩ := hs.intact hinit
  refine ⟨herrors, hflows, fun hf => ?_⟩
  obtain ⟨g, a, hrep, -, -⟩ := h.settled hf
  obtain ⟨hintact, -, -⟩ := hrep.shows.intact hinit
  refine ⟨a.chain, ?_, hrep.records_perm⟩
  rw [hrep.shows.arrivals, List.append_nil]
  exact hrep.shows.reach.packets_perm hintact

/-- With three packets in two flows. -/
theorem nodes_outlast_sessions_merged :
    let s := monitor [datagram 1 5 0, datagram 2 5 0, datagram 1 6 0]
    s.inits ≤ 1 ∧ s.reached.length = 3 ∧ s.activeFlowList.length = 2 ∧ s.nodeErrors = 0
      ∧ s.unprocessedFlows = 0 ∧ ∃ flows : List (Session Packet),
        (flows.flatMap Session.packets).Perm s.reached ∧ s.records.Perm (flows.map recordOf) := by
  have hinit : (monitor [datagram 1 5 0, datagram 2 5 0, datagram 1 6 0]).inits ≤ 1 := by
    decide +kernel
  obtain ⟨herrors, hflows, hsessions⟩ := nodes_outlast_sessions (run_monitor _) hinit
  exact ⟨hinit, by decide +kernel, by decide +kernel, herrors, hflows, hsessions (.inl rfl)⟩

end Flow
