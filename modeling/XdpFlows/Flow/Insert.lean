import XdpFlows.Flow.Update

/-!
# Inserting flows

A new flow takes two nodes of the pool, one for its bucket and one for the active list, with a gap
between the two calls of `getNodel` in which the export thread may run.  The flow goes to the front
of its bucket and of the active list, and the session it was parsed into is no longer `aux_session`:
a `start` of the abstract store (`Rep.openEntry`).

`Owns.spare_nodes` is the reason why the nodes do not run out before the sessions do.  A session in
the table holds two nodes, one on its way out holds one, the export thread may hold one without a
session; of the 2500 sessions one is kept back and one is `aux_session`, so at least three of the
5000 nodes are left.
-/

namespace Flow

open SessionWindow Sections

/-! ## Taking nodes -/

section Nodes

variable {g : Layout} {a : Flows Packet UInt64} {s : State} {p : Packet} {i : SessionId}

/-- `getNodel` fails exactly when one node is left. -/
lemma Owns.getNodel (h : Owns g s) :
    (s.nodelPool.free.length = 1
      ∧ getNodel s = (s.log (.error "Pool de nodos vacío"), -1))
    ∨ ∃ n rest pool, s.nodelPool.free = n :: rest ∧ pool.free = rest ∧ pool.Ok maxPoolNode
      ∧ getNodel s = ({ s with nodelPool := pool, nodelAux := n }, 0) := by
  rcases h.nodePool.get with ⟨hlen, hget⟩ | ⟨n, rest, pool, hfree, hget, hrest, hok⟩
  · refine Or.inl ⟨hlen, ?_⟩
    rw [Flow.getNodel, hget]
  · refine Or.inr ⟨n, rest, pool, hfree, hrest, hok, ?_⟩
    rw [Flow.getNodel, hget]

/-- **Nodes are left whenever a session is at hand**, unless `initData` has forgotten some. -/
lemma Owns.spare_nodes (h : Owns g s) (hnodes : g.lostNodes = []) (haux : s.auxSession = some i) :
    3 ≤ s.nodelPool.free.length + s.naux.toList.length := by
  have hn := h.node_length
  have hs := h.session_length
  have hfree : 0 < s.ipSessionPool.free.length := List.length_pos_iff.mpr h.sessionPool.nonempty
  have hhand : s.exporter.node.length ≤ 1 := by
    cases s.exporter <;> simp [ExportPc.node]
  rw [hnodes, List.length_nil, maxPoolNode] at hn
  rw [haux, Option.toList_some, List.length_singleton, maxPoolSession] at hs
  omega

/-- A packet is dropped for want of a node; that takes a second call of `initData`. -/
lemma Rep.dropPacket (h : Rep g a [p] s) (haux : s.auxSession = some i)
    (hlen : s.nodelPool.free.length = 1) :
    Rep g { a with arrivals := a.arrivals ++ [p], intact := false } []
      { s.log (.error "Pool de nodos vacío") with
        unprocessedFlows := s.unprocessedFlows + 1 } := by
  obtain ⟨ho, hl, hs⟩ := h
  have hlate : ¬ s.inits ≤ 1 := by
    intro hi
    have hspare := ho.spare_nodes (hl.keeps hi).1 haux
    have hnaux : s.naux.toList.length ≤ 1 := by
      cases s.naux <;> simp
    omega
  have hl' : Lives g (s.log (.error "Pool de nodos vacío")) :=
    hl.log ⟨fun _ => rfl, rfl, rfl, rfl⟩ fun _ => rfl
  refine ⟨{ ho with nodes := ho.nodes }, { hl' with live := hl'.live },
    ⟨hs.reach.tail (.drop p), hs.live, ?_, hs.now, ?_, ?_, ?_, fun hi => ?_⟩⟩
  · have hexported : (s.log (.error "Pool de nodos vacío")).exported = s.exported :=
      (exported_log _ _).trans (List.append_nil _)
    rw [← hs.out, ← hexported]
    rfl
  · exact hs.times.trans ((times_log _ _).trans (List.append_nil _)).symm
  · exact ((reached_log _ _).trans (List.append_nil _)).trans
      (hs.arrivals.trans (List.append_nil _).symm)
  · exact hs.notes.trans ((notes_log _ _).trans (List.append_nil _)).symm
  · have hinits' : (s.log (.error "Pool de nodos vacío")).inits = s.inits := inits_log _ _
    exact absurd (hinits' ▸ hi : s.inits ≤ 1) hlate

/-- The node for the bucket. -/
lemma Rep.holdNode {pend : List Packet} (h : Rep g a pend s) (haux : s.auxSession = some i)
    (hinits : 1 ≤ s.inits) (hnaux : s.naux = none) {n : NodeId} {rest : List NodeId} {pool : Pool}
    (hfree : s.nodelPool.free = n :: rest) (hrest : pool.free = rest)
    (hok : pool.Ok maxPoolNode) :
    Rep g a pend
      (({ s with nodelPool := pool, nodelAux := n, naux := some n } : State).setData n
        (.session i)) := by
  obtain ⟨ho, hl, hs⟩ := h
  obtain ⟨hlive, hgone⟩ := ho.free_apart hfree
  refine ⟨{ ho with
    nodes := ?_, nodePool := hok, linked := fun e he => ?_, left := fun w hw => ?_,
    naux := fun m hm => ?_ }, { hl with fresh := fun h0 => ?_ }, { hs with reach := hs.reach }⟩
  · refine List.Perm.trans ?_ ho.nodes
    rw [List.perm_iff_count]
    intro x
    simp only [Layout.nodes, State.setData, hrest, hfree, hnaux, Option.toList_some,
      Option.toList_none, List.count_append, List.count_cons, List.count_nil]
    omega
  · obtain ⟨h1, h2, h3, h4⟩ := ho.linked e he
    obtain ⟨ha, hb⟩ := hlive e he
    exact ⟨(State.setData_of_ne _ _ ha).trans h1, (State.setData_of_ne _ _ hb).trans h2, h3, h4⟩
  · exact (State.setData_of_ne _ _ (hgone w hw)).trans (ho.left w hw)
  · obtain rfl : n = m := Option.some.inj hm
    exact ⟨i, haux, State.setData_self ..⟩
  · have hz : s.inits = 0 := h0
    omega

/-- The node for the bucket goes back. -/
lemma Rep.releaseNaux {pend : List Packet} (h : Rep g a pend s) {n : NodeId}
    (hnaux : s.naux = some n) :
    ∃ pool, insertFlowTableUndo s = { s with nodelPool := pool, naux := none }
      ∧ Rep g a pend { s with nodelPool := pool, naux := none } := by
  obtain ⟨ho, hl, hs⟩ := h
  have hlt : s.nodelPool.free.length < maxPoolNode := by
    have hlen := ho.node_length
    rw [hnaux, Option.toList_some, List.length_singleton] at hlen
    omega
  obtain ⟨pool, hpool, hfree, hok⟩ := ho.nodePool.release hlt n
  refine ⟨pool, by simp only [insertFlowTableUndo, hnaux, releaseNodel, hpool], ?_⟩
  refine ⟨{ ho with nodes := ?_, nodePool := hok, naux := fun m hm => absurd hm (by simp) },
    { hl with fresh := fun h0 => ?_ }, { hs with reach := hs.reach }⟩
  · refine List.Perm.trans ?_ ho.nodes
    rw [List.perm_iff_count]
    intro x
    simp only [Layout.nodes, hfree, hnaux, Option.toList_some, Option.toList_none,
      List.count_append, List.count_nil]
    omega
  · obtain ⟨-, -, -, -, -, h6, -⟩ := hl.fresh h0
    exact absurd (h6.symm.trans hnaux) (by simp)

end Nodes

/-! ## A new flow -/

section Open

variable {g : Layout} {a : Flows Packet UInt64} {s : State} {p : Packet} {e : Entry}

/-- What `insertFlowTable` leaves behind, for a flow with the nodes and the session of `e`. -/
def openEntry (s : State) (e : Entry) (pool : Pool) (others : List UInt64) : State :=
  ({ s with
      nodelPool := pool
      nodelAux := e.anode
      nodeData := Function.update s.nodeData e.anode (.node e.bnode)
      flowTable := Function.update s.flowTable (s.key e.sess).index
        (e.bnode :: s.flowTable (s.key e.sess).index)
      activeFlowList := e.anode :: s.activeFlowList
      ips := Function.update s.ips e.sess { s.ips e.sess with activeNode := some e.anode }
      naux := none
      auxSession := none } : State).log (.opened e.sess s.lastPacketTimestamp others)

lemma openEntry_key (pool : Pool) (others : List UInt64) (j : SessionId) :
    (openEntry s e pool others).key j = s.key j := by
  by_cases hj : j = e.sess
  · rw [hj, State.key]
    simp only [openEntry, State.log, Function.update_self]
    rfl
  · rw [State.key]
    simp only [openEntry, State.log, Function.update_of_ne hj]
    rfl

lemma openEntry_record (pool : Pool) (others : List UInt64) (j : SessionId) :
    (openEntry s e pool others).record j = s.record j := by
  by_cases hj : j = e.sess
  · rw [hj, State.record]
    simp only [openEntry, State.log, Function.update_self]
    rfl
  · rw [State.record]
    simp only [openEntry, State.log, Function.update_of_ne hj]
    rfl

/-- The flow is in front of its bucket and of the active list. -/
lemma Owns.openEntry (h : Owns g s) (haux : s.auxSession = some e.sess)
    (hnaux : s.naux = some e.bnode) {rest : List NodeId} {pool : Pool}
    (hfree : s.nodelPool.free = e.anode :: rest) (hrest : pool.free = rest)
    (hok : pool.Ok maxPoolNode) (hcur : (s.ips e.sess).currentFlow = some e.sess)
    (others : List UInt64) :
    Owns { g with live := e :: g.live, born := e :: g.born } (openEntry s e pool others) := by
  obtain ⟨hanode, hagone⟩ := h.free_apart hfree
  obtain ⟨hsess, -⟩ := h.aux_apart haux
  have hbucket : s.nodeData e.bnode = .session e.sess := by
    obtain ⟨i, hi, hdata⟩ := h.naux _ hnaux
    rw [haux, Option.some.injEq] at hi
    rw [hdata, hi]
  have hne : e.bnode ≠ e.anode := by
    intro heq
    have hone := h.node_count e.anode
    rw [hfree, hnaux, heq, Option.toList_some, List.count_singleton_self,
      List.count_cons_self] at hone
    omega
  have hkey := openEntry_key (s := s) (e := e) pool others
  have hsfree : ∀ i ∈ s.ipSessionPool.free, i ≠ e.sess := by
    rintro i hi rfl
    have hone := h.session_count e.sess
    have hpos := List.count_pos_iff.mpr hi
    rw [haux, Option.toList_some, List.count_singleton_self] at hone
    omega
  refine ⟨?_, ?_, hok, h.sessionPool, ?_, h.expired, h.flags, h.hand, ?_, ?_, h.bornPerm.cons e,
    ?_, ?_, ?_, fun m hm => absurd hm (by simp [Flow.openEntry, State.log]), h.drains, h.noFault⟩
  · refine List.Perm.trans ?_ h.nodes
    rw [List.perm_iff_count]
    intro x
    simp only [Layout.nodes, Flow.openEntry, State.log, hrest, hfree, hnaux, Option.toList_some,
      Option.toList_none, List.map_cons, List.count_append, List.count_cons, List.count_nil]
    omega
  · refine List.Perm.trans ?_ h.sessions
    rw [List.perm_iff_count]
    intro x
    simp only [Layout.sessions, Flow.openEntry, State.log, haux, Option.toList_some,
      Option.toList_none, List.map_cons, List.count_append, List.count_cons, List.count_nil]
    omega
  · show e.anode :: s.activeFlowList = (e :: g.live).map Entry.anode
    rw [h.active, List.map_cons]
  · intro x hx
    rcases List.mem_cons.mp hx with rfl | hx
    · refine ⟨Function.update_self .., ?_, ?_, ?_⟩
      · exact (Function.update_of_ne hne ..).trans hbucket
      · simp only [Flow.openEntry, State.log, Function.update_self]
      · simp only [Flow.openEntry, State.log, Function.update_self]
        exact hcur
    · obtain ⟨h1, h2, h3, h4⟩ := h.linked x hx
      have hips : (Flow.openEntry s e pool others).ips x.sess = s.ips x.sess :=
        Function.update_of_ne (hsess x hx) ..
      refine ⟨?_, ?_, ?_, ?_⟩
      · exact (Function.update_of_ne (hanode x hx).1 ..).trans h1
      · exact (Function.update_of_ne (hanode x hx).2 ..).trans h2
      · rw [hips, h3]
      · rw [hips, h4]
  · intro w hw
    exact (Function.update_of_ne (hagone w hw) ..).trans (h.left w hw)
  · intro k
    simp only [hkey, List.filter_cons, h.bornOrder k]
  · intro index
    simp only [hkey, List.filter_cons]
    show Function.update s.flowTable (s.key e.sess).index _ index = _
    by_cases hi : (s.key e.sess).index = index
    · rw [← hi, Function.update_self, h.table]
      simp
    · rw [Function.update_of_ne (Ne.symm hi), h.table]
      simp [hi]
  · intro i hi
    have hips : (Flow.openEntry s e pool others).ips i = s.ips i :=
      Function.update_of_ne (hsfree i hi) ..
    rw [hips]
    exact h.cleared i hi

/-- The story of the session begins again. -/
lemma Lives.openEntry (h : Lives g s) (ho : Owns g s) (haux : s.auxSession = some e.sess)
    (hinits : 1 ≤ s.inits) (pool : Pool) (others : List UInt64) :
    Lives { g with live := e :: g.live, born := e :: g.born } (openEntry s e pool others) := by
  obtain ⟨hsess, hgone⟩ := ho.aux_apart haux
  have hlost : e.sess ∉ g.lostSessions := by
    intro hmem
    have hone := ho.session_count e.sess
    have hpos := List.count_pos_iff.mpr hmem
    rw [haux, Option.toList_some, List.count_singleton_self] at hone
    omega
  have hlife : ∀ j, (Flow.openEntry s e pool others).life j
      = s.life j ++ if e.sess = j then [.inserted] else [] := by
    intro j
    rw [Flow.openEntry, life_log]
    simp only [Event.life?]
    split_ifs <;> rfl
  have hexp : (Flow.openEntry s e pool others).exported = s.exported :=
    (exported_log _ _).trans (List.append_nil _)
  have hinits' : (Flow.openEntry s e pool others).inits = s.inits := inits_log _ _
  have hins : (Flow.openEntry s e pool others).insertions = s.insertions + 1 := insertions_log _ _
  refine ⟨?_, ?_, ?_, ?_, ?_, ?_, ?_⟩
  · intro x hx
    rcases List.mem_cons.mp hx with rfl | hx
    · refine ⟨s.life x.sess, h.rest _ ?_ ?_ hlost, ?_⟩
      · intro hmem
        obtain ⟨y, hy, heq⟩ := List.mem_map.mp hmem
        exact hsess y hy heq
      · intro hmem
        obtain ⟨w, hw, heq⟩ := List.mem_map.mp hmem
        exact hgone w hw heq
      · rw [hlife, if_pos rfl]
    · rw [hlife, if_neg (hsess x hx).symm, List.append_nil]
      exact h.live x hx
  · intro w hw
    rw [hlife, if_neg (hgone w hw).symm, List.append_nil, openEntry_record]
    exact h.gone w hw
  · intro j h1 h2 h3
    rw [List.map_cons, List.mem_cons, not_or] at h1
    rw [hlife, if_neg (Ne.symm h1.1), List.append_nil]
    exact h.rest j h1.2 h2 h3
  · rw [hexp]
    exact h.counted
  · rw [hinits', hins, hexp]
    intro hi
    show s.insertions + 1 = s.exported.length + (g.live.length + 1) + g.gone.length
    have ht := h.tally hi
    omega
  · rw [hinits']
    exact h.keeps
  · rw [hinits']
    intro h0
    omega

/-- In the abstract store a session is opened. -/
lemma Shows.openEntry (h : Shows g a [p] s) (hstart : Unfound p a)
    (hrec : s.record e.sess = recordOf (.start p)) (hts : p.ts = s.lastPacketTimestamp)
    (hnow : s.lastPacketTimestamp ∈ s.times) {others : List UInt64}
    (hothers : others = (rules.ofKey p.key a.live).map rules.last) (pool : Pool) :
    ∃ a', Shows { g with live := e :: g.live, born := e :: g.born } a' []
      (openEntry s e pool others) := by
  have hstep : rules.Step a { a with
      live := .start p :: a.live, arrivals := a.arrivals ++ [p],
      notes := a.notes ++ [.opened a.now ((rules.ofKey (rules.key p) a.live).map rules.last)] } :=
    .start (h.now ▸ h.times ▸ hnow) (h.now ▸ hts) hstart
  have hrecord := openEntry_record (s := s) (e := e) pool others
  refine ⟨_, h.reach.tail hstep, ?_, ?_, h.now, ?_, ?_, ?_, ?_⟩
  · rw [List.map_cons, List.map_cons, hrecord, hrec, ← h.live]
    simp only [hrecord]
  · have hexported : (Flow.openEntry s e pool others).exported = s.exported :=
      (exported_log _ _).trans (List.append_nil _)
    rw [hexported, ← h.out]
    simp only [hrecord]
    rfl
  · exact h.times.trans ((times_log _ _).trans (List.append_nil _)).symm
  · exact ((reached_log _ _).trans (List.append_nil _)).trans
      (h.arrivals.trans (List.append_nil _).symm)
  · rw [Flow.openEntry, notes_log, hothers, h.now, h.notes]
    rfl
  · have hinits' : (Flow.openEntry s e pool others).inits = s.inits := inits_log _ _
    have herrors : (Flow.openEntry s e pool others).nodeErrors = s.nodeErrors :=
      nodeErrors_log _ _
    rw [hinits', herrors]
    exact h.intact

/-- The flow is put into the table. -/
lemma Rep.openEntry_opens {others : List UInt64} {pool : Pool} (h : Rep g a [p] s)
    (h' : Owns { g with live := e :: g.live, born := e :: g.born } (Flow.openEntry s e pool others))
    (haux : s.auxSession = some e.sess) (hrec : s.record e.sess = recordOf (.start p))
    (hts : p.ts = s.lastPacketTimestamp) (hnow : s.times.getLast? = some s.lastPacketTimestamp) :
    Opens p e.sess s (Flow.openEntry s e pool others) := by
  have hreached : s.reached.getLast? = some p := by
    rw [h.shows.arrivals, List.getLast?_concat]
  obtain ⟨-, hgone⟩ := h.owns.aux_apart haux
  refine ⟨⟨hreached, hts ▸ hnow⟩, (h.owns.aux_outside haux).1, fun j => ?_, fun j hj => ?_, ?_,
    fun j _ => openEntry_record .., others, by rw [hts]; rfl⟩
  · rw [h'.inTable_iff, h.owns.inTable_iff, List.exists_mem_cons_iff]
    exact or_congr_left eq_comm
  · obtain ⟨w, hw, rfl⟩ := h'.leaving_iff.mp hj
    exact ⟨h.owns.leaving_iff.mpr ⟨w, hw, rfl⟩, hgone w hw⟩
  · rw [openEntry_record, hrec]

end Open

/-! ## `insertFlowTable` -/

section Insert

variable {b c : Clock} {p : Packet} {i : SessionId} {s : State}

/-- Between the two calls of `getNodel`. -/
def Halfway (c : Clock) (p : Packet) (i : SessionId) : State → Prop :=
  At c [p] fun _ a s => ((∃ n, s.naux = some n) ∧ s.flagsExpiredFlowList = []
    ∧ s.auxSession = some i ∧ s.record i = recordOf (.start p)
    ∧ (s.ips i).currentFlow = some i) ∧ Unfound p a

/-- After the second call of `getNodel` has failed. -/
def Failed (c : Clock) : State → Prop :=
  At c [] fun _ _ s => (∃ n, s.naux = some n) ∧ s.flagsExpiredFlowList = []

lemma stable_halfway : Stable ExportStep (Halfway c p i) := by
  refine stable_at ?_
  rintro g a s g' s' hf ⟨⟨⟨n, h1⟩, h2, h3, h4, h5⟩, h6⟩
  have hips := hf.auxData i h3
  refine ⟨⟨⟨n, hf.naux.trans h1⟩, hf.flags.trans h2, hf.aux.trans h3, ?_, ?_⟩, h6⟩
  · rw [State.record, hips]
    exact h4
  · rw [hips]
    exact h5

lemma stable_failed : Stable ExportStep (Failed c) := by
  refine stable_at ?_
  rintro g a s g' s' hf ⟨⟨n, h1⟩, h2⟩
  exact ⟨⟨n, hf.naux.trans h1⟩, hf.flags.trans h2⟩

/-- The session is stamped and becomes its own current flow. -/
def stampSession (i : SessionId) (s : State) : State :=
  s.setSession i { s.ips i with
    lastpacketTimestamp := s.lastPacketTimestamp
    firstpacketTimestamp := s.lastPacketTimestamp
    currentFlow := some i }

/-- **The first call of `getNodel`.** -/
lemma Missed.first (h : Missed c p i s) (hacc : (parse p .zero).verdict = .accepted)
    (hts : p.ts = c.now) (hinits : 1 ≤ c.inits) :
    Still s (insertFlowTableFirst i s).1
      ∧ (((insertFlowTableFirst i s).2 = -1 ∧ Idle c (insertFlowTableFirst i s).1)
        ∨ ((insertFlowTableFirst i s).2 = 0 ∧ Halfway c p i (insertFlowTableFirst i s).1)) := by
  obtain ⟨g, a, hrep, hclock, ⟨hnaux, hflags, haux, hin⟩, hunfound⟩ := h
  have hnow : s.lastPacketTimestamp = c.now := congrArg Clock.now hclock
  obtain ⟨hlive, hgone⟩ := hrep.owns.aux_apart haux
  have hfree : i ∉ s.ipSessionPool.free := by
    intro hmem
    have hone := hrep.owns.session_count i
    have hpos := List.count_pos_iff.mpr hmem
    rw [haux, Option.toList_some, List.count_singleton_self] at hone
    omega
  have hrep' : Rep g a [p] (stampSession i s) :=
    hrep.setSession hlive (fun w hw heq => absurd heq (hgone w hw)) fun hmem => absurd hmem hfree
  have hrecord := hrep.owns.setSession_record haux { s.ips i with
    lastpacketTimestamp := s.lastPacketTimestamp
    firstpacketTimestamp := s.lastPacketTimestamp
    currentFlow := some i }
  have hclock' : (stampSession i s).clock = c := hclock
  have hinits' : 1 ≤ (stampSession i s).inits := by
    rw [← hclock'] at hinits
    exact hinits
  rcases hrep'.owns.getNodel with ⟨hlen, hget⟩ | ⟨n, rest, pool, hn, hrest, hok, hget⟩
  · have heq : insertFlowTableFirst i s
        = ({ (stampSession i s).log (.error "Pool de nodos vacío") with
            unprocessedFlows := (stampSession i s).unprocessedFlows + 1 }, -1) := by
      rw [insertFlowTableFirst]
      simp only
      rw [← stampSession, hget]
      rfl
    rw [heq]
    refine ⟨.of_logged rfl rfl rfl hrecord rfl (Event.aside_of s rfl rfl), Or.inl ⟨rfl, g, _,
      hrep'.dropPacket haux hlen, ?_, hnaux, hflags, fun _ _ => trivial⟩⟩
    exact (clock_log _ rfl rfl).trans hclock'
  · have heq : insertFlowTableFirst i s
        = (({ stampSession i s with
              nodelPool := pool, nodelAux := n, naux := some n } : State).setData n
            (.session i), 0) := by
      rw [insertFlowTableFirst]
      simp only
      rw [← stampSession, hget]
      rfl
    rw [heq]
    have hself : (stampSession i s).ips i = { s.ips i with
        lastpacketTimestamp := s.lastPacketTimestamp
        firstpacketTimestamp := s.lastPacketTimestamp
        currentFlow := some i } := State.setSession_self ..
    have hheld := hrep'.holdNode haux hinits' hnaux hn hrest hok
    refine ⟨.of_owns hrep.owns hheld.owns hrecord (silent s), Or.inr ⟨rfl, g, a, hheld, hclock',
      ⟨⟨n, rfl⟩, hflags, haux, ?_, ?_⟩, hunfound⟩⟩
    · show ((stampSession i s).ips i).record = _
      rw [hself, recordOf_start hacc, IPSession.record, hin, hnow, hts]
    · show ((stampSession i s).ips i).currentFlow = _
      rw [hself]

/-- **The second call of `getNodel`** and the links. -/
lemma Halfway.second (h : Halfway c p i s) (hts : p.ts = c.now)
    (hnow : c.times.getLast? = some c.now) (hinits : 1 ≤ c.inits) :
    ((insertFlowTableSecond i p.key.index s).2 = -1
        ∧ Still s (insertFlowTableSecond i p.key.index s).1
        ∧ Failed c (insertFlowTableSecond i p.key.index s).1)
      ∨ ((insertFlowTableSecond i p.key.index s).2 = 0
        ∧ Opens p i s (insertFlowTableSecond i p.key.index s).1
        ∧ Idle c (insertFlowTableSecond i p.key.index s).1) := by
  obtain ⟨g, a, hrep, hclock, ⟨⟨n, hnaux⟩, hflags, haux, hrec, hcur⟩, hunfound⟩ := h
  have hnow' : s.lastPacketTimestamp = c.now := congrArg Clock.now hclock
  have htimes : s.times = c.times := congrArg Clock.times hclock
  have hinits' : s.inits = c.inits := congrArg Clock.inits hclock
  have hkey : s.key i = p.key := key_of_record hrec
  rcases hrep.owns.getNodel with ⟨hlen, hget⟩ | ⟨m, rest, pool, hm, hrest, hok, hget⟩
  · have heq : insertFlowTableSecond i p.key.index s
        = ({ s.log (.error "Pool de nodos vacío") with
            unprocessedFlows := s.unprocessedFlows + 1 }, -1) := by
      rw [insertFlowTableSecond, hget]
      rfl
    rw [heq]
    refine Or.inl ⟨rfl, .of_logged rfl rfl rfl (fun _ _ => rfl) rfl (Event.aside_of s rfl rfl), g, _,
      hrep.dropPacket haux hlen, ?_, ⟨n, hnaux⟩, hflags⟩
    exact (clock_log _ rfl rfl).trans hclock
  · have hothers := hrep.sameKey_eq i
    rw [hkey] at hothers
    have heq : insertFlowTableSecond i p.key.index s
        = (openEntry s ⟨m, n, i⟩ pool (s.sameKey i (s.flowTable p.key.index)), 0) := by
      rw [insertFlowTableSecond, hget]
      simp only [hnaux, openEntry, hkey]
      rfl
    rw [heq]
    have hlast : s.times.getLast? = some s.lastPacketTimestamp := by rw [hnow', htimes, hnow]
    obtain ⟨a', hshows⟩ := hrep.shows.openEntry (e := ⟨m, n, i⟩) hunfound hrec
      (hts.trans hnow'.symm) (List.mem_of_getLast? hlast) hothers pool
    have howns := hrep.owns.openEntry (e := ⟨m, n, i⟩) haux hnaux hm hrest hok hcur
      (s.sameKey i (s.flowTable p.key.index))
    have hopens := hrep.openEntry_opens howns haux hrec (hts.trans hnow'.symm) hlast
    have hlives := hrep.lives.openEntry (e := ⟨m, n, i⟩) hrep.owns haux (by omega) pool
      (s.sameKey i (s.flowTable p.key.index))
    refine Or.inr ⟨rfl, hopens, _, a', ⟨howns, hlives, hshows⟩, ?_, rfl, hflags, fun _ _ => trivial⟩
    exact (clock_log _ rfl rfl).trans hclock

/-- **`insertFlowTable`.** -/
lemma guarantees_insertFlowTable (hb : c.Below b) (hacc : (parse p .zero).verdict = .accepted)
    (hts : p.ts = c.now) (hnow : c.times.getLast? = some c.now) (hinits : 1 ≤ c.inits)
    (h : Missed c p i s) :
    Guarantees ExportStep (Sound b) (Effect i) (fun _ => Idle c) (insertFlowTable i p.key.index)
      s := by
  refine .atomic_bind stable_missed (At.sound hb) (fun s hs => ?_) h
  obtain ⟨hstill, hfirst⟩ := hs.first hacc hts hinits
  refine ⟨.still hstill, ?_⟩
  rcases hfirst with ⟨hret, hidle⟩ | ⟨hret, hhalf⟩
  · rw [hret]
    exact .done stable_idle (At.sound hb) hidle
  · rw [hret]
    refine .atomic_bind stable_halfway (At.sound hb) (fun s hs => ?_) hhalf
    rcases hs.second hts hnow hinits with ⟨hret, hstill, hfailed⟩ | ⟨hret, hopens, hidle⟩
    · rw [hret]
      refine ⟨.still hstill, .sec stable_failed (At.sound hb) (fun s hs => ?_) hfailed⟩
      obtain ⟨g, a, hrep, hclock, ⟨n, hnaux⟩, hflags⟩ := hs
      obtain ⟨pool, hundo, hrep'⟩ := hrep.releaseNaux hnaux
      rw [hundo]
      exact ⟨.still (.of_silent rfl rfl rfl (fun _ _ => rfl) rfl), .done stable_idle (At.sound hb)
        ⟨g, a, hrep', hclock, rfl, hflags, fun _ _ => trivial⟩⟩
    · rw [hret]
      exact ⟨.start hopens, .done stable_idle (At.sound hb) hidle⟩

/-- **`insertFlow`.** -/
lemma guarantees_insertFlow (hb : c.Below b) (hacc : (parse p .zero).verdict = .accepted)
    (hts : p.ts = c.now) (hnow : c.times.getLast? = some c.now) (hinits : 1 ≤ c.inits)
    (h : Called c p i s) :
    Guarantees ExportStep (Sound b) (Effect i) (fun _ => Idle c) (insertFlow i) s := by
  refine .atomic_bind stable_called (At.sound hb) (fun s hs => ?_) h
  rcases hs.lookup hacc hts hnow with ⟨hret, hstill, hmissed⟩ | ⟨hret, ⟨j, hmerges⟩, hidle⟩
  · rw [hret]
    exact ⟨.still hstill, guarantees_insertFlowTable hb hacc hts hnow hinits hmissed⟩
  · rw [hret]
    exact ⟨.merge hmerges, .done stable_idle (At.sound hb) hidle⟩

end Insert

end Flow
